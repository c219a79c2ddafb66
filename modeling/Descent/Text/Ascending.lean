/-!
# Ascending lists of texts

Texts are ordered by their code points, which is also the order of their bytes. A set of texts is
kept as a strictly ascending list.
-/

namespace Descent.Text

/-- Adds a text to an ascending list, unless the list has it. -/
def insertAscending (s : String) : List String → List String
  | [] => [s]
  | t :: rest =>
    if s = t then t :: rest
    else if s < t then s :: t :: rest
    else t :: insertAscending s rest

/-- The texts of a list, each once, in ascending order. -/
def ascending (texts : List String) : List String := texts.foldr insertAscending []

@[simp] theorem mem_insertAscending {s t : String} {texts : List String} :
    t ∈ insertAscending s texts ↔ t = s ∨ t ∈ texts := by
  induction texts with
  | nil => simp [insertAscending]
  | cons u texts ih =>
    simp only [insertAscending]
    split
    · simp_all
    · split <;> simp [ih, or_left_comm]

@[simp] theorem mem_ascending {t : String} {texts : List String} :
    t ∈ ascending texts ↔ t ∈ texts := by
  induction texts with
  | nil => simp [ascending]
  | cons u texts ih => simpa [ascending] using or_congr_right ih

/-- Of two texts that differ one comes first. -/
theorem lt_of_not_lt_of_ne {s t : String} (h : ¬ s < t) (hne : s ≠ t) : t < s :=
  Std.lt_of_le_of_ne (String.not_lt.1 h) (Ne.symm hne)

theorem pairwise_insertAscending {s : String} {texts : List String}
    (h : texts.Pairwise (· < ·)) : (insertAscending s texts).Pairwise (· < ·) := by
  induction texts with
  | nil => simp [insertAscending]
  | cons u texts ih =>
    obtain ⟨hu, ht⟩ := List.pairwise_cons.1 h
    simp only [insertAscending]
    split
    · exact h
    · next hne =>
      split
      · next hlt =>
        refine List.pairwise_cons.2 ⟨fun t hm => ?_, h⟩
        rcases List.mem_cons.1 hm with rfl | hm
        · exact hlt
        · exact String.lt_trans hlt (hu t hm)
      · next hlt =>
        refine List.pairwise_cons.2 ⟨fun t hm => ?_, ih ht⟩
        rcases mem_insertAscending.1 hm with rfl | hm
        · exact lt_of_not_lt_of_ne hlt hne
        · exact hu t hm

/-- The list is strictly ascending, so no text comes twice. -/
theorem pairwise_ascending (texts : List String) : (ascending texts).Pairwise (· < ·) := by
  induction texts with
  | nil => exact .nil
  | cons u texts ih => exact pairwise_insertAscending ih

end Descent.Text
