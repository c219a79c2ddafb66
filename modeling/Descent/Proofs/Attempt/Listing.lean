import Descent.Proofs.Grammar.Rewording
import Mathlib.Data.Finset.Sort
import Mathlib.Data.String.Basic

/-!
# Listing

The list that an error shows is made of a set of texts, those of what was looked for at its place. Nothing
else about the attempts is in it: it does not tell how often a text was looked for, in which order, or
whether as a token, as a literal or as a name. The first of these texts are shown, in the order of their
bytes, in one of four shapes, and no two of them look the same (`Attempts.listAt_spells`).
-/

namespace Descent

/-! ## The order of bytes -/

namespace Text

/-- The bytes of a text. -/
def bytes (s : String) : List UInt8 := s.toByteArray.data.toList

theorem bytes_eq_flatMap (s : String) : bytes s = s.toList.flatMap String.utf8EncodeChar := by
  have hencode : s.toByteArray = s.toList.utf8Encode := by
    rw [← String.toByteArray_ofList, String.ofList_toList]
  rw [bytes, hencode, List.utf8Encode]
  simp

/-- Of two characters the one with the smaller code point has the smaller bytes, and what follows does not
matter. A longer form begins with a greater byte; forms of one length write the code point to the base of
64, the highest digit first. -/
theorem encode_append_lt {c d : Char} (h : c < d) (x y : List UInt8) :
    String.utf8EncodeChar c ++ x < String.utf8EncodeChar d ++ y := by
  have hlt : c.val.toNat < d.val.toNat := h
  have hmax : d.val.toNat < 0x110000 := by
    have hvalid := d.valid
    simp only [UInt32.isValidChar, Nat.isValidChar] at hvalid
    omega
  unfold String.utf8EncodeChar
  generalize c.val.toNat = m, d.val.toNat = n at *
  dsimp only
  split_ifs <;>
    simp (disch := omega) only [List.cons_append, List.nil_append, List.cons_lt_cons_iff,
      UInt8.lt_iff_toNat_lt, ← UInt8.toNat_inj, UInt8.toNat_ofNat', Nat.mod_eq_of_lt] <;>
    omega

/-- The order of code points is the order of bytes. -/
theorem bytes_lt_bytes {s t : String} (h : s < t) : bytes s < bytes t := by
  rw [bytes_eq_flatMap, bytes_eq_flatMap]
  replace h : s.toList < t.toList := String.lt_iff.1 h
  generalize s.toList = cs, t.toList = ds at h
  induction cs generalizing ds with
  | nil =>
    cases ds with
    | nil => exact absurd h (List.lt_irrefl [])
    | cons d ds =>
      obtain ⟨b, rest, hd⟩ := List.exists_cons_of_ne_nil (String.utf8EncodeChar_ne_nil (c := d))
      rw [List.flatMap_cons, hd]
      exact List.nil_lt_cons ..
  | cons c cs ih =>
    cases ds with
    | nil => exact absurd h (List.not_lt_nil _)
    | cons d ds =>
      rcases List.cons_lt_cons_iff.1 h with hlt | ⟨rfl, hlt⟩
      · exact encode_append_lt hlt ..
      · exact List.append_left_lt (ih ds hlt)

end Text

namespace Attempts

variable {attempts : List Attempt} {position limit : Nat} {language : Language} {render : Renderer}

/-! ## The texts -/

/-- The texts of what was looked for at a position. A text without a character is none. -/
def soughtAt (attempts : List Attempt) (position : Nat) (language : Language) : Finset String :=
  ((attempts.filter (·.position = position)).map (·.target.describe language)).toFinset.filter (· ≠ "")

theorem mem_soughtAt {t : String} :
    t ∈ soughtAt attempts position language ↔
      (∃ x ∈ attempts, x.position = position ∧ x.target.describe language = t) ∧ t ≠ "" := by
  simp [soughtAt, and_assoc]

/-- The texts at a position are these, in order. -/
theorem textsAt_eq_sort : textsAt attempts position language = (soughtAt attempts position language).sort := by
  have hascending : (textsAt attempts position language).Pairwise (· < ·) := Text.pairwise_ascending _
  have hset : (textsAt attempts position language).toFinset = soughtAt attempts position language := by
    ext t
    rw [List.mem_toFinset, textsAt, Text.mem_ascending, mem_soughtAt]
    simp [and_assoc]
  have hnodup : (textsAt attempts position language).Nodup := hascending.imp fun h => ne_of_lt h
  rw [← hset]
  exact ((List.toFinset_sort (· ≤ ·) hnodup).2 (hascending.imp fun h => le_of_lt h)).symm

/-! ## What a text looks like in a list -/

theorem listed_eq_or (s : String) : listed s = s ∨ listed s = "'" ++ s ++ "'" := by
  unfold listed
  split
  · split
    · exact .inl rfl
    · exact .inr rfl
  · exact .inr rfl

/-- A text that stays bare is not what another one looks like between quotes. -/
theorem ne_quoted_of_bare {s : String} (h : listed s = s) (t : String) : s ≠ "'" ++ t ++ "'" := by
  rintro rfl
  have hbegins : ("'" ++ t ++ "'").toList = '\'' :: (t.toList ++ ['\'']) := by simp
  have hquote : Text.isAlphabetic '\'' = false := by decide +kernel
  unfold listed at h
  rw [hbegins] at h
  have hlength := congrArg String.length h
  have hone : "'".length = 1 := rfl
  simp only [String.length_append, hquote, hone] at hlength
  simp at hlength
  omega

/-- Texts that differ look different. -/
theorem listed_injective : Function.Injective listed := by
  intro s t h
  rcases listed_eq_or s with hs | hs <;> rcases listed_eq_or t with ht | ht
  · rwa [hs, ht] at h
  · exact absurd (hs ▸ h.trans ht) (ne_quoted_of_bare hs t)
  · exact absurd (ht ▸ h.symm.trans hs) (ne_quoted_of_bare ht s)
  · rw [hs, ht] at h
    exact (String.append_right_inj _).1 ((String.append_left_inj _).1 h)

/-! ## The shapes of a list -/

/-- How the texts that are shown are joined, where `left` more are left out. -/
inductive Spells (render : Renderer) : List String → Nat → String → Prop where
  | nothing : Spells render [] 0 ""
  | alone (text : String) : Spells render [text] 0 text
  /-- All are shown, with the word before the last one. -/
  | whole {texts : List String} (last : String) (hne : texts ≠ []) :
      Spells render (texts ++ [last]) 0 (", ".intercalate texts ++ " " ++ render .or ++ " " ++ last)
  /-- The number of those left out comes behind the texts. -/
  | cut {texts : List String} (left : Nat) (hne : texts ≠ []) :
      Spells render texts (left + 1) (", ".intercalate texts ++ ", " ++ render (.andMore (left + 1)))

theorem spells_joinTexts (hlimit : 1 ≤ limit) (texts : List String) (render : Renderer) :
    Spells render ((texts.take limit).map listed) (texts.length - limit) (joinTexts texts render limit) := by
  unfold joinTexts
  by_cases hcut : limit < texts.length
  · have hlength : ((texts.take limit).map listed).length = limit := by simp; omega
    have hne : (texts.take limit).map listed ≠ [] := by
      intro h
      rw [h, List.length_nil] at hlength
      omega
    obtain ⟨left, hleft⟩ : ∃ left, texts.length - limit = left + 1 := ⟨texts.length - limit - 1, by omega⟩
    simp only [if_pos hcut, List.isEmpty_iff, if_neg hne]
    rw [hlength, hleft]
    exact .cut left hne
  · simp only [if_neg hcut]
    rw [Nat.sub_eq_zero_of_le (Nat.le_of_not_lt hcut)]
    generalize (texts.take limit).map listed = shown
    match shown with
    | [] => exact .nothing
    | [text] => exact .alone text
    | first :: second :: rest =>
      have hne : first :: second :: rest ≠ [] := by simp
      have hdropped : (first :: second :: rest).dropLast ≠ [] := by simp
      have hsplit := List.dropLast_append_getLast hne
      dsimp only
      rw [List.getLast?_eq_some_getLast hne, Option.getD_some]
      generalize (first :: second :: rest).dropLast = init, (first :: second :: rest).getLast hne = last at *
      rw [← hsplit]
      exact .whole last hdropped

/-- What is looked for at a place is listed as a set. The list is empty only if the set is. It shows the
texts with the smallest bytes, as many as there may be, in order; each stands bare or between quotes, and
no two look the same. -/
theorem listAt_spells (attempts : List Attempt) (position : Nat) (language : Language) (render : Renderer)
    {limit : Nat} (hlimit : 1 ≤ limit) :
    (∀ attempts' position' language',
      soughtAt attempts' position' language' = soughtAt attempts position language →
        listAt attempts' position' language' render limit = listAt attempts position language render limit) ∧
    (listAt attempts position language render limit = "" ↔ soughtAt attempts position language = ∅) ∧
    ∃ shown : List String,
      shown.length = min limit (soughtAt attempts position language).card ∧
      shown.Pairwise (Text.bytes · < Text.bytes ·) ∧
      (∀ t ∈ shown, t ∈ soughtAt attempts position language) ∧
      (∀ t ∈ soughtAt attempts position language, t ∉ shown → ∀ s ∈ shown, Text.bytes s < Text.bytes t) ∧
      (∀ t ∈ shown, listed t = t ∨ listed t = "'" ++ t ++ "'") ∧
      (shown.map listed).Nodup ∧
      Spells render (shown.map listed) ((soughtAt attempts position language).card - limit)
        (listAt attempts position language render limit) := by
  have hlist {attempts : List Attempt} {position : Nat} {language : Language} :
      listAt attempts position language render limit =
        joinTexts (soughtAt attempts position language).sort render limit := by
    rw [listAt, textsAt_eq_sort]
  refine ⟨fun _ _ _ h => by rw [hlist, hlist, h], ?_⟩
  rw [hlist]
  generalize soughtAt attempts position language = sought
  have hascending : sought.sort.Pairwise (· < ·) := sought.sortedLT_sort.pairwise
  have hmem (t : String) : t ∈ sought.sort ↔ t ∈ sought := Finset.mem_sort _
  have hcard : sought.sort.length = sought.card := Finset.length_sort _
  have hempty : sought.sort = [] ↔ sought = ∅ := by rw [← List.toFinset_eq_empty_iff, Finset.sort_toFinset]
  rw [← hempty, ← hcard]
  simp only [← hmem]
  generalize sought.sort = texts at hascending
  obtain ⟨hshown, -, hbefore⟩ := List.pairwise_append.1 ((texts.take_append_drop limit).symm ▸ hascending)
  refine ⟨?_, texts.take limit, ?_, ?_, ?_, ?_, ?_, ?_, ?_⟩
  · rw [← String.isEmpty_iff, isEmpty_joinTexts hlimit, List.isEmpty_iff]
  · exact List.length_take
  · exact hshown.imp Text.bytes_lt_bytes
  · exact fun t ht => List.mem_of_mem_take ht
  · intro t ht hleft s hs
    rw [← texts.take_append_drop limit, List.mem_append] at ht
    exact Text.bytes_lt_bytes (hbefore s hs t (ht.resolve_left hleft))
  · exact fun t _ => listed_eq_or t
  · have hnodup : (texts.take limit).Nodup := hshown.imp fun h => ne_of_lt h
    exact hnodup.map listed_injective
  · exact spells_joinTexts hlimit texts render

/-- Three texts, one of them looked for twice, and only two are shown. -/
theorem listAt_spells_signs :
    let sign : Kind := ⟨5⟩
    let language : Language := { nameOf := fun _ => "+", isTrivia := fun _ => false }
    let attempts : List Attempt :=
      [⟨4, .text "word"⟩, ⟨4, .token sign⟩, ⟨3, .text "a"⟩, ⟨4, .name "word"⟩, ⟨4, .name ""⟩, ⟨4, .text "-"⟩]
    1 ≤ 2 ∧ (soughtAt attempts 4 language).card = 3 ∧
      listAt attempts 4 language Message.keyed 2 = "'+', '-', more[1]" ∧
      ∃ shown : List String, shown.length = 2 ∧ (∀ t ∈ shown, t ∈ soughtAt attempts 4 language) ∧
        Spells Message.keyed (shown.map listed) 1 "'+', '-', more[1]" := by
  intro sign language attempts
  have hcard : (soughtAt attempts 4 language).card = 3 := by decide +kernel
  have hlist : listAt attempts 4 language Message.keyed 2 = "'+', '-', more[1]" := by decide +kernel
  obtain ⟨-, -, shown, hlength, -, hmem, -, -, -, hspells⟩ :=
    listAt_spells attempts 4 language Message.keyed (by decide : 1 ≤ 2)
  rw [hcard] at hlength
  rw [hcard, hlist] at hspells
  exact ⟨by decide, hcard, hlist, shown, hlength, hmem, hspells⟩

end Attempts

end Descent
