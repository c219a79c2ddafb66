import Descent.Session
import Mathlib.Data.List.ReduceOption
import Mathlib.Data.Nat.Find
import Mathlib.Order.MinMax

/-!
# The outline of a source

All that a parse should see of the trivia in a source is between which tokens they are. The outline
of a source is the list of its tokens by kind and text, with one mark for every run of trivia
(`Source.outline`).

A list stretches another one if it has a run of gaps for every gap of that, and the same elements
between them (`Stretches`). Every list stretches what is left of it when its runs are squeezed
(`exists_stretches_squeeze`), and so the positions in a source whose runs of trivia are squeezed become
positions in the source itself.
-/

namespace Descent

/-! ## Stretched lists -/

section
variable {α β : Type}

/-- Cuts every run of gaps down to its last element. -/
def squeeze (isGap : α → Bool) : List α → List α
  | [] => []
  | x :: xs =>
    if isGap x && xs.head?.any isGap then squeeze isGap xs else x :: squeeze isGap xs

theorem squeeze_map (h : α → β) (isGap : β → Bool) (xs : List α) :
    squeeze isGap (xs.map h) = (squeeze (isGap ∘ h) xs).map h := by
  induction xs with
  | nil => rfl
  | cons x xs ih =>
    have hhead : (xs.map h).head?.any isGap = xs.head?.any (isGap ∘ h) := by
      cases xs <;> rfl
    rw [List.map_cons, squeeze, squeeze, hhead, ih]
    simp only [Function.comp_apply]
    split <;> rfl

theorem squeeze_head? (isGap : α → Bool) (xs : List α) :
    (squeeze isGap xs).head?.any isGap = xs.head?.any isGap := by
  induction xs with
  | nil => rfl
  | cons x xs ih =>
    unfold squeeze
    split
    · next h =>
      obtain ⟨hx, hxs⟩ := Bool.and_eq_true_iff.1 h
      rw [ih, hxs, List.head?_cons, Option.any_some, hx]
    · rfl

theorem reduceOption_squeeze (xs : List (Option α)) :
    (squeeze Option.isNone xs).reduceOption = xs.reduceOption := by
  induction xs with
  | nil => rfl
  | cons x xs ih =>
    unfold squeeze
    split
    · next h =>
      obtain rfl : x = none := by simp_all
      rw [ih, List.reduceOption_cons_of_none]
    · cases x with
      | none => rw [List.reduceOption_cons_of_none, List.reduceOption_cons_of_none, ih]
      | some x => rw [List.reduceOption_cons_of_some, List.reduceOption_cons_of_some, ih]

/-- The elements of the first list are those of the second one, at the positions that `f` tells, but
for gaps, which are `none`. What is a gap in the first list is a run of gaps in the second one, which
begins at the position that `f` tells. -/
structure Stretches (f : Nat → Nat) (os xs : List (Option α)) : Prop where
  zero : f 0 = 0
  getElem? (p : Nat) : xs[f p]? = os[p]?
  token {p : Nat} : os[p]? ≠ some none → f (p + 1) = f p + 1
  gap {p : Nat} : os[p]? = some none →
    f p < f (p + 1) ∧ ∀ i, f p ≤ i → i < f (p + 1) → xs[i]? = some none

namespace Stretches

variable {f : Nat → Nat} {os xs : List (Option α)}

theorem nil : Stretches id ([] : List (Option α)) [] where
  zero := rfl
  getElem? _ := rfl
  token _ := rfl
  gap h := by cases h

/-- The function of a list with one more element, which is an element of the other list as well. -/
def shift (f : Nat → Nat) : Nat → Nat
  | 0 => 0
  | p + 1 => f p + 1

theorem cons (h : Stretches f os xs) (x : Option α) : Stretches (shift f) (x :: os) (x :: xs) where
  zero := rfl
  getElem? p := by
    cases p with
    | zero => rfl
    | succ p => exact h.getElem? p
  token {p} hp := by
    cases p with
    | zero => simp only [shift, h.zero]
    | succ p => exact congrArg (· + 1) (h.token hp)
  gap {p} hp := by
    cases p with
    | zero =>
      have hx : x = none := by simpa using hp
      simp only [shift, h.zero]
      refine ⟨Nat.one_pos, fun i _ hi => ?_⟩
      obtain rfl : i = 0 := by omega
      rw [hx]
      rfl
    | succ p =>
      obtain ⟨hlt, hrun⟩ := h.gap hp
      refine ⟨Nat.succ_lt_succ hlt, fun i hge hlt => ?_⟩
      obtain ⟨i, rfl⟩ : ∃ j, i = j + 1 := ⟨i - 1, by simp only [shift] at hge; omega⟩
      exact hrun i (Nat.le_of_succ_le_succ hge) (Nat.lt_of_succ_lt_succ hlt)

/-- The function of a list with one more gap in front of a gap. -/
def widen (f : Nat → Nat) : Nat → Nat
  | 0 => 0
  | p + 1 => f (p + 1) + 1

theorem consGap (h : Stretches f os xs) (hos : os[0]? = some none) :
    Stretches (widen f) os (none :: xs) where
  zero := rfl
  getElem? p := by
    cases p with
    | zero => exact hos.symm
    | succ p => exact h.getElem? (p + 1)
  token {p} hp := by
    cases p with
    | zero => exact absurd hos hp
    | succ p => exact congrArg (· + 1) (h.token hp)
  gap {p} hp := by
    obtain ⟨hlt, hrun⟩ := h.gap hp
    have hgap (i : Nat) (hge : f p ≤ i) (hi : i + 1 < f (p + 1) + 1) :
        (none :: xs)[i + 1]? = some none :=
      hrun i hge (Nat.lt_of_succ_lt_succ hi)
    cases p with
    | zero =>
      refine ⟨Nat.succ_pos _, fun i _ hi => ?_⟩
      cases i with
      | zero => rfl
      | succ i => exact hgap i (h.zero.le.trans (Nat.zero_le i)) hi
    | succ p =>
      refine ⟨Nat.succ_lt_succ hlt, fun i hge hi => ?_⟩
      obtain ⟨i, rfl⟩ : ∃ j, i = j + 1 := ⟨i - 1, by simp only [widen] at hge; omega⟩
      exact hgap i (Nat.le_of_succ_le_succ hge) hi

end Stretches

/-- Every list stretches what is left of it when its runs of gaps are squeezed. -/
theorem exists_stretches_squeeze (xs : List (Option α)) :
    ∃ f, Stretches f (squeeze Option.isNone xs) xs := by
  induction xs with
  | nil => exact ⟨id, .nil⟩
  | cons x xs ih =>
    obtain ⟨f, hf⟩ := ih
    unfold squeeze
    split
    -- a gap in front of a gap is squeezed out, and is part of the run of the gap behind it
    · next h =>
      have hx : x = none := by simp_all
      have hhead : (squeeze Option.isNone xs)[0]? = some none := by
        have hany := squeeze_head? Option.isNone xs
        rw [← List.head?_eq_getElem?]
        cases hy : (squeeze Option.isNone xs).head? <;> simp_all
      exact hx ▸ ⟨_, hf.consGap hhead⟩
    · exact ⟨_, hf.cons x⟩

namespace Stretches

variable {f : Nat → Nat} {os xs : List (Option α)} (h : Stretches f os xs) {p q i : Nat}
include h

theorem strictMono : StrictMono f :=
  strictMono_nat_of_lt_succ fun p => by
    by_cases hp : os[p]? = some none
    · exact (h.gap hp).1
    · rw [h.token hp]
      exact Nat.lt_succ_self _

/-- Every position of the second list up to `f q` belongs to one of the first list up to `q`. -/
theorem exists_between (hge : f p ≤ i) (hlt : i < f q) :
    ∃ r, p ≤ r ∧ r < q ∧ f r ≤ i ∧ i < f (r + 1) := by
  induction q with
  | zero => exact absurd (h.zero ▸ hlt) (Nat.not_lt_zero i)
  | succ q ih =>
    by_cases hq : i < f q
    · obtain ⟨r, hpr, hr, hi⟩ := ih hq
      exact ⟨r, hpr, Nat.lt_succ_of_lt hr, hi⟩
    · have hpq : p < q + 1 := h.strictMono.lt_iff_lt.1 (Nat.lt_of_le_of_lt hge hlt)
      exact ⟨q, Nat.le_of_lt_succ hpq, Nat.lt_succ_self q, Nat.le_of_not_lt hq, hlt⟩

theorem getElem?_of_between (hge : f p ≤ i) (hlt : i < f (p + 1)) : xs[i]? = os[p]? := by
  by_cases hp : os[p]? = some none
  · rw [hp]
    exact (h.gap hp).2 i hge hlt
  · obtain rfl : i = f p := by
      rw [h.token hp] at hlt
      omega
    exact h.getElem? p

theorem gaps_iff (p q : Nat) :
    (∀ i, f p ≤ i → i < f q → xs[i]? = some none) ↔ ∀ i, p ≤ i → i < q → os[i]? = some none := by
  constructor
  · intro hgaps i hge hlt
    rw [← h.getElem? i]
    exact hgaps (f i) (h.strictMono.monotone hge) (h.strictMono hlt)
  · intro hgaps i hge hlt
    obtain ⟨r, hpr, hrq, hi⟩ := h.exists_between hge hlt
    rw [h.getElem?_of_between hi.1 hi.2]
    exact hgaps r hpr hrq

theorem length_eq : xs.length = f os.length := by
  have hend : xs[f os.length]? = none := by
    rw [h.getElem?, List.getElem?_eq_none (Nat.le_refl _)]
  refine Nat.le_antisymm (List.getElem?_eq_none_iff.1 hend) (Nat.le_of_not_lt fun hlt => ?_)
  obtain ⟨r, -, hr, hi⟩ := h.exists_between (h.zero.le.trans (Nat.zero_le xs.length)) hlt
  have hsome := h.getElem?_of_between hi.1 hi.2
  rw [List.getElem?_eq_none (Nat.le_refl _), List.getElem?_eq_getElem hr] at hsome
  cases hsome

theorem reduceOption_gap (hp : os[p]? = some none) :
    ((xs.drop (f p)).take (f (p + 1) - f p)).reduceOption = [] := by
  refine List.filterMap_eq_nil_iff.2 fun x hx => ?_
  obtain ⟨i, hi⟩ := List.mem_iff_getElem?.1 hx
  rw [List.getElem?_take, List.getElem?_drop] at hi
  split at hi
  · have hnone := (h.gap hp).2 (f p + i) (Nat.le_add_right ..) (by omega)
    rw [hnone] at hi
    exact (Option.some.inj hi).symm
  · cases hi

/-- But for gaps, the same elements are between two positions. -/
theorem reduceOption_between (hle : p ≤ q) :
    ((xs.drop (f p)).take (f q - f p)).reduceOption = ((os.drop p).take (q - p)).reduceOption := by
  -- at each step the first list has one more element, and the second one what that stands for
  induction hle with
  | refl => simp
  | @step q hle ih =>
    have hpq : p ≤ q := hle
    have hmono : f p ≤ f q := h.strictMono.monotone hpq
    have hlength : q + 1 - p = q - p + 1 := by omega
    have hend : p + (q - p) = q := by omega
    have hend' : f p + (f q - f p) = f q := by omega
    rw [hlength, List.take_add_one, List.getElem?_drop, hend, List.reduceOption_append, ← ih]
    by_cases hq : os[q]? = some none
    · have hlt := (h.gap hq).1
      have hlength' : f (q + 1) - f p = (f q - f p) + (f (q + 1) - f q) := by omega
      rw [hlength', List.take_add, List.drop_drop, hend', List.reduceOption_append,
        h.reduceOption_gap hq, hq]
      rfl
    · have hlength' : f (q + 1) - f p = f q - f p + 1 := by
        rw [h.token hq]
        omega
      rw [hlength', List.take_add_one, List.getElem?_drop, hend', h.getElem?,
        List.reduceOption_append]

end Stretches

end

/-! ## Stretched sources -/

namespace Source

/-- A token by its kind and its text; trivia is none. -/
def glimpse (language : Language) (s : Source) (t : Token) : Option (Kind × String) :=
  if language.isTrivia t.kind then none else some (t.kind, s.textOf t.span)

def glimpses (language : Language) (s : Source) : List (Option (Kind × String)) :=
  s.tokens.map (s.glimpse language)

/-- The tokens that are no trivia. -/
def words (language : Language) (s : Source) : List (Kind × String) :=
  s.tokens.filterMap (s.glimpse language)

/-- The tokens that are no trivia, with a mark for every run of trivia between them. -/
def outline (language : Language) (s : Source) : List (Option (Kind × String)) :=
  squeeze Option.isNone (s.glimpses language)

theorem reduceOption_outline (language : Language) (s : Source) :
    (s.outline language).reduceOption = s.words language := by
  rw [outline, reduceOption_squeeze, glimpses, List.reduceOption, List.filterMap_map]
  rfl

/-- The source with the last token of every run of trivia in its place. -/
def squeezed (language : Language) (s : Source) : Source :=
  { s with tokens := squeeze (fun t => language.isTrivia t.kind) s.tokens }

theorem glimpses_squeezed (language : Language) (s : Source) :
    (s.squeezed language).glimpses language = s.outline language := by
  have hgap : Option.isNone ∘ s.glimpse language = fun t => language.isTrivia t.kind := by
    funext t
    simp only [Function.comp_apply, glimpse]
    cases language.isTrivia t.kind <;> rfl
  rw [outline, glimpses, glimpses, squeeze_map, hgap]
  rfl

end Source

namespace Setup

/-- The setup with another source. -/
abbrev on (g : Setup) (source : Source) : Setup := { g with source }

/-- What is at a position: a token, trivia, or nothing. -/
def glimpse? (g : Setup) (i : Nat) : Option (Option (Kind × String)) :=
  (g.source.glimpses g.language)[i]?

theorem glimpse?_eq (g : Setup) (i : Nat) :
    g.glimpse? i = g.source.tokens[i]?.map (g.source.glimpse g.language) :=
  List.getElem?_map ..

theorem isTriviaAt_iff (g : Setup) (i : Nat) :
    g.isTriviaAt i = true ↔ g.glimpse? i = some none := by
  rw [glimpse?_eq, isTriviaAt, Source.kind?]
  cases g.source.tokens[i]? with
  | none => simp [Language.isTrivia?]
  | some t =>
    cases ht : g.language.isTrivia t.kind <;> simp [Language.isTrivia?, Source.glimpse, ht]

theorem kind?_of_glimpse? {g : Setup} {i : Nat} (h : g.isTriviaAt i = false) :
    g.source.kind? i = (g.glimpse? i).bind fun x => x.map (·.1) := by
  rw [glimpse?_eq]
  unfold isTriviaAt Source.kind? at *
  cases ht : g.source.tokens[i]? with
  | none => rfl
  | some t =>
    rw [ht] at h
    have h : g.language.isTrivia t.kind = false := h
    simp [Source.glimpse, h]

theorem textAt_of_glimpse? {g : Setup} {i : Nat} (h : g.isTriviaAt i = false) :
    g.source.textAt i = ((g.glimpse? i).bind fun x => x.map (·.2)).getD "" := by
  rw [glimpse?_eq]
  unfold isTriviaAt Source.kind? at h
  unfold Source.textAt
  cases ht : g.source.tokens[i]? with
  | none => rfl
  | some t =>
    rw [ht] at h
    have h : g.language.isTrivia t.kind = false := h
    simp [Source.glimpse, h]

theorem significant_of_token {g : Setup} {i : Nat} (h : g.isTriviaAt i = false) :
    g.significant i = i := by
  unfold isTriviaAt Source.kind? at h
  unfold significant
  cases hdrop : g.source.tokens.drop i with
  | nil => rfl
  | cons t ts =>
    rw [← List.head?_drop, hdrop] at h
    have h : g.language.isTrivia t.kind = false := h
    simp [h]

theorem significant_of_trivia {g : Setup} {i : Nat} (h : g.isTriviaAt i = true) :
    g.significant i = g.significant (i + 1) := by
  unfold isTriviaAt Source.kind? at h
  unfold significant
  cases hdrop : g.source.tokens.drop i with
  | nil =>
    rw [← List.head?_drop, hdrop] at h
    cases h
  | cons t ts =>
    rw [← List.head?_drop, hdrop] at h
    have h : g.language.isTrivia t.kind = true := h
    rw [← List.drop_drop, hdrop]
    simp [h]
    omega

/-- The next position without trivia is the one with no trivia and nothing but trivia before it. -/
theorem significant_eq {g : Setup} {i j : Nat} (hge : i ≤ j) (hj : g.isTriviaAt j = false)
    (h : ∀ k, i ≤ k → k < j → g.isTriviaAt k = true) : g.significant i = j := by
  induction hge using Nat.decreasingInduction with
  | self => exact significant_of_token hj
  | of_succ k hk ih =>
    rw [significant_of_trivia (h k (Nat.le_refl k) hk)]
    exact ih fun i hge => h i (Nat.le_of_succ_le hge)

theorem significant_spec (g : Setup) (i : Nat) : g.isTriviaAt (g.significant i) = false ∧
    ∀ k, i ≤ k → k < g.significant i → g.isTriviaAt k = true := by
  have hend : g.isTriviaAt (i + g.source.size) = false := by
    have hnone : g.source.tokens[i + g.source.size]? = none :=
      List.getElem?_eq_none (Nat.le_add_left ..)
    simp [isTriviaAt, Source.kind?, hnone, Language.isTrivia?]
  have hex : ∃ j, i ≤ j ∧ g.isTriviaAt j = false := ⟨_, Nat.le_add_right .., hend⟩
  obtain ⟨hge, hj⟩ := Nat.find_spec hex
  have hbefore (k : Nat) (hk : i ≤ k) (hlt : k < Nat.find hex) : g.isTriviaAt k = true := by
    simpa [hk] using Nat.find_min hex hlt
  rw [significant_eq hge hj hbefore]
  exact ⟨hj, hbefore⟩

end Setup

/-! ## Positions in a stretched source -/

namespace Stretches

variable {g : Setup} {b : Source} {f : Nat → Nat}
  (h : Stretches f (g.source.glimpses g.language) (b.glimpses g.language))
include h

theorem glimpse? (p : Nat) : (g.on b).glimpse? (f p) = g.glimpse? p := h.getElem? p

theorem isTriviaAt (p : Nat) : (g.on b).isTriviaAt (f p) = g.isTriviaAt p := by
  rw [Bool.eq_iff_iff, Setup.isTriviaAt_iff, Setup.isTriviaAt_iff, h.glimpse?]

theorem kind? {p : Nat} (hp : g.isTriviaAt p = false) : b.kind? (f p) = g.source.kind? p := by
  rw [Setup.kind?_of_glimpse? hp, ← h.glimpse? p]
  exact Setup.kind?_of_glimpse? (g := g.on b) ((h.isTriviaAt p).trans hp)

theorem textAt {p : Nat} (hp : g.isTriviaAt p = false) : b.textAt (f p) = g.source.textAt p := by
  rw [Setup.textAt_of_glimpse? hp, ← h.glimpse? p]
  exact Setup.textAt_of_glimpse? (g := g.on b) ((h.isTriviaAt p).trans hp)

theorem succ {p : Nat} (hp : g.isTriviaAt p = false) : f (p + 1) = f p + 1 := by
  refine h.token fun hnone => ?_
  rw [(g.isTriviaAt_iff p).2 hnone] at hp
  cases hp

theorem trivia_iff (p q : Nat) :
    (∀ i, f p ≤ i → i < f q → (g.on b).isTriviaAt i = true) ↔
      ∀ i, p ≤ i → i < q → g.isTriviaAt i = true := by
  simp only [Setup.isTriviaAt_iff]
  exact h.gaps_iff p q

/-- There is nothing but trivia from one position to another. -/
theorem all_trivia (p q : Nat) :
    (decide (f p ≤ f q) && (List.range' (f p) (f q - f p)).all (g.on b).isTriviaAt) =
      (decide (p ≤ q) && (List.range' p (q - p)).all g.isTriviaAt) := by
  have hrange (g : Setup) {p q : Nat} (hle : p ≤ q) :
      (List.range' p (q - p)).all g.isTriviaAt = true ↔
        ∀ i, p ≤ i → i < q → g.isTriviaAt i = true := by
    simp only [List.all_eq_true, List.mem_range'_1, Nat.add_sub_cancel' hle, and_imp]
  by_cases hle : p ≤ q
  · have hle' := h.strictMono.monotone hle
    rw [decide_eq_true hle, decide_eq_true hle', Bool.true_and, Bool.true_and, Bool.eq_iff_iff,
      hrange _ hle, hrange _ hle']
    exact h.trivia_iff p q
  · have hle' : ¬ f p ≤ f q := fun hf => hle (h.strictMono.le_iff_le.1 hf)
    rw [decide_eq_false hle, decide_eq_false hle']
    rfl

theorem significant (p : Nat) : (g.on b).significant (f p) = f (g.significant p) := by
  refine Setup.significant_eq (h.strictMono.monotone (Nat.le_add_right ..)) ?_ ?_
  · rw [h.isTriviaAt]
    exact (g.significant_spec p).1
  · exact (h.trivia_iff _ _).2 (g.significant_spec p).2

end Stretches

end Descent
