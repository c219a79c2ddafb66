import Descent.Proofs.Source.Outline

/-!
# Matching delimiters

Among the significant tokens of a stretch each closing delimiter closes the latest opening one that is still
open, and is stray if there is none (`Matching.step`). How the delimiters of a stretch match depends on its
significant tokens only (`Setup.matching_congr`), and an opening one among them is open in the end or
has been closed (`Setup.opening_of_matching`).
-/

namespace Descent

/-- How the delimiters passed so far match. -/
structure Matching where
  /-- The opening ones that are still open, the latest first. -/
  opened : List Nat := []
  /-- The opening ones that have been closed, each with the one that closed it. -/
  pairs : List (Nat × Nat) := []
  /-- The closing ones that had nothing to close. -/
  strays : List Nat := []
  deriving DecidableEq, Repr

namespace Matching

variable {pair : Delimiters} {kind : Option Kind} {m : Matching} {i : Nat}

/-- Passes the token at a position. -/
def step (pair : Delimiters) (i : Nat) (kind : Option Kind) (m : Matching) : Matching :=
  if kind = some pair.opening then { m with opened := i :: m.opened }
  else if kind = some pair.closing then
    match m.opened with
    | [] => { m with strays := i :: m.strays }
    | o :: opened => { m with opened, pairs := (o, i) :: m.pairs }
  else m

theorem step_opening (h : kind = some pair.opening) (m : Matching) (i : Nat) :
    m.step pair i kind = { m with opened := i :: m.opened } :=
  if_pos h

theorem step_other (ho : kind ≠ some pair.opening) (hc : kind ≠ some pair.closing) (m : Matching)
    (i : Nat) : m.step pair i kind = m := by
  rw [step, if_neg ho, if_neg hc]

theorem step_stray (ho : kind ≠ some pair.opening) (hc : kind = some pair.closing)
    (hm : m.opened = []) (i : Nat) : m.step pair i kind = { m with strays := i :: m.strays } := by
  rw [step, if_neg ho, if_pos hc, hm]

theorem step_closing (ho : kind ≠ some pair.opening) (hc : kind = some pair.closing) {o : Nat}
    {opened : List Nat} (hm : m.opened = o :: opened) (i : Nat) :
    m.step pair i kind = { m with opened, pairs := (o, i) :: m.pairs } := by
  rw [step, if_neg ho, if_pos hc, hm]

/-- A token does one of four things. -/
theorem step_cases (pair : Delimiters) (i : Nat) (kind : Option Kind) (m : Matching) :
    (kind = some pair.opening ∧ m.step pair i kind = { m with opened := i :: m.opened }) ∨
      (kind ≠ some pair.opening ∧ kind = some pair.closing ∧ m.opened = [] ∧
        m.step pair i kind = { m with strays := i :: m.strays }) ∨
      (kind ≠ some pair.opening ∧ kind = some pair.closing ∧ ∃ o opened, m.opened = o :: opened ∧
        m.step pair i kind = { m with opened, pairs := (o, i) :: m.pairs }) ∨
      (kind ≠ some pair.opening ∧ kind ≠ some pair.closing ∧ m.step pair i kind = m) := by
  by_cases ho : kind = some pair.opening
  · exact .inl ⟨ho, step_opening ho m i⟩
  by_cases hc : kind = some pair.closing
  · by_cases hm : m.opened = []
    · exact .inr (.inl ⟨ho, hc, hm, step_stray ho hc hm i⟩)
    · obtain ⟨o, opened, hm⟩ := List.exists_cons_of_ne_nil hm
      exact .inr (.inr (.inl ⟨ho, hc, o, opened, hm, step_closing ho hc hm i⟩))
  · exact .inr (.inr (.inr ⟨ho, hc, step_other ho hc m i⟩))

/-- A delimiter that is open stays so or is closed. -/
theorem mem_step {n : Nat} (hi : i ∈ m.opened) :
    i ∈ (m.step pair n kind).opened ∨ (i, n) ∈ (m.step pair n kind).pairs := by
  rcases m.step_cases pair n kind with ⟨-, heq⟩ | ⟨-, -, -, heq⟩ | ⟨-, -, o, opened, hopened, heq⟩ |
    ⟨-, -, heq⟩
  · rw [heq]
    exact .inl (List.mem_cons_of_mem n hi)
  · rw [heq]
    exact .inl hi
  · rw [heq]
    rw [hopened] at hi
    rcases List.mem_cons.1 hi with rfl | hi
    · exact .inr List.mem_cons_self
    · exact .inl hi
  · rw [heq]
    exact .inl hi

theorem pairs_subset_step : m.pairs ⊆ (m.step pair i kind).pairs := by
  rcases m.step_cases pair i kind with ⟨-, heq⟩ | ⟨-, -, -, heq⟩ | ⟨-, -, o, opened, -, heq⟩ |
    ⟨-, -, heq⟩
  · rw [heq]
    exact List.Subset.refl _
  · rw [heq]
    exact List.Subset.refl _
  · rw [heq]
    exact List.subset_cons_self ..
  · rw [heq]
    exact List.Subset.refl _

end Matching

namespace Setup

variable {g : Setup} {pair : Delimiters} {first : List Nat} {i j p q q' : Nat}

/-- The positions of the significant tokens from one position up to another. -/
def significantIn (g : Setup) (p q : Nat) : List Nat :=
  (List.range q).filter fun i => p ≤ i && !g.isTriviaAt i

/-- How the delimiters of a stretch match, if those in front of it that are still open come first. -/
def matching (g : Setup) (pair : Delimiters) (first : List Nat) (p q : Nat) : Matching :=
  (g.significantIn p q).foldl (fun m i => m.step pair i (g.source.kind? i)) { opened := first }

theorem mem_significantIn :
    i ∈ g.significantIn p q ↔ p ≤ i ∧ i < q ∧ g.isTriviaAt i = false := by
  rw [significantIn, List.mem_filter, List.mem_range, Bool.and_eq_true, decide_eq_true_eq,
    Bool.not_eq_true']
  exact and_left_comm

theorem significantIn_self (g : Setup) (p : Nat) : g.significantIn p p = [] := by
  refine List.eq_nil_iff_forall_not_mem.2 fun i hi => ?_
  obtain ⟨hge, hlt, -⟩ := mem_significantIn.1 hi
  omega

theorem significantIn_succ (hp : p ≤ q) (hq : g.isTriviaAt q = false) :
    g.significantIn p (q + 1) = g.significantIn p q ++ [q] := by
  have hone : ([q].filter fun i => p ≤ i && !g.isTriviaAt i) = [q] := by
    rw [List.filter_singleton, hq, decide_eq_true hp]
    rfl
  rw [significantIn, List.range_succ, List.filter_append, hone, significantIn]

theorem significantIn_of_trivia (hle : q ≤ q')
    (h : ∀ i, q ≤ i → i < q' → g.isTriviaAt i = true) :
    g.significantIn p q' = g.significantIn p q := by
  induction q', hle using Nat.le_induction with
  | base => rfl
  | succ q' hle ih =>
    have hnone : ([q'].filter fun i => p ≤ i && !g.isTriviaAt i) = [] := by
      rw [List.filter_singleton, h q' hle (Nat.lt_succ_self q'), Bool.not_true, Bool.and_false]
      rfl
    rw [significantIn, List.range_succ, List.filter_append, hnone, List.append_nil]
    exact ih fun i hge hlt => h i hge (Nat.lt_succ_of_lt hlt)

/-- Positions with the same significant token next have only trivia between them. -/
theorem trivia_of_significant_eq (h : g.significant q = g.significant q') (hge : q ≤ i)
    (hlt : i < q') : g.isTriviaAt i = true := by
  refine (g.significant_spec q).2 i hge ?_
  rw [h]
  exact Nat.lt_of_lt_of_le hlt (Nat.le_add_right ..)

theorem significantIn_congr (h : g.significant q = g.significant q') :
    g.significantIn p q = g.significantIn p q' := by
  rcases Nat.le_total q q' with hle | hle
  · exact (significantIn_of_trivia hle fun i hge hlt => trivia_of_significant_eq h hge hlt).symm
  · exact significantIn_of_trivia hle fun i hge hlt => trivia_of_significant_eq h.symm hge hlt

/-! ## The matching of a stretch -/

theorem matching_self (g : Setup) (pair : Delimiters) (first : List Nat) (p : Nat) :
    g.matching pair first p p = { opened := first } := by
  rw [matching, significantIn_self, List.foldl_nil]

theorem matching_congr (h : g.significant q = g.significant q') :
    g.matching pair first p q = g.matching pair first p q' := by
  rw [matching, significantIn_congr h, matching]

theorem matching_succ (hp : p ≤ q) (hq : g.isTriviaAt q = false) :
    g.matching pair first p (q + 1) =
      (g.matching pair first p q).step pair q (g.source.kind? q) := by
  rw [matching, significantIn_succ hp hq, List.foldl_append, List.foldl_cons, List.foldl_nil, matching]

/-- The next significant token is passed. -/
theorem matching_next (hp : p ≤ g.significant q)
    (h : g.significant q' = g.significant (g.significant q + 1)) :
    g.matching pair first p q' = (g.matching pair first p q).step pair (g.significant q)
      (g.source.kind? (g.significant q)) := by
  have hsame : g.significant q = g.significant (g.significant q) :=
    (significant_of_token (g.significant_spec q).1).symm
  rw [matching_congr h, matching_succ hp (g.significant_spec q).1, matching_congr hsame]

/-- What holds of the matching before the stretch, and is kept by each token, holds of it in the end. -/
theorem matching_induction {motive : Nat → Matching → Prop} (hle : p ≤ q)
    (begin : motive p { opened := first })
    (step : ∀ i m, p ≤ i → i < q → motive i m →
      motive (i + 1) (if g.isTriviaAt i then m else m.step pair i (g.source.kind? i))) :
    motive q (g.matching pair first p q) := by
  induction q, hle using Nat.le_induction with
  | base => rwa [matching_self]
  | succ q hle ih =>
    have hq := step q _ hle (Nat.lt_succ_self q)
      (ih fun i m hge hlt => step i m hge (Nat.lt_succ_of_lt hlt))
    cases htrivia : g.isTriviaAt q with
    | true =>
      rw [htrivia] at hq
      rwa [← matching_congr (significant_of_trivia htrivia)]
    | false =>
      rw [htrivia] at hq
      rwa [matching_succ hle htrivia]

/-- An opening delimiter is open in the end, or else it has been closed behind it. So is one that was open
before the stretch. -/
theorem opening_of_matching (hle : p ≤ q)
    (hi : (i ∈ first ∧ i < p) ∨ i ∈ g.significantIn p q ∧ g.source.kind? i = some pair.opening) :
    i ∈ (g.matching pair first p q).opened ∨
      ∃ j ∈ g.significantIn p q, i < j ∧ (i, j) ∈ (g.matching pair first p q).pairs := by
  refine matching_induction (motive := fun n m =>
    (i ∈ first ∧ i < p) ∨ i ∈ g.significantIn p n ∧ g.source.kind? i = some pair.opening →
      i ∈ m.opened ∨ ∃ j ∈ g.significantIn p n, i < j ∧ (i, j) ∈ m.pairs) hle ?_ ?_ hi
  · rintro (⟨hi, -⟩ | ⟨hi, -⟩)
    · exact .inl hi
    · rw [significantIn_self] at hi
      cases hi
  intro n m hn _ ih hi
  cases htrivia : g.isTriviaAt n with
  | true =>
    rw [significantIn_of_trivia (Nat.le_succ n) fun k hge hlt => by
      rwa [show k = n by omega]] at hi ⊢
    exact ih hi
  | false =>
    rw [significantIn_succ hn htrivia] at hi ⊢
    rw [if_neg Bool.false_ne_true]
    have hcases : ((i ∈ first ∧ i < p) ∨ i ∈ g.significantIn p n ∧
        g.source.kind? i = some pair.opening) ∨ i ∈ [n] ∧ g.source.kind? i = some pair.opening := by
      rwa [or_assoc, ← or_and_right, ← List.mem_append]
    rcases hcases with hpast | ⟨hhere, hkind⟩
    · -- the token at `n` leaves it open, closes it or has nothing to do with it
      have hlt : i < n := by
        rcases hpast with ⟨-, hi⟩ | ⟨hi, -⟩
        · exact Nat.lt_of_lt_of_le hi hn
        · exact (mem_significantIn.1 hi).2.1
      rcases ih hpast with hopen | ⟨j, hj, hij, hmem⟩
      · exact (Matching.mem_step hopen).imp_right fun hmem => ⟨n, by simp, hlt, hmem⟩
      · exact .inr ⟨j, List.mem_append_left _ hj, hij, Matching.pairs_subset_step hmem⟩
    · obtain rfl := List.mem_singleton.1 hhere
      rw [Matching.step_opening hkind]
      exact .inl List.mem_cons_self

end Setup

end Descent
