import Descent.Proofs.Session.Calm
import Descent.Proofs.Source.Outline
import Descent.Proofs.Tree.Outline

/-!
# Significant tokens

The significant tokens before a position tell how far a parse has come (`Setup.tokensBefore`). They do not
change where only trivia are passed, and they are the same for positions that are aligned.
-/

namespace Descent

/-- Whether a token is no trivia. -/
def Language.isSignificant (l : Language) (t : Token) : Bool := !l.isTrivia t.kind

namespace Setup

variable {g : Setup} {i n n' p q : Nat}

/-- The significant tokens before a position. -/
def tokensBefore (g : Setup) (p : Nat) : List Token :=
  (g.source.tokens.take p).filter g.language.isSignificant

/-- The number of significant tokens before a position. -/
def countBefore (g : Setup) (p : Nat) : Nat := (g.tokensBefore p).length

theorem isTriviaAt_eq {t : Token} (h : g.source.tokens[i]? = some t) :
    g.isTriviaAt i = !g.language.isSignificant t := by
  simp [isTriviaAt, Language.isTrivia?, Source.kind?, h, Language.isSignificant]

theorem tokensBefore_of_le (h : p ≤ q) : g.tokensBefore q =
    g.tokensBefore p ++ (g.source.between p q).filter g.language.isSignificant := by
  have hsum : q = p + (q - p) := by omega
  rw [tokensBefore, hsum, List.take_add, List.filter_append, ← hsum]
  rfl

theorem countBefore_mono (h : p ≤ q) : g.countBefore p ≤ g.countBefore q := by
  rw [countBefore, countBefore, tokensBefore_of_le h, List.length_append]
  omega

theorem lt_of_countBefore_lt (h : g.countBefore p < g.countBefore q) : p < q := by
  by_contra hle
  have hmono := g.countBefore_mono (Nat.le_of_not_lt hle)
  omega

/-- No significant token is among those between two positions that have trivia only between them. -/
theorem filter_between_eq_nil
    (h : ∀ i < g.source.size, p ≤ i → i < q → g.isTriviaAt i = true) :
    (g.source.between p q).filter g.language.isSignificant = [] := by
  refine List.filter_eq_nil_iff.2 fun t ht hs => ?_
  obtain ⟨j, hj⟩ := List.mem_iff_getElem?.1 ht
  rw [Source.between, List.getElem?_take] at hj
  split at hj
  · next hlt =>
    rw [List.getElem?_drop] at hj
    have hsize : p + j < g.source.size := (List.getElem?_eq_some_iff.1 hj).1
    have htrivia := h (p + j) hsize (by omega) (by omega)
    rw [isTriviaAt_eq hj, hs] at htrivia
    cases htrivia
  · cases hj

theorem tokensBefore_significant (g : Setup) (p : Nat) :
    g.tokensBefore (g.significant p) = g.tokensBefore p := by
  have htrivia := (g.significant_spec p).2
  rw [tokensBefore_of_le (g.le_significant p), filter_between_eq_nil, List.append_nil]
  intro i _ hge hlt
  exact htrivia i hge hlt

theorem countBefore_significant (g : Setup) (p : Nat) :
    g.countBefore (g.significant p) = g.countBefore p := by
  rw [countBefore, tokensBefore_significant, countBefore]

theorem tokensBefore_of_aligned (h : Aligned g.source g.isTriviaAt n q) :
    g.tokensBefore n = g.tokensBefore q := by
  have htrivia (i : Nat) (hi : i < g.source.size) (hne : ¬(i < n ↔ i < q)) :
      g.isTriviaAt i = true := by
    by_contra hs
    exact hne (h.iff i hi (Bool.eq_false_iff.2 hs))
  rcases Nat.le_total n q with hle | hle
  · rw [tokensBefore_of_le hle, filter_between_eq_nil, List.append_nil]
    exact fun i hi hge hlt => htrivia i hi (by omega)
  · rw [tokensBefore_of_le hle, filter_between_eq_nil, List.append_nil]
    exact fun i hi hge hlt => htrivia i hi (by omega)

/-- Between positions that are aligned there are as many significant tokens. -/
theorem tokensBefore_between (h : Aligned g.source g.isTriviaAt n p)
    (h' : Aligned g.source g.isTriviaAt n' q) (hle : n ≤ n') :
    g.tokensBefore q =
      g.tokensBefore p ++ (g.source.between n n').filter g.language.isSignificant := by
  rw [← tokensBefore_of_aligned h, ← tokensBefore_of_aligned h', tokensBefore_of_le hle]

end Setup

end Descent
