import Descent.Proofs.Session.SkipAll
import Descent.Proofs.Session.Turns
import Descent.Proofs.Source.Matching

/-!
# How deep skipping is

While tokens are skipped, the depth is the number of opening delimiters that are still open less the
number of closing ones that had nothing to close (`Session.Deep`). Where skipping stops short of the last
error it is not positive, so no more regions are open than there were stray closing delimiters
(`Session.skipRun_length_opened_le`): each region that was entered has been left if there was none.
-/

namespace Descent

/-- The regions still open less the strays. -/
def Matching.depth (m : Matching) : Int := m.opened.length - m.strays.length

theorem Matching.depth_step {g : Setup} {pair : Delimiters}
    (hpair : g.language.delimiters.head? = some pair) (i : Nat) (kind : Option Kind) (m : Matching) :
    (m.step pair i kind).depth = m.depth + Session.depthStep g kind := by
  rw [Session.depthStep, hpair, Matching.depth, Matching.depth]
  dsimp only
  rcases m.step_cases pair i kind with ⟨ho, heq⟩ | ⟨ho, hc, -, heq⟩ |
    ⟨ho, hc, o, opened, hopened, heq⟩ | ⟨ho, hc, heq⟩
  · rw [heq, if_pos ho]
    simp only [List.length_cons]
    omega
  · rw [heq, if_neg ho, if_pos hc]
    simp only [List.length_cons]
    omega
  · rw [heq, if_neg ho, if_pos hc, hopened]
    simp only [List.length_cons]
    omega
  · rw [heq, if_neg ho, if_neg hc, Int.add_zero]

/-- The rule looks at what comes next, but does not step over it. -/
def Runner.StaysAt (g : Setup) (run : Runner) (rule : RuleRef) (level : Nat) : Prop :=
  ∀ s b s', run rule level s = some (b, s') → g.significant s'.position = g.significant s.position

namespace Session

variable {g : Setup} {run : Runner} {pair : Delimiters} {s s' : Session} {eatMore : RuleRef}
  {name : String} {level lastError rounds p : Nat} {b more : Bool}

/-- A step from a token leads right behind it, else it leads nowhere. -/
theorem position_stepOver (g : Setup) (s : Session) :
    (s.stepOver g).2.position = g.significant s.position + 1 ∨
      (s.stepOver g).2.position = g.significant s.position := by
  unfold stepOver
  dsimp only
  split
  · exact .inr rfl
  · exact .inl rfl

/-- Since position `p` skipping has come to the depth that the delimiters on the way tell. -/
structure Deep (g : Setup) (pair : Delimiters) (p : Nat) (x : Bool × Int × Session) : Prop where
  onward : p ≤ g.significant x.2.2.position
  depth : x.2.1 = (g.matching pair [] p x.2.2.position).depth

section
variable (hpair : g.language.delimiters.head? = some pair) (hadvancer : g.advancer = .advance)
  (hrun : run.Standard g) (heat : run.StaysAt g eatMore level)
include hpair hadvancer hrun heat

/-- Each round keeps the depth right. Where the loop ends short of the last error without failing, the
depth is not positive. -/
theorem Deep.skipTurn {x : Bool × Int × Session} {r : Turn (Bool × Int × Session) (Bool × Session)}
    (hx : Deep g pair p x) (h : skipTurn g run eatMore name level lastError x = some r) :
    r.Holds (Deep g pair p)
      (fun z => z.2.position < lastError → (g.matching pair [] p z.2.position).depth ≤ 0)
      fun z => z.2.isAborted = true := by
  obtain ⟨more, depth, s⟩ := x
  have hdepth : depth = (g.matching pair [] p s.position).depth := hx.depth
  rw [Session.skipTurn, hadvancer] at h
  split at h
  · split at h
    · next hpast =>
      obtain rfl := Option.some.inj h
      intro hshort
      exact absurd hpast (Nat.not_le_of_lt hshort)
    · rw [hrun.advance, Option.bind_some] at h
      split at h
      · obtain rfl := Option.some.inj h
        exact isAborted_abort ..
      · next hmoved =>
        obtain ⟨⟨again, t⟩, ht, h⟩ := Option.bind_eq_some_iff.1 h
        obtain rfl := Option.some.inj h
        have hover : ((s.toSignificant g).stepOver g).2.position = g.significant s.position + 1 :=
          (significant_significant g s.position) ▸
            (position_stepOver g (s.toSignificant g)).resolve_right fun heq =>
              hmoved (heq.trans (significant_significant g s.position))
        have hstay : g.significant t.position = g.significant (g.significant s.position + 1) :=
          (heat _ _ _ ht).trans (congrArg g.significant hover)
        have hnext : g.matching pair [] p t.position = (g.matching pair [] p s.position).step pair
            (g.significant s.position) (g.source.kind? (g.significant s.position)) :=
          Setup.matching_next hx.onward hstay
        refine ⟨?_, ?_⟩
        · show p ≤ g.significant t.position
          rw [hstay]
          have hle := g.le_significant (g.significant s.position + 1)
          have honward : p ≤ g.significant s.position := hx.onward
          omega
        · show _ = (g.matching pair [] p t.position).depth
          rw [hnext, Matching.depth_step hpair, ← hdepth]
          rfl
  · next hstop =>
    obtain rfl := Option.some.inj h
    intro hshort
    have hnot : ¬0 < depth := by
      intro hpos
      refine hstop ?_
      rw [decide_eq_true hpos, Bool.or_true, Bool.true_and]
      exact decide_eq_true hshort
    rw [← hdepth]
    exact Int.not_lt.1 hnot

/-- Where skipping stops short of the last error, no more regions are open than stray closing delimiters
were skipped. If there was none, each opening delimiter skipped has been closed. -/
theorem skipRun_length_opened_le
    (h : s.skipRun g run eatMore name level lastError rounds more 0 = some (b, s'))
    (hshort : s'.position < lastError) (hfatal : s'.isAborted = false) :
    (g.matching pair [] s.position s'.position).opened.length ≤
        (g.matching pair [] s.position s'.position).strays.length ∧
      ((g.matching pair [] s.position s'.position).strays = [] →
        ∀ i ∈ g.significantIn s.position s'.position, g.source.kind? i = some pair.opening →
          ∃ j, i < j ∧ j < s'.position ∧
            (i, j) ∈ (g.matching pair [] s.position s'.position).pairs) := by
  have hbegin : Deep g pair s.position (more, 0, s) :=
    ⟨g.le_significant s.position, by rw [Setup.matching_self]; rfl⟩
  have hend := goRound_of_holds
    (J := fun z : Bool × Session => z.2.isAborted = false → z.2.position < lastError →
      (g.matching pair [] s.position z.2.position).depth ≤ 0)
    (fun x r hx hr => (hx.skipTurn hpair hadvancer hrun heat hr).mono (fun _ h => h) (fun _ h _ => h)
      fun z hz hnot => absurd (hnot.symm.trans hz) Bool.false_ne_true)
    hbegin (skipRun_eq_goRound more 0 s ▸ h) hfatal hshort
  have hle : (g.matching pair [] s.position s'.position).opened.length ≤
      (g.matching pair [] s.position s'.position).strays.length := by
    rw [Matching.depth] at hend
    dsimp only at hend
    omega
  refine ⟨hle, fun hnone i hi hkind => ?_⟩
  obtain ⟨hge, hlt, -⟩ := Setup.mem_significantIn.1 hi
  have hopening : (i ∈ [] ∧ i < s.position) ∨ i ∈ g.significantIn s.position s'.position ∧
      g.source.kind? i = some pair.opening := .inr ⟨hi, hkind⟩
  rcases Setup.opening_of_matching (by omega) hopening with hopen | ⟨j, hj, hij, hmem⟩
  · rw [hnone, List.length_nil, Nat.le_zero, List.length_eq_zero_iff] at hle
    rw [hle] at hopen
    cases hopen
  · exact ⟨j, hij, (Setup.mem_significantIn.1 hj).2.1, hmem⟩

end

/-- Tokens of one character each, with round brackets for delimiters. -/
def inBrackets (text : String) (kinds : List UInt16) (grammar : Grammar) : Setup where
  source := { text, tokens := kinds.zipIdx.map fun (kind, i) => ⟨⟨kind⟩, ⟨i, i + 1⟩⟩ }
  language := { LanguageTable.toBareLanguage {} with delimiters := [⟨⟨8⟩, ⟨9⟩⟩] }
  limits := default
  grammar

/-- Skipping goes on up to a word. -/
def upToWord (text : String) (kinds : List UInt16) : Setup :=
  inBrackets text kinds [("more", .not (.prim (.peek ⟨3⟩)))]

/-- Skipping by its rules, from the start up to the last error. -/
def skipUpToWord (g : Setup) (lastError : Nat) : Option (Bool × Session) :=
  (start default none).skipRun g (Grammar.runRef g (Grammar.eval g 6)) (.named "more") "section" 1 lastError
    (lastError + 1) true 0

theorem staysAt_upToWord (text : String) (kinds : List UInt16) (level : Nat) :
    (Grammar.runRef (upToWord text kinds) (Grammar.eval (upToWord text kinds) 6)).StaysAt
      (upToWord text kinds) (.named "more") level := by
  intro s b s' h
  obtain ⟨-, rfl⟩ := Prod.mk.inj (Option.some.inj h)
  show (upToWord text kinds).significant (s.peekAny (upToWord text kinds) [⟨3⟩]).2.position = _
  unfold peekAny
  split
  · rfl
  · exact significant_significant _ _

/-- The word in brackets does not end the skip, so the region is left. -/
theorem skipRun_length_opened_le_nested :
    let g := upToWord "(b)c1" [8, 3, 9, 3, 4]
    ∃ s', skipUpToWord g 4 = some (false, s') ∧ s'.position = 3 ∧
      ∃ j, 0 < j ∧ j < 3 ∧ (0, j) ∈ (g.matching ⟨⟨8⟩, ⟨9⟩⟩ [] 0 3).pairs := by
  intro g
  have heval : (skipUpToWord g 4).map (fun x => (x.1, x.2.position, x.2.isAborted)) =
      some (false, 3, false) := by decide +kernel
  obtain ⟨⟨b, s'⟩, hs', heq⟩ := Option.map_eq_some_iff.1 heval
  obtain ⟨rfl, hposition, hfatal⟩ : b = false ∧ s'.position = 3 ∧ s'.isAborted = false := by
    simpa using heq
  have hpair : g.language.delimiters.head? = some ⟨⟨8⟩, ⟨9⟩⟩ := rfl
  have hall := skipRun_length_opened_le hpair rfl (Grammar.standard_runRef ..) (staysAt_upToWord _ _ _)
    hs' (by rw [hposition]; decide) hfatal
  rw [hposition] at hall
  exact ⟨s', hs', hposition, hall.2 (by decide +kernel) 0 (by decide +kernel) (by decide +kernel)⟩

/-- A stray closing delimiter makes up for the opening one behind it, and the skip ends in the region. -/
theorem skipRun_enters_unmatched :
    let g := upToWord ")(a)b1" [9, 8, 3, 9, 3, 4]
    ∃ s', skipUpToWord g 5 = some (false, s') ∧ s'.position < 5 ∧ s'.isAborted = false ∧
      1 < s'.position ∧ g.source.kind? 1 = some ⟨8⟩ ∧
      ∀ j, 1 < j → j < s'.position → g.source.kind? j ≠ some ⟨9⟩ := by
  intro g
  have heval : (skipUpToWord g 5).map (fun x => (x.1, x.2.position, x.2.isAborted)) =
      some (false, 2, false) := by decide +kernel
  obtain ⟨⟨b, s'⟩, hs', heq⟩ := Option.map_eq_some_iff.1 heval
  obtain ⟨rfl, hposition, hfatal⟩ : b = false ∧ s'.position = 2 ∧ s'.isAborted = false := by
    simpa using heq
  exact ⟨s', hs', by omega, hfatal, by omega, by decide +kernel, fun j hj hlt => by omega⟩

end Session

end Descent
