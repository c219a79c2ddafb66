import Descent.Proofs.Session.Calm
import Descent.Proofs.Session.SkipAll

/-!
# Where tests look

A test goes to the next significant token before it looks, and records what it looks for there if tests are
recorded. That changes nothing else that a later test could tell (`Session.seeks_expect`).
-/

namespace Descent.Session

variable {g : Setup} {s s' t : Session}

/-- From `s` to `s'` a test has gone to where it looks. -/
structure Seeks (g : Setup) (s s' : Session) : Prop where
  position : s'.position = g.significant s.position
  log : s'.log = s.log
  lookahead : s'.lookahead = s.lookahead
  quiet : s'.quiet = s.quiet
  aborted : s'.aborted = s.aborted
  completion : s'.completion.isSome = s.completion.isSome

/-- The attempts after a test that looks for a target. -/
def attemptsFor (g : Setup) (target : Target) (s : Session) : Attempts :=
  if s.records g then s.attempts.push s.lookahead.positive ⟨g.significant s.position, target⟩ else s.attempts

namespace Seeks

theorem toSignificant (g : Setup) (s : Session) : Seeks g s (s.toSignificant g) :=
  ⟨rfl, rfl, rfl, rfl, rfl, rfl⟩

theorem trans (h : Seeks g s s') (h' : Seeks g s' t) : Seeks g s t :=
  ⟨by rw [h'.position, h.position, significant_significant], h'.log.trans h.log, h'.lookahead.trans h.lookahead,
    h'.quiet.trans h.quiet, h'.aborted.trans h.aborted, h'.completion.trans h.completion⟩

theorem isAborted (h : Seeks g s s') : s'.isAborted = s.isAborted := by
  rw [Session.isAborted, h.aborted, Session.isAborted]

theorem records (h : Seeks g s s') : s'.records g = s.records g := by
  rw [Session.records, h.quiet, h.lookahead, Session.records]

theorem recordAttempt (h : Seeks g s s') (position : Nat) (target : Target) :
    Seeks g s (s'.recordAttempt position target) := by
  unfold Session.recordAttempt
  dsimp only
  split
  · exact { h with }
  · exact { h with }

theorem offerIfPositive (h : Seeks g s s') (text : String) : Seeks g s (s'.offerIfPositive g text) := by
  unfold Session.offerIfPositive Session.offer
  split
  · split
    · exact h
    · next hc =>
      refine { h.trans (.toSignificant g s') with completion := ?_ }
      rw [← h.completion, hc]
      rfl
  · exact h

theorem expect (g : Setup) (target : Target) (s : Session) : Seeks g s (s.expect g target) := by
  unfold Session.expect
  dsimp only
  split
  · exact (((toSignificant g s).trans (.toSignificant g _)).recordAttempt _ target).offerIfPositive _
  · exact .toSignificant g s

end Seeks

theorem attempts_offerIfPositive (g : Setup) (text : String) (s : Session) :
    (s.offerIfPositive g text).attempts = s.attempts := by
  unfold offerIfPositive offer
  split
  · split <;> rfl
  · rfl

theorem attempts_recordAttempt (position : Nat) (target : Target) (s : Session) :
    (s.recordAttempt position target).attempts = s.attempts.push s.lookahead.positive ⟨position, target⟩ := by
  unfold recordAttempt
  dsimp only
  split <;> rfl

theorem attempts_expect (g : Setup) (target : Target) (s : Session) :
    (s.expect g target).attempts = s.attemptsFor g target := by
  unfold expect attemptsFor
  dsimp only
  rw [(Seeks.toSignificant g s).records]
  split
  · rw [announce, toSignificant_toSignificant, attempts_offerIfPositive, attempts_recordAttempt]
    rfl
  · rfl

end Descent.Session
