import Descent.Session
import Descent.Proofs.MarkerLog.History

/-!
# Runs of marker steps

What a grammar can do to the markers of a session: open one anywhere, commit, drop or wrap any, roll
back to any, and move the position in between. Markers need not belong together, nor even to the
session. A log is `Reachable` if such a run leaves it behind; then it is sound
(`MarkerLog.Reachable.sound`).
-/

namespace Descent

/-- A step that changes the markers of a session or its position. -/
inductive MarkerStep where
  | seek (position : Nat)
  | openAt (position : Nat)
  | commit (m : Marker) (kind : Kind) (error : Option SyntaxError)
  | drop (m : Marker)
  | wrap (m : Marker)
  | rollback (m : Marker)

/-- Does a step. -/
def MarkerStep.run (s : Session) : MarkerStep → Session
  | seek position => { s with position }
  | openAt position => { s with log := (s.log.openAt position).2 }
  | commit m kind error => s.commit m kind error
  | drop m => s.drop m
  | wrap m => (s.wrap m).2
  | rollback m => s.rollback m

namespace Session

/-- Does steps one after another. -/
def runSteps (steps : List MarkerStep) (s : Session) : Session := steps.foldl MarkerStep.run s

@[simp] theorem log_commit (m : Marker) (kind : Kind) (error : Option SyntaxError) (s : Session) :
    (s.commit m kind error).log = s.log.commit m kind error s.position := by
  unfold commit
  split <;> rfl

@[simp] theorem log_drop (m : Marker) (s : Session) : (s.drop m).log = s.log.drop m := rfl

@[simp] theorem log_wrap (m : Marker) (s : Session) : (s.wrap m).2.log = (s.log.wrap m).2 := by
  simp only [wrap]
  split <;> rfl

/-- Rolling back does nothing if the marker is gone. -/
theorem log_rollback (m : Marker) (s : Session) :
    (s.rollback m).log = s.log ∨ ∃ p, s.log.rollback m = some (p, (s.rollback m).log) := by
  unfold rollback
  split
  · next h => exact .inr ⟨_, h⟩
  · exact .inl rfl

/-- Markers are allocated and never given back. -/
theorem size_markers_le_step (s : Session) (step : MarkerStep) :
    s.log.markers.size ≤ (step.run s).log.markers.size := by
  cases step with
  | seek p => exact Nat.le_refl _
  | openAt p => simp [MarkerStep.run]
  | commit m kind error => simp [MarkerStep.run]
  | drop m => simp [MarkerStep.run]
  | wrap m => simp [MarkerStep.run]
  | rollback m =>
    simp only [MarkerStep.run]
    refine Nat.le_of_eq ?_
    rcases s.log_rollback m with he | ⟨p, he⟩
    · rw [he]
    · rw [← (MarkerLog.rollback_eq_some_iff.1 he).2.2, MarkerLog.size_unwind]

end Session

namespace MarkerLog

/-- The log was left behind by some run of marker steps. -/
def Reachable (log : MarkerLog) : Prop := ∃ steps, (Session.runSteps steps {}).log = log

theorem Sound.step {s : Session} (h : s.log.Sound) (step : MarkerStep) :
    (step.run s).log.Sound := by
  cases step with
  | seek p => exact h
  | openAt p => exact h.openAt p
  | commit m kind error => simpa [MarkerStep.run] using h.commit m kind error _
  | drop m => simpa [MarkerStep.run] using h.drop m
  | wrap m => simpa [MarkerStep.run] using h.wrap m
  | rollback m =>
    rcases s.log_rollback m with he | ⟨p, he⟩
    · simpa [MarkerStep.run, he] using h
    · exact h.rollback he

theorem Sound.runSteps {s : Session} (h : s.log.Sound) (steps : List MarkerStep) :
    (s.runSteps steps).log.Sound := by
  induction steps generalizing s with
  | nil => exact h
  | cons step steps ih => exact ih (h.step step)

theorem Reachable.sound {log : MarkerLog} (h : log.Reachable) : log.Sound := by
  obtain ⟨steps, rfl⟩ := h
  exact Sound.empty.runSteps steps

end MarkerLog

end Descent
