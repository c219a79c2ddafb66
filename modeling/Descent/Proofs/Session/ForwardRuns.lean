import Descent.Proofs.Session.Ascending

/-!
# Forward runs

A run of marker steps is forward (`Session.IsForward`) if its position stays within the tokens and goes back
only where a rollback takes it, markers are opened at the position, and only those are wrapped that have not
been rolled back. Then the positions of the log ascend up to the current one (`Session.IsForward.ascends`).
-/

namespace Descent

/-- A step that neither goes back nor leaves the tokens, of which there are `size`. -/
def MarkerStep.IsForward (size : Nat) (s : Session) : MarkerStep → Prop
  | seek q => s.position ≤ q ∧ q ≤ size
  | openAt q => q = s.position
  | wrap m => s.log.stage? m ≠ none ∧ s.log.stage? m ≠ some .rolledBack
  | commit .. | drop _ | rollback _ => True

instance (size : Nat) (s : Session) : DecidablePred (MarkerStep.IsForward size s)
  | .seek q => inferInstanceAs (Decidable (s.position ≤ q ∧ q ≤ size))
  | .openAt q => inferInstanceAs (Decidable (q = s.position))
  | .wrap m => inferInstanceAs (Decidable (s.log.stage? m ≠ none ∧ s.log.stage? m ≠ some .rolledBack))
  | .commit .. | .drop _ | .rollback _ => inferInstanceAs (Decidable True)

/-- A marker that has not been rolled back has its start. -/
theorem MarkerLog.Sound.start_mem_of_stage? {log : MarkerLog} {m : Marker} (h : log.Sound)
    (hnone : log.stage? m ≠ none) (hrolledBack : log.stage? m ≠ some .rolledBack) :
    .start m ∈ log.entries := by
  obtain ⟨stage, hstage⟩ := Option.ne_none_iff_exists'.1 hnone
  obtain ⟨info, hi, hs⟩ := Option.map_eq_some_iff.1 hstage
  have hne : info.stage ≠ .rolledBack := fun hr => hrolledBack (by rw [hstage, ← hs, hr])
  have hlife := h.life hi
  refine (mem_history.1 (?_ : .start m ∈ log.history m)).1
  generalize log.history m = entries at hlife
  cases hlife <;> simp at hne ⊢

namespace Session

/-- Steps each of which is forward where the one before has ended. -/
def IsForward (size : Nat) : List MarkerStep → Session → Prop
  | [], _ => True
  | step :: steps, s => step.IsForward size s ∧ IsForward size steps (step.run s)

instance decidableIsForward (size : Nat) : (steps : List MarkerStep) → (s : Session) →
    Decidable (IsForward size steps s)
  | [], _ => inferInstanceAs (Decidable True)
  | step :: steps, s =>
    have := decidableIsForward size steps (step.run s)
    inferInstanceAs (Decidable (step.IsForward size s ∧ IsForward size steps (step.run s)))

variable {s : Session} {size : Nat}

theorem ascends_step {step : MarkerStep} (h : step.IsForward size s) (hs : s.log.Sound)
    (hascends : s.Ascends) : (step.run s).Ascends := by
  cases step with
  | seek q => exact hascends.mono h.1
  | openAt q =>
    obtain rfl : q = s.position := h
    exact MarkerLog.Ascends.openAt hascends hs (Nat.le_refl _)
  | commit m kind error => exact ascends_commit hascends hs m kind error
  | drop m => exact ascends_drop hascends m
  | wrap m =>
    rw [MarkerStep.run, Ascends, log_wrap, position_wrap]
    exact MarkerLog.Ascends.wrap hascends hs (hs.start_mem_of_stage? h.1 h.2)
  | rollback m => exact ascends_rollback hascends m

theorem position_step_le {step : MarkerStep} (h : step.IsForward size s) (hascends : s.Ascends)
    (hsize : s.position ≤ size) : (step.run s).position ≤ size := by
  cases step with
  | seek q => exact h.2
  | openAt q => exact hsize
  | commit m kind error => rwa [MarkerStep.run, position_commit]
  | drop m => exact hsize
  | wrap m => rwa [MarkerStep.run, position_wrap]
  | rollback m =>
    rw [MarkerStep.run, Session.rollback]
    split
    · next q log' hr =>
      obtain ⟨hm, ⟨info, hi, rfl⟩, -⟩ := MarkerLog.rollback_eq_some_iff.1 hr
      have hle := MarkerLog.Ascends.start_le hascends hm
      simp only [MarkerLog.start, hi, Option.map_some, Option.getD_some] at hle
      exact Nat.le_trans hle hsize
    · exact hsize

theorem IsForward.ascends {steps : List MarkerStep} (h : IsForward size steps s) (hs : s.log.Sound)
    (hascends : s.Ascends) (hsize : s.position ≤ size) :
    (s.runSteps steps).Ascends ∧ (s.runSteps steps).position ≤ size := by
  induction steps generalizing s with
  | nil => exact ⟨hascends, hsize⟩
  | cons step steps ih =>
    exact ih h.2 (hs.step step) (ascends_step h.1 hs hascends) (position_step_le h.1 hascends hsize)

end Session

end Descent
