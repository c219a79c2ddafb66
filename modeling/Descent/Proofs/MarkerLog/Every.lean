import Descent.Proofs.MarkerLog.History

/-!
# Properties of all markers

A property of the start and the error of a marker that all markers have is one that they all keep: they
go through stages, but none of them starts elsewhere later on, and an error comes in by a commitment only
(`MarkerLog.Every`).
-/

namespace Descent

namespace MarkerLog

/-- Every marker has a property of its start and its error, whatever stage it is at. -/
def Every (P : Nat → Option SyntaxError → Prop) (log : MarkerLog) : Prop :=
  ∀ m info, log.info? m = some info → P info.start info.error

namespace Every

variable {P Q : Nat → Option SyntaxError → Prop} {log : MarkerLog}

theorem empty : Every P {} := fun m info h => by simp [info?] at h

theorem mono (h : log.Every P) (hPQ : ∀ n e, P n e → Q n e) : log.Every Q :=
  fun m info hi => hPQ _ _ (h m info hi)

theorem start (h : log.Every P) (hnone : ∀ n e, P n e → P n none) (hzero : P 0 none)
    (m : Marker) : P (log.start m) none := by
  unfold MarkerLog.start
  cases hi : log.info? m with
  | none => exact hzero
  | some info => exact hnone _ _ (h m info hi)

theorem error (h : log.Every P) {m : Marker} {e : SyntaxError} (he : log.error? m = some e) :
    ∃ n, P n (some e) := by
  obtain ⟨info, hi, herror⟩ := Option.bind_eq_some_iff.1 he
  exact ⟨info.start, herror ▸ h m info hi⟩

/-- A marker is added without an error. -/
theorem push (h : log.Every P) {p q : Nat} (hp : P p none) {entries : List Entry} :
    Every P { markers := log.markers.push { start := p, stop := q }, entries } := by
  intro m info hi
  simp only [info?, Array.getElem?_push] at hi
  split at hi
  · cases hi
    exact hp
  · exact h m info hi

theorem openAt (h : log.Every P) {p : Nat} (hp : P p none) : (log.openAt p).2.Every P := h.push hp

theorem wrap (h : log.Every P) {m : Marker} (hm : P (log.start m) none) :
    (log.wrap m).2.Every P := h.push hm

theorem commit (h : log.Every P) {error : Option SyntaxError} (herror : ∀ n e, P n e → P n error)
    (m : Marker) (kind : Kind) (p : Nat) : (log.commit m kind error p).Every P := by
  unfold MarkerLog.commit
  split
  · intro x info hi
    simp only [info?, Array.getElem?_modify] at hi
    split at hi
    · obtain ⟨old, hold, rfl⟩ := Option.map_eq_some_iff.1 hi
      exact herror _ _ (h x old hold)
    · exact h x info hi
  · exact h

theorem setStage {ms : Array MarkerInfo} {es : List Entry} (h : Every P ⟨ms, es⟩) (m : Marker)
    (stage : MarkerStage) (es' : List Entry) : Every P ⟨Descent.setStage ms m stage, es'⟩ := by
  intro x info hi
  simp only [info?, setStage_get] at hi
  split at hi
  · obtain ⟨old, hold, rfl⟩ := Option.map_eq_some_iff.1 hi
    exact h x old hold
  · exact h x info hi

theorem drop (h : log.Every P) (m : Marker) : (log.drop m).Every P := by
  unfold MarkerLog.drop
  split
  · exact setStage h m _ _
  · exact setStage h m _ _
  · exact h

theorem unwind {ms : Array MarkerInfo} {es : List Entry} (h : Every P ⟨ms, es⟩) (m : Marker) :
    (MarkerLog.unwind m ms es).Every P := by
  induction es generalizing ms with
  | nil => exact h
  | cons e es ih =>
    rw [MarkerLog.unwind, Entry.undo_eq]
    split
    · exact setStage h _ _ _
    · exact ih (setStage h _ _ _)

/-- Rolling back goes to the start of a marker. -/
theorem rollback (h : log.Every P) {m : Marker} {p : Nat} {log' : MarkerLog}
    (hr : log.rollback m = some (p, log')) : log'.Every P ∧ ∃ e, P p e := by
  obtain ⟨-, ⟨info, hi, rfl⟩, rfl⟩ := rollback_eq_some_iff.1 hr
  exact ⟨unwind h m, info.error, h m info hi⟩

end Every

end MarkerLog

end Descent
