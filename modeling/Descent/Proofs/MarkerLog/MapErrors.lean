import Descent.Proofs.MarkerLog.Move

/-!
# Changing the errors of a log

What is done to markers never depends on the errors they have. So a function may be applied to the errors
of a log before a step or after it, and all else that is known of the markers stays the same.
-/

namespace Descent

/-- The marker with its error changed. -/
def MarkerInfo.mapError (f : SyntaxError → SyntaxError) (info : MarkerInfo) : MarkerInfo :=
  { info with error := info.error.map f }

theorem setStage_mapError (f : SyntaxError → SyntaxError) (ms : Array MarkerInfo) (m : Marker)
    (stage : MarkerStage) :
    setStage (ms.map (·.mapError f)) m stage = (setStage ms m stage).map (·.mapError f) := by
  unfold setStage
  refine map_modify (fun info => ?_) ms m.number
  rfl

theorem Entry.undo_mapError (f : SyntaxError → SyntaxError) (ms : Array MarkerInfo) (e : Entry) :
    e.undo (ms.map (·.mapError f)) = (e.undo ms).map (·.mapError f) := by
  cases e <;> exact setStage_mapError ..

namespace MarkerLog

variable {f : SyntaxError → SyntaxError} (log : MarkerLog) (m : Marker)

/-- The log with the errors of its markers changed. -/
def mapErrors (f : SyntaxError → SyntaxError) (log : MarkerLog) : MarkerLog :=
  { log with markers := log.markers.map (·.mapError f) }

@[simp] theorem mapErrors_id : log.mapErrors id = log := by
  have hinfo (info : MarkerInfo) : info.mapError id = info := by
    simp [MarkerInfo.mapError]
  simp [mapErrors, hinfo]

@[simp] theorem entries_mapErrors : (log.mapErrors f).entries = log.entries := rfl

@[simp] theorem isStarted_mapErrors : (log.mapErrors f).isStarted m = log.isStarted m := rfl

@[simp] theorem fresh_mapErrors : (log.mapErrors f).fresh = log.fresh := by
  simp [fresh, mapErrors]

@[simp] theorem info?_mapErrors : (log.mapErrors f).info? m = (log.info? m).map (·.mapError f) :=
  Array.getElem?_map ..

@[simp] theorem stage?_mapErrors : (log.mapErrors f).stage? m = log.stage? m := by
  simp [stage?, MarkerInfo.mapError, Function.comp_def]

@[simp] theorem isCommitted_mapErrors : (log.mapErrors f).isCommitted m = log.isCommitted m := by
  simp [isCommitted]

@[simp] theorem kind?_mapErrors : (log.mapErrors f).kind? m = log.kind? m := by
  rw [kind?, kind?, info?_mapErrors]
  cases log.info? m <;> rfl

@[simp] theorem start_mapErrors : (log.mapErrors f).start m = log.start m := by
  rw [start, start, info?_mapErrors]
  cases log.info? m <;> rfl

@[simp] theorem stop_mapErrors : (log.mapErrors f).stop m = log.stop m := by
  rw [stop, stop, info?_mapErrors]
  cases log.info? m <;> rfl

@[simp] theorem error?_mapErrors : (log.mapErrors f).error? m = (log.error? m).map f := by
  rw [error?, error?, info?_mapErrors]
  cases log.info? m <;> rfl

@[simp] theorem lastCommitted?_mapErrors :
    (log.mapErrors f).lastCommitted? = log.lastCommitted? := by
  simp [lastCommitted?]

@[simp] theorem lastWidenable?_mapErrors :
    (log.mapErrors f).lastWidenable? = log.lastWidenable? := by
  have hcounts : (log.mapErrors f).counts = log.counts := by
    funext e
    cases e <;> simp [counts]
  simp [lastWidenable?, hcounts]

theorem openAt_mapErrors (position : Nat) :
    (log.mapErrors f).openAt position = (log.fresh, (log.openAt position).2.mapErrors f) := by
  simp only [openAt, fresh_mapErrors, entries_mapErrors]
  simp [mapErrors, MarkerInfo.mapError]

theorem commit_mapErrors (kind : Kind) (error : Option SyntaxError) (position : Nat) :
    (log.mapErrors f).commit m kind (error.map f) position =
      (log.commit m kind error position).mapErrors f := by
  unfold commit
  rw [stage?_mapErrors]
  split
  · simp only [mapErrors, mk.injEq, and_true]
    refine map_modify (fun info => ?_) log.markers m.number
    rfl
  · rfl

theorem drop_mapErrors : (log.mapErrors f).drop m = (log.drop m).mapErrors f := by
  unfold drop
  rw [stage?_mapErrors]
  cases log.stage? m with
  | none => rfl
  | some stage => cases stage <;> simp [mapErrors, setStage_mapError]

theorem unwind_mapErrors (ms : Array MarkerInfo) (entries : List Entry) :
    unwind m (ms.map (·.mapError f)) entries = (unwind m ms entries).mapErrors f := by
  induction entries generalizing ms with
  | nil => rfl
  | cons e entries ih =>
    unfold unwind
    rw [Entry.undo_mapError, ih]
    split <;> rfl

theorem rollback_mapErrors :
    (log.mapErrors f).rollback m = (log.rollback m).map fun x => (x.1, x.2.mapErrors f) := by
  unfold rollback
  rw [info?_mapErrors, isStarted_mapErrors]
  cases log.info? m with
  | none => rfl
  | some info =>
    simp only [Option.map_some]
    split
    · rw [mapErrors, unwind_mapErrors]
      rfl
    · rfl

theorem wrap_mapErrors : (log.mapErrors f).wrap m = (log.fresh, (log.wrap m).2.mapErrors f) := by
  simp only [wrap, fresh_mapErrors, start_mapErrors, entries_mapErrors]
  simp [mapErrors, MarkerInfo.mapError]

end MarkerLog

end Descent
