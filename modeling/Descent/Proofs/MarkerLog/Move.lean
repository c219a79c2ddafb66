import Descent.MarkerLog
import Mathlib.Order.MinMax

/-!
# Moving a log

A log may be moved to other positions. What is done to markers depends on positions in two ways
only: which of two is the later one, and that a marker that is not there starts at the first
position. So with a monotone function that keeps the first position it makes no difference whether
a log is moved before or after a step.
-/

namespace Descent

/-- The marker with its positions moved. -/
def MarkerInfo.move (f : Nat → Nat) (info : MarkerInfo) : MarkerInfo :=
  { info with start := f info.start, stop := f info.stop }

theorem map_modify {α β : Type} {move : α → β} {change : α → α} {change' : β → β}
    (h : ∀ x, change' (move x) = move (change x)) (xs : Array α) (i : Nat) :
    (xs.map move).modify i change' = (xs.modify i change).map move := by
  refine Array.ext (by simp) fun j _ _ => ?_
  rw [Array.getElem_modify, Array.getElem_map, Array.getElem_map, Array.getElem_modify]
  split
  · exact h _
  · rfl

theorem setStage_move (f : Nat → Nat) (ms : Array MarkerInfo) (m : Marker) (stage : MarkerStage) :
    setStage (ms.map (·.move f)) m stage = (setStage ms m stage).map (·.move f) := by
  unfold setStage
  refine map_modify (fun info => ?_) ms m.number
  rfl

theorem Entry.undo_move (f : Nat → Nat) (ms : Array MarkerInfo) (e : Entry) :
    e.undo (ms.map (·.move f)) = (e.undo ms).map (·.move f) := by
  cases e <;> exact setStage_move ..

namespace MarkerLog

variable {f : Nat → Nat} (log : MarkerLog) (m : Marker)

/-- The log with the positions of its markers moved. -/
def move (f : Nat → Nat) (log : MarkerLog) : MarkerLog :=
  { log with markers := log.markers.map (·.move f) }

@[simp] theorem entries_move : (log.move f).entries = log.entries := rfl

@[simp] theorem isStarted_move : (log.move f).isStarted m = log.isStarted m := rfl

@[simp] theorem fresh_move : (log.move f).fresh = log.fresh := by
  simp [fresh, move]

@[simp] theorem info?_move : (log.move f).info? m = (log.info? m).map (·.move f) :=
  Array.getElem?_map ..

@[simp] theorem stage?_move : (log.move f).stage? m = log.stage? m := by
  simp [stage?, MarkerInfo.move, Function.comp_def]

@[simp] theorem isCommitted_move : (log.move f).isCommitted m = log.isCommitted m := by
  simp [isCommitted]

@[simp] theorem kind?_move : (log.move f).kind? m = log.kind? m := by
  rw [kind?, kind?, info?_move]
  cases log.info? m <;> rfl

@[simp] theorem error?_move : (log.move f).error? m = log.error? m := by
  rw [error?, error?, info?_move]
  cases log.info? m <;> rfl

@[simp] theorem lastCommitted?_move : (log.move f).lastCommitted? = log.lastCommitted? := by
  simp [lastCommitted?]

@[simp] theorem lastWidenable?_move : (log.move f).lastWidenable? = log.lastWidenable? := by
  have hcounts : (log.move f).counts = log.counts := by
    funext e
    cases e <;> simp [counts]
  simp [lastWidenable?, hcounts]

theorem start_move (hzero : f 0 = 0) : (log.move f).start m = f (log.start m) := by
  simp only [start, info?_move]
  cases log.info? m with
  | none => exact hzero.symm
  | some info => rfl

theorem stop_move (hzero : f 0 = 0) : (log.move f).stop m = f (log.stop m) := by
  simp only [stop, info?_move]
  cases log.info? m with
  | none => exact hzero.symm
  | some info => rfl

theorem openAt_move (position : Nat) :
    (log.move f).openAt (f position) = (log.fresh, (log.openAt position).2.move f) := by
  simp only [openAt, fresh_move, entries_move]
  simp [move, MarkerInfo.move]

theorem commit_move (hf : Monotone f) (kind : Kind) (error : Option SyntaxError) (position : Nat) :
    (log.move f).commit m kind error (f position) = (log.commit m kind error position).move f := by
  unfold commit
  rw [stage?_move]
  split
  · simp only [move, mk.injEq, and_true]
    refine map_modify (fun info => ?_) log.markers m.number
    simp only [MarkerInfo.move, hf.map_max]
  · rfl

theorem drop_move : (log.move f).drop m = (log.drop m).move f := by
  unfold drop
  rw [stage?_move]
  cases log.stage? m with
  | none => rfl
  | some stage => cases stage <;> simp [move, setStage_move]

theorem unwind_move (ms : Array MarkerInfo) (entries : List Entry) :
    unwind m (ms.map (·.move f)) entries = (unwind m ms entries).move f := by
  induction entries generalizing ms with
  | nil => rfl
  | cons e entries ih =>
    unfold unwind
    rw [Entry.undo_move, ih]
    split <;> rfl

theorem rollback_move :
    (log.move f).rollback m = (log.rollback m).map fun x => (f x.1, x.2.move f) := by
  unfold rollback
  rw [info?_move, isStarted_move]
  cases log.info? m with
  | none => rfl
  | some info =>
    simp only [Option.map_some]
    split
    · rw [move, unwind_move]
      rfl
    · rfl

theorem wrap_move (hzero : f 0 = 0) :
    (log.move f).wrap m = (log.fresh, (log.wrap m).2.move f) := by
  simp only [wrap, fresh_move, start_move log m hzero, entries_move]
  simp [move, MarkerInfo.move]

end MarkerLog

end Descent
