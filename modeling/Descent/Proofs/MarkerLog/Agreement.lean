import Descent.Proofs.MarkerLog.Steps
import Descent.Proofs.MarkerLog.Nesting

/-!
# Stages and entries agree

The stage of a marker is kept beside the log, and the entries of the log say the same a second time.
After any run of marker steps the two agree (`MarkerLog.agrees_runSteps`), whatever markers the steps
name. What a stage says of the entries is read off the six lives of a marker; the order of two
entries is that of the marker's history, which is part of the log.
-/

namespace Descent

/-- The stage at which an entry dropped a marker. -/
def Entry.dropOf? (m : Marker) : Entry → Option MarkerStage
  | drop x prior => if x = m then some prior else none
  | _ => none

namespace MarkerLog

variable {log : MarkerLog} {m : Marker} {e x y : Entry}

/-- The stages a marker was dropped at, the latest first. -/
def drops (log : MarkerLog) (m : Marker) : List MarkerStage := log.entries.filterMap (Entry.dropOf? m)

/-- In the order of time, one entry is in the log before another. -/
def Precedes (log : MarkerLog) (x y : Entry) : Prop := Before log.entries.reverse x y

/-- The stages of the markers agree with the entries of the log. -/
structure Agrees (log : MarkerLog) : Prop where
  allocated : ∀ e ∈ log.entries, (log.info? e.marker).isSome = true
  start_once : ∀ m, log.entries.count (.start m) ≤ 1
  commit_once : ∀ m, log.entries.count (.commit m) ≤ 1
  commit_after : ∀ m, .commit m ∈ log.entries → log.Precedes (.start m) (.commit m)
  opened : ∀ m, log.stage? m = some .opened →
    .start m ∈ log.entries ∧ .commit m ∉ log.entries ∧ log.drops m = []
  committed : ∀ m, log.stage? m = some .committed →
    .start m ∈ log.entries ∧ .commit m ∈ log.entries ∧ log.drops m = []
  /-- A dropped marker has been dropped once, behind its start, and it was committed then exactly if its
  commitment is still in the log. -/
  dropped : ∀ m, log.stage? m = some .dropped → ∃ prior, log.drops m = [prior] ∧
    log.Precedes (.start m) (.drop m prior) ∧ (prior = .committed ↔ .commit m ∈ log.entries)
  rolledBack : ∀ m, log.stage? m = some .rolledBack → .commit m ∉ log.entries ∧ log.drops m = []
  start_le_stop : ∀ m info, log.info? m = some info → info.start ≤ info.stop

/-! ## The log and the history of a marker -/

theorem mem_entries_iff : e ∈ log.entries ↔ e ∈ log.history e.marker := by
  simp [mem_history]

/-- The drops of a marker are part of its history. -/
theorem drops_eq (log : MarkerLog) (m : Marker) :
    log.drops m = (log.history m).filterMap (Entry.dropOf? m) := by
  rw [drops, history, List.filterMap_filter]
  apply List.filterMap_congr
  intro e _
  cases e with
  | start x => simp [Entry.dropOf?]
  | commit x => simp [Entry.dropOf?]
  | drop x prior => by_cases hx : x = m <;> simp [Entry.dropOf?, Entry.marker, hx]

/-- What comes in order in the history of a marker does so in the log. -/
theorem precedes_of_history (h : [y, x].Sublist (log.history m)) : log.Precedes x y := by
  have hlog : [y, x].Sublist log.entries := h.trans List.filter_sublist
  simpa [Precedes, Before] using hlog.reverse

end MarkerLog

/-! ## What a stage says of the history -/

namespace Life

variable {m : Marker} {info : MarkerInfo} {h : List Entry}

theorem start_le_stop (l : Life m info h) : info.start ≤ info.stop := by
  cases l with
  | opened p => exact Nat.le_refl p
  | droppedOpened p => exact Nat.le_refl p
  | committed hle => exact hle
  | droppedCommitted hle => exact hle
  | uncommitted hle => exact hle
  | erased hle => exact hle

/-- No marker is committed without a start. -/
theorem commit_after (l : Life m info h) (hc : .commit m ∈ h) : [.commit m, .start m].Sublist h := by
  cases l with
  | committed => exact .refl _
  | droppedCommitted => exact List.sublist_cons_self _ _
  | opened => simp at hc
  | droppedOpened => simp at hc
  | uncommitted => simp at hc
  | erased => simp at hc

theorem of_dropped (l : Life m info h) (hs : info.stage = .dropped) :
    ∃ prior, h.filterMap (Entry.dropOf? m) = [prior] ∧ [.drop m prior, .start m].Sublist h ∧
      (prior = .committed ↔ .commit m ∈ h) := by
  cases l with
  | droppedOpened p => exact ⟨.opened, by simp [Entry.dropOf?], .refl _, by simp⟩
  | droppedCommitted =>
    refine ⟨.committed, by simp [Entry.dropOf?], ?_, by simp⟩
    exact (List.sublist_cons_self _ _).cons_cons _
  | opened => cases hs
  | committed => cases hs
  | uncommitted => cases hs
  | erased => cases hs

/-- What was taken back has at most its start left. -/
theorem of_rolledBack (l : Life m info h) (hs : info.stage = .rolledBack) :
    h = [.start m] ∨ h = [] := by
  cases l with
  | uncommitted => exact .inl rfl
  | erased => exact .inr rfl
  | opened => cases hs
  | committed => cases hs
  | droppedOpened => cases hs
  | droppedCommitted => cases hs

end Life

namespace MarkerLog

variable {log : MarkerLog} {m : Marker}

/-- Only an allocated marker is committed. -/
theorem Sound.commit_after (h : log.Sound) (hc : .commit m ∈ log.entries) :
    log.Precedes (.start m) (.commit m) := by
  cases hi : log.info? m with
  | none =>
    have hlt := h.known _ hc
    have hle := info?_eq_none_iff.1 hi
    simp only [Entry.marker] at hlt
    omega
  | some info => exact precedes_of_history ((h.life hi).commit_after (mem_entries_iff.1 hc))

theorem Sound.isSome_info? (h : log.Sound) {e : Entry} (he : e ∈ log.entries) :
    (log.info? e.marker).isSome = true := by
  have hlt := h.known e he
  by_contra hnone
  have hle := info?_eq_none_iff.1 (Option.not_isSome_iff_eq_none.1 hnone)
  omega

/-- The six lives leave no room for another stage. -/
theorem Sound.agrees (h : log.Sound) : log.Agrees where
  allocated e he := h.isSome_info? he
  start_once m := h.count_le_one _
  commit_once m := h.count_le_one _
  commit_after m := h.commit_after
  opened m hm := by
    obtain ⟨info, hi, hs⟩ := Option.map_eq_some_iff.1 hm
    have hhist := ((h.life hi).of_opened hs).1
    simp [drops_eq, mem_entries_iff, Entry.marker, hhist, Entry.dropOf?]
  committed m hm := by
    obtain ⟨info, hi, hs⟩ := Option.map_eq_some_iff.1 hm
    have hhist := ((h.life hi).of_committed hs).1
    simp [drops_eq, mem_entries_iff, Entry.marker, hhist, Entry.dropOf?]
  dropped m hm := by
    obtain ⟨info, hi, hs⟩ := Option.map_eq_some_iff.1 hm
    obtain ⟨prior, hdrops, hafter, hprior⟩ := (h.life hi).of_dropped hs
    rw [drops_eq, mem_entries_iff]
    exact ⟨prior, hdrops, precedes_of_history hafter, hprior⟩
  rolledBack m hm := by
    obtain ⟨info, hi, hs⟩ := Option.map_eq_some_iff.1 hm
    rcases (h.life hi).of_rolledBack hs with hhist | hhist
    · simp [drops_eq, mem_entries_iff, Entry.marker, hhist, Entry.dropOf?]
    · simp [drops_eq, mem_entries_iff, Entry.marker, hhist]
  start_le_stop m info hi := (h.life hi).start_le_stop

/-- After any run of marker steps the stages of the markers agree with the entries of the log. The
steps may name markers that were never allocated, or are long gone. -/
theorem agrees_runSteps (steps : List MarkerStep) : (Session.runSteps steps {}).log.Agrees :=
  (Sound.empty.runSteps steps).agrees

-- a marker that is dropped after its commitment, one put in front of it, and steps that do nothing
example : (Session.runSteps [.openAt 2, .commit ⟨0⟩ ⟨21⟩ none, .drop ⟨0⟩, .wrap ⟨0⟩,
      .commit ⟨0⟩ ⟨22⟩ none, .rollback ⟨7⟩] {}).log.entries =
    [.drop ⟨0⟩ .committed, .commit ⟨0⟩, .start ⟨0⟩, .start ⟨1⟩] := by
  decide

end MarkerLog

end Descent
