import Descent.Proofs.MarkerLog.LastNodes
import Descent.Proofs.MarkerLog.OnTop
import Descent.Proofs.MarkerLog.Rollback

/-!
# Open markers after a rollback

A marker that was open when another one was opened may be dropped, wrapped and committed in the meantime.
Rolling back to the later marker takes all of this back. A marker that was dropped is then open again, but one
that was committed is not: taking its commitment back leaves it rolled back, and it can never be committed
again (`Session.reopened_by_rollback`). What decides is whether the marker is open or was dropped open, which
every step keeps as it is, but for the one that commits the marker.
-/

namespace Descent

namespace MarkerLog

variable {log : MarkerLog} {m o x : Marker} {e : Entry} {es : List Entry} {ms : Array MarkerInfo}

/-- The marker is open, or it was dropped while it was open. -/
def Reopens (log : MarkerLog) (o : Marker) : Prop :=
  log.stage? o = some .opened ∨ .drop o .opened ∈ log.entries

/-- Whether a marker reopens shows in its stage and its entries. -/
theorem reopens_iff {info : MarkerInfo} (hi : log.info? o = some info) :
    log.Reopens o ↔ info.stage = .opened ∨ .drop o .opened ∈ log.history o := by
  simp [Reopens, stage?, hi, mem_history, Entry.marker]

/-- What happens to other markers does not matter. -/
theorem reopens_congr {log' : MarkerLog} (hstage : log'.stage? o = log.stage? o)
    (hentries : .drop o .opened ∈ log'.entries ↔ .drop o .opened ∈ log.entries) :
    log'.Reopens o ↔ log.Reopens o := by
  rw [Reopens, Reopens, hstage, hentries]

/-! ## Taking entries back -/

/-- Taking an entry back changes nothing, as long as the start of the marker stays. -/
theorem reopens_undo (h : Sound ⟨ms, e :: es⟩) (hne : e ≠ .start o) :
    Reopens ⟨e.undo ms, es⟩ o ↔ Reopens ⟨ms, e :: es⟩ o := by
  by_cases he : e.marker = o
  · obtain rfl := he
    have hlt := h.known e List.mem_cons_self
    have hi : info? ⟨ms, e :: es⟩ e.marker = some ms[e.marker.number] := Array.getElem?_eq_getElem hlt
    have hi' : info? ⟨e.undo ms, es⟩ e.marker =
        some { ms[e.marker.number] with stage := e.stageBefore } := by
      rw [info?, Entry.undo_eq, setStage_get, if_pos rfl]
      exact congrArg (Option.map _) hi
    have hlife := h.life hi
    rw [reopens_iff hi, reopens_iff hi', history_cons ms (e.undo ms), if_pos rfl]
    rw [history_cons ms (e.undo ms), if_pos rfl] at hlife
    generalize history ⟨e.undo ms, es⟩ e.marker = past at hlife ⊢
    generalize ms[e.marker.number] = info at hlife ⊢
    -- the entry is a commitment, or a drop that gives the earlier stage back
    cases e with
    | start x => exact absurd rfl hne
    | commit x =>
      cases hlife
      simp [Entry.stageBefore, Entry.marker]
    | drop x prior => cases hlife <;> simp [Entry.stageBefore, Entry.marker]
  · refine reopens_congr ?_ ?_
    · have hother : e.marker.number ≠ o.number := fun hn => he (Marker.number_inj.1 hn)
      rw [stage?, stage?, info?, info?, Entry.undo_eq, setStage_get, if_neg hother]
    · refine ⟨List.mem_cons_of_mem e, fun hmem => (List.mem_cons.1 hmem).resolve_left ?_⟩
      rintro rfl
      exact he rfl

theorem suffix_entries_unwind (m : Marker) (ms : Array MarkerInfo) (es : List Entry) :
    (unwind m ms es).entries <:+ es := by
  induction es generalizing ms with
  | nil => exact List.suffix_refl _
  | cons e es ih =>
    rw [unwind]
    split
    · exact List.suffix_cons e es
    · exact (ih (e.undo ms)).trans (List.suffix_cons e es)

theorem reopens_unwind (h : Sound ⟨ms, es⟩) (hkept : .start o ∈ (unwind m ms es).entries) :
    (unwind m ms es).Reopens o ↔ Reopens ⟨ms, es⟩ o := by
  induction es generalizing ms with
  | nil => exact Iff.rfl
  | cons e es ih =>
    -- the start of the marker is below, and it is there once
    have hne (hmem : .start o ∈ es) : e ≠ .start o := by
      rintro rfl
      exact (h.notMem_of_entries (List.nil_append _).symm).2 hmem
    rw [unwind] at hkept ⊢
    split at hkept
    · next he =>
      rw [if_pos he]
      exact reopens_undo h (hne hkept)
    · next he =>
      rw [if_neg he]
      have hmem := (suffix_entries_unwind m (e.undo ms) es).subset hkept
      exact (ih h.undo hkept).trans (reopens_undo h (hne hmem))

/-- What was rolled back leaves the markers that keep their start as they are. -/
theorem reopens_rollback {log' : MarkerLog} {q : Nat} (h : log.Sound) (hr : log.rollback m = some (q, log'))
    (hkept : .start o ∈ log'.entries) :
    .start o ∈ log.entries ∧ (log'.Reopens o ↔ log.Reopens o) := by
  obtain ⟨-, -, rfl⟩ := rollback_eq_some_iff.1 hr
  exact ⟨(suffix_entries_unwind m _ _).subset hkept, reopens_unwind h hkept⟩

/-! ## Steps -/

theorem reopens_drop (log : MarkerLog) (m o : Marker) : (log.drop m).Reopens o ↔ log.Reopens o := by
  by_cases hm : m = o
  · subst hm
    by_cases hlive : log.stage? m = some .opened ∨ log.stage? m = some .committed
    · have hstage := stage?_drop_self hlive
      rcases hlive with hs | hs
      · have hentries : (log.drop m).entries = .drop m .opened :: log.entries := by simp [drop, hs]
        simp [Reopens, hs, hentries]
      · have hentries : (log.drop m).entries = .drop m .committed :: log.entries := by simp [drop, hs]
        simp [Reopens, hstage, hs, hentries]
    · rw [not_or] at hlive
      rw [drop_eq_self hlive.1 hlive.2]
  · refine reopens_congr (stage?_drop_of_ne hm) ?_
    rcases entries_drop log m with he | ⟨prior, he⟩
    · rw [he]
    · simp [he, Ne.symm hm]

theorem reopens_openAt (hlt : o.number < log.markers.size) (p : Nat) :
    (log.openAt p).2.Reopens o ↔ log.Reopens o := by
  refine reopens_congr ?_ (by simp [openAt])
  rw [stage?, stage?, info?_openAt_of_lt hlt]

theorem reopens_wrap (hlt : o.number < log.markers.size) (m : Marker) :
    (log.wrap m).2.Reopens o ↔ log.Reopens o := by
  refine reopens_congr ?_ (by simp [wrap, mem_insertStart])
  rw [stage?, stage?, info?_wrap_of_lt hlt]

/-- An open marker has not been dropped. -/
theorem drop_notMem_of_opened (h : log.Sound) (ho : log.stage? o = some .opened) (prior : MarkerStage) :
    .drop o prior ∉ log.entries := by
  intro hmem
  cases eq_start_of_opened h ho hmem rfl

/-- The commitment of an open marker is the end of it. -/
theorem reopens_commit (h : log.Sound) (m o : Marker) (kind : Kind) (error : Option SyntaxError) (p : Nat) :
    (log.commit m kind error p).Reopens o ↔
      log.Reopens o ∧ ¬ (m = o ∧ log.stage? o = some .opened) := by
  by_cases hm : m = o
  · subst hm
    by_cases hs : log.stage? m = some .opened
    · obtain ⟨info, hi, hstage⟩ := Option.map_eq_some_iff.1 hs
      refine iff_of_false ?_ fun hand => hand.2 ⟨rfl, hs⟩
      rw [Reopens, stage?, info?_commit_self hi hstage kind error p]
      simpa [commit, hs] using drop_notMem_of_opened h hs .opened
    · simp [commit, hs]
  · have hsame : (log.commit m kind error p).Reopens o ↔ log.Reopens o := by
      refine reopens_congr ?_ ?_
      · rw [stage?, stage?, info?_commit_of_ne hm]
      · unfold commit
        split <;> simp
    simpa [hm] using hsame

/-- A step changes whether a marker reopens only if it commits the marker. -/
theorem reopens_step {s : Session} (h : s.log.Sound) (ho : .start o ∈ s.log.entries)
    (step : MarkerStep) (hkept : .start o ∈ (step.run s).log.entries) :
    (step.run s).log.Reopens o ↔ s.log.Reopens o ∧
      ¬ ∃ kind error, step = .commit o kind error ∧ s.log.stage? o = some .opened := by
  have hlt : o.number < s.log.markers.size := h.known (.start o) ho
  cases step with
  | seek q => simp [MarkerStep.run]
  | openAt q => simpa [MarkerStep.run] using reopens_openAt hlt q
  | wrap x => simpa [MarkerStep.run] using reopens_wrap hlt x
  | drop x => simpa [MarkerStep.run] using s.log.reopens_drop x o
  | commit x kind error => simpa [MarkerStep.run] using reopens_commit h x o kind error s.position
  | rollback x =>
    simp only [MarkerStep.run, reduceCtorEq, false_and, exists_false, not_false_eq_true, and_true]
      at hkept ⊢
    rcases s.log_rollback x with he | ⟨q, hr⟩
    · rw [he]
    · exact (reopens_rollback h hr hkept).2

/-- A run changes it only if one of its steps commits the marker while it is open. -/
theorem reopens_runSteps {s : Session} {steps : List MarkerStep} (h : s.log.Sound)
    (ho : .start o ∈ s.log.entries) (hkept : .start o ∈ (s.runSteps steps).log.entries) :
    (s.runSteps steps).log.Reopens o ↔ s.log.Reopens o ∧
      ¬ ∃ before kind error after, steps = before ++ .commit o kind error :: after ∧
        (s.runSteps before).log.stage? o = some .opened := by
  induction steps generalizing s with
  | nil => simp [Session.runSteps]
  | cons step steps ih =>
    have hlt := Nat.lt_of_lt_of_le (h.known (.start o) ho) (s.size_markers_le_step step)
    have hnext : .start o ∈ (step.run s).log.entries := start_mem_of_runSteps hlt hkept
    rw [show s.runSteps (step :: steps) = (step.run s).runSteps steps from rfl,
      ih (h.step step) hnext hkept, reopens_step h ho step hnext, and_assoc]
    refine and_congr_right fun _ => ?_
    rw [← not_or]
    refine not_congr ⟨?_, ?_⟩
    · rintro (⟨kind, error, rfl, hs⟩ | ⟨before, kind, error, after, rfl, hs⟩)
      · exact ⟨[], kind, error, steps, rfl, hs⟩
      · exact ⟨step :: before, kind, error, after, rfl, hs⟩
    · rintro ⟨_ | ⟨_, before⟩, kind, error, after, he, hs⟩
      · obtain ⟨rfl, rfl⟩ := List.cons.inj he
        exact .inl ⟨kind, error, rfl, hs⟩
      · obtain ⟨rfl, rfl⟩ := List.cons.inj he
        exact .inr ⟨before, kind, error, after, rfl, hs⟩

end MarkerLog

namespace Session

open MarkerLog

/-- Rolling back to a marker `m` leaves a marker `o` that was open when `m` was opened open again, whatever
the steps since have done, unless one of them has committed `o`; and then `o` can be committed. -/
theorem reopened_by_rollback {s s₁ : Session} {p : Nat} {o : Marker} (steps : List MarkerStep)
    (hs : s.log.Reachable) (hopen : s₁.log = (s.log.openAt p).2)
    (ho : s.log.stage? o = some .opened)
    (hkept : (s₁.runSteps steps).log.isStarted (s.log.openAt p).1 = true) :
    let s₂ := (s₁.runSteps steps).rollback (s.log.openAt p).1
    (s₂.log.stage? o = some .opened ↔
      ¬ ∃ before kind error after, steps = before ++ .commit o kind error :: after ∧
        (s₁.runSteps before).log.stage? o = some .opened) ∧
      (s₂.log.stage? o = some .opened → ∀ kind error,
        (s₂.commit o kind error).log.kind? o = some kind) := by
  have hold := hs.sound
  have hsound : s₁.log.Sound := hopen ▸ hold.openAt p
  have hrun := hsound.runSteps steps
  have hmem : .start s.log.fresh ∈ (s₁.runSteps steps).log.entries := isStarted_iff.1 hkept
  have hsince : s.log.Since p (s₁.runSteps steps).log :=
    (hopen ▸ Since.intro hold p : s.log.Since p s₁.log).runSteps hold hmem
  obtain ⟨q, log', hr⟩ := hsince.exists_rollback
  obtain ⟨-, hentries, -⟩ := hsince.entries_rollback hr
  have hlog : ((s₁.runSteps steps).rollback (s.log.openAt p).1).log = log' := by
    rw [Session.rollback, show (s.log.openAt p).1 = s.log.fresh from rfl, hr]
  -- the start of the marker stays all the time
  have hstart := hold.start_mem_of_opened ho
  have hlt : o.number < s.log.markers.size := hold.known (.start o) hstart
  have hstart₁ : .start o ∈ s₁.log.entries := hopen ▸ List.mem_cons_of_mem _ hstart
  have hstart' : .start o ∈ log'.entries := by
    rw [← hentries] at hstart
    exact (List.mem_filter.1 hstart).1
  obtain ⟨hstartRun, hreopens'⟩ := reopens_rollback hrun hr hstart'
  have hreopens₁ : s₁.log.Reopens o := by
    rw [hopen, reopens_openAt hlt]
    exact .inl ho
  -- with what came later taken back, no drop is left
  have hnot : .drop o .opened ∉ log'.entries := fun hdrop => by
    have hkept' : .drop o .opened ∈ s.log.entries := by
      rw [← hentries]
      exact List.mem_filter.2 ⟨hdrop, decide_eq_true hlt⟩
    exact drop_notMem_of_opened hold ho .opened hkept'
  have hopened : log'.stage? o = some .opened ↔ log'.Reopens o := by simp [Reopens, hnot]
  intro s₂
  have hs₂ : s₂.log = log' := hlog
  rw [hs₂]
  refine ⟨?_, fun hopen' kind error => ?_⟩
  · rw [hopened, hreopens', reopens_runSteps hsound hstart₁ hstartRun]
    simp [hreopens₁]
  obtain ⟨info', hi', hstage'⟩ := Option.map_eq_some_iff.1 hopen'
  rw [log_commit, hs₂, kind?, info?_commit_self hi' hstage' kind error _]
  rfl

/-- A marker that is open. -/
def oneOpen : Session := runSteps [.openAt 0] {}

/-- The same with one more marker, opened one token later. -/
def oneOpenMarked : Session := { oneOpen with position := 1, log := (oneOpen.log.openAt 1).2 }

theorem reopened_by_rollback_dropped :
    ((oneOpenMarked.runSteps [.wrap ⟨0⟩, .seek 2, .commit ⟨2⟩ ⟨22⟩ none, .drop ⟨0⟩]).rollback
        ⟨1⟩).log.stage? ⟨0⟩ = some .opened ∧
      (((oneOpenMarked.runSteps [.wrap ⟨0⟩, .seek 2, .commit ⟨2⟩ ⟨22⟩ none, .drop ⟨0⟩]).rollback
        ⟨1⟩).commit ⟨0⟩ ⟨21⟩ none).log.kind? ⟨0⟩ = some ⟨21⟩ := by
  obtain ⟨hiff, hcommit⟩ := @reopened_by_rollback oneOpen oneOpenMarked 1 ⟨0⟩
    [.wrap ⟨0⟩, .seek 2, .commit ⟨2⟩ ⟨22⟩ none, .drop ⟨0⟩] ⟨_, rfl⟩ rfl (by decide) (by decide)
  have hopen := hiff.2 fun ⟨before, kind, error, after, he, _⟩ => by
    have hmem : MarkerStep.commit ⟨0⟩ kind error ∈
        [.wrap ⟨0⟩, .seek 2, .commit ⟨2⟩ ⟨22⟩ none, .drop ⟨0⟩] := he ▸ by simp
    simp at hmem
  exact ⟨hopen, hcommit hopen ⟨21⟩ none⟩

/-- The marker was open when the other one was opened, and committed since. Rolled back to the other one, it is
not open, and committing it does nothing. -/
theorem not_reopened_by_rollback_committed :
    oneOpen.log.stage? ⟨0⟩ = some .opened ∧
      (oneOpenMarked.runSteps [.seek 2, .commit ⟨0⟩ ⟨21⟩ none]).log.isStarted ⟨0⟩ = true ∧
      (oneOpenMarked.runSteps [.seek 2, .commit ⟨0⟩ ⟨21⟩ none]).log.isStarted ⟨1⟩ = true ∧
      ((oneOpenMarked.runSteps [.seek 2, .commit ⟨0⟩ ⟨21⟩ none]).rollback ⟨1⟩).log.stage? ⟨0⟩ =
        some .rolledBack ∧
      (((oneOpenMarked.runSteps [.seek 2, .commit ⟨0⟩ ⟨21⟩ none]).rollback ⟨1⟩).commit ⟨0⟩ ⟨21⟩
        none).log.isCommitted ⟨0⟩ = false := by
  decide

end Session

end Descent
