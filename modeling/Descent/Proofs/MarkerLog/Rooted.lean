import Descent.Proofs.MarkerLog.History

/-!
# An open marker below all others

While a marker is open and its start is the oldest entry of the log, nothing that is done to other
markers reaches it: it stays open and below all others (`MarkerLog.Rooted`).
-/

namespace Descent

namespace MarkerLog

variable {log log' : MarkerLog} {m x : Marker}

/-! ## Operations on other markers -/

theorem info?_openAt_of_lt (h : m.number < log.markers.size) (p : Nat) :
    (log.openAt p).2.info? m = log.info? m := by
  simp only [openAt, info?, Array.getElem?_push, if_neg (Nat.ne_of_lt h)]

theorem info?_wrap_of_lt (h : m.number < log.markers.size) (x : Marker) :
    (log.wrap x).2.info? m = log.info? m := by
  simp only [wrap, info?, Array.getElem?_push, if_neg (Nat.ne_of_lt h)]

theorem info?_wrap_of_ne (h : log.fresh ≠ x) (m : Marker) :
    (log.wrap m).2.info? x = log.info? x := by
  simp only [wrap, info?, Array.getElem?_push]
  exact if_neg fun hn => h (Marker.number_inj.1 hn).symm

theorem info?_commit_of_ne (h : x ≠ m) (kind : Kind) (error : Option SyntaxError) (p : Nat) :
    (log.commit x kind error p).info? m = log.info? m := by
  unfold commit
  split
  · simp only [info?, Array.getElem?_modify]
    rw [if_neg fun hn => h (Marker.number_inj.1 hn)]
  · rfl

theorem info?_commit_self {info : MarkerInfo} (hi : log.info? m = some info)
    (hs : info.stage = .opened) (kind : Kind) (error : Option SyntaxError) (p : Nat) :
    (log.commit m kind error p).info? m = some { info with
      stop := max p info.start, kind := some kind, error, stage := .committed } := by
  have hstage : log.stage? m = some .opened := by rw [stage?, hi, ← hs]; rfl
  simp only [info?] at hi
  simp [commit, hstage, info?, Array.getElem?_modify, hi]

theorem info?_setStage_of_ne {ms : Array MarkerInfo} (h : x ≠ m) (stage : MarkerStage) :
    (setStage ms x stage)[m.number]? = ms[m.number]? := by
  rw [setStage_get, if_neg fun hn => h (Marker.number_inj.1 hn)]

theorem info?_drop_of_ne (h : x ≠ m) : (log.drop x).info? m = log.info? m := by
  unfold drop
  split
  · exact info?_setStage_of_ne h _
  · exact info?_setStage_of_ne h _
  · rfl

/-- Rolling back reaches only the markers that have entries above the start it goes back to. -/
theorem info?_unwind_of_ne {ms : Array MarkerInfo} {later older : List Entry} (h : x ≠ m)
    (hlater : ∀ e ∈ later, e.marker ≠ m) (hx : .start x ∉ later) :
    (unwind x ms (later ++ .start x :: older)).info? m = ms[m.number]? := by
  induction later generalizing ms with
  | nil =>
    rw [List.nil_append, unwind, if_pos rfl]
    exact info?_setStage_of_ne h _
  | cons e later ih =>
    obtain ⟨he, hlater⟩ := List.forall_mem_cons.1 hlater
    obtain ⟨hne, hx⟩ := not_or.1 (mt List.mem_cons.2 hx)
    rw [List.cons_append, unwind, if_neg (Ne.symm hne), ih hlater hx, Entry.undo_eq]
    exact info?_setStage_of_ne he _

/-! ## Nodes committed last -/

theorem isCommitted_of_lastCommitted? (h : log.lastCommitted? = some x) :
    log.isCommitted x = true := by
  obtain ⟨e, -, he⟩ := List.exists_of_findSome?_eq_some h
  cases e with
  | commit y =>
    obtain ⟨hy, rfl⟩ : log.isCommitted y = true ∧ y = x := by simpa using he
    exact hy
  | start | drop => cases he

theorem isCommitted_of_lastWidenable? (h : log.lastWidenable? = some x) :
    log.isCommitted x = true := by
  unfold lastWidenable? at h
  split at h
  · next y hfind =>
    have hcounts := List.find?_some hfind
    exact Option.some.inj h ▸ hcounts
  · cases h

/-! ## Rooted logs -/

/-- The marker is open, and its start is the oldest entry. -/
structure Rooted (m : Marker) (log : MarkerLog) : Prop where
  sound : log.Sound
  opened : ∃ info, log.info? m = some info ∧ info.stage = .opened
  oldest : log.entries.getLast? = some (.start m)

namespace Rooted

theorem lt_size (h : log.Rooted m) : m.number < log.markers.size := by
  obtain ⟨info, hi, -⟩ := h.opened
  exact lt_size_of_info? hi

theorem fresh_ne (h : log.Rooted m) : log.fresh ≠ m := by
  rintro rfl
  exact Nat.lt_irrefl _ h.lt_size

/-- No committed marker is the open one. -/
theorem ne_of_isCommitted (h : log.Rooted m) (hx : log.isCommitted x = true) : x ≠ m := by
  rintro rfl
  obtain ⟨info, hi, hs⟩ := h.opened
  obtain ⟨info', hi', hs'⟩ := isCommitted_iff.1 hx
  rw [hi] at hi'
  rw [Option.some.inj hi', hs'] at hs
  cases hs

/-- Nothing that was committed is the open marker. -/
theorem ne_of_lastCommitted? (h : log.Rooted m) (hx : log.lastCommitted? = some x) : x ≠ m :=
  h.ne_of_isCommitted (isCommitted_of_lastCommitted? hx)

theorem ne_of_lastWidenable? (h : log.Rooted m) (hx : log.lastWidenable? = some x) : x ≠ m :=
  h.ne_of_isCommitted (isCommitted_of_lastWidenable? hx)

/-- The start is all that the log has about the marker. -/
theorem history (h : log.Rooted m) : log.history m = [.start m] := by
  obtain ⟨info, hi, hs⟩ := h.opened
  exact ((h.sound.life hi).of_opened hs).1

theorem openAt (h : log.Rooted m) (p : Nat) : (log.openAt p).2.Rooted m where
  sound := h.sound.openAt p
  opened := by
    rw [info?_openAt_of_lt h.lt_size]
    exact h.opened
  oldest := by
    have hold := h.oldest
    simp only [MarkerLog.openAt, List.getLast?_cons, hold, Option.getD_some]

theorem commit (h : log.Rooted m) (hx : x ≠ m) (kind : Kind) (error : Option SyntaxError)
    (p : Nat) : (log.commit x kind error p).Rooted m where
  sound := h.sound.commit x kind error p
  opened := by
    rw [info?_commit_of_ne hx]
    exact h.opened
  oldest := by
    have hold := h.oldest
    unfold MarkerLog.commit
    split
    · simp only [List.getLast?_cons, hold, Option.getD_some]
    · exact hold

theorem drop (h : log.Rooted m) (hx : x ≠ m) : (log.drop x).Rooted m where
  sound := h.sound.drop x
  opened := by
    rw [info?_drop_of_ne hx]
    exact h.opened
  oldest := by
    have hold := h.oldest
    unfold MarkerLog.drop
    split
    · simp only [List.getLast?_cons, hold, Option.getD_some]
    · simp only [List.getLast?_cons, hold, Option.getD_some]
    · exact hold

theorem wrap (h : log.Rooted m) (hx : x ≠ m) : (log.wrap x).2.Rooted m where
  sound := h.sound.wrap x
  opened := by
    rw [info?_wrap_of_lt h.lt_size]
    exact h.opened
  oldest := by
    have hold := h.oldest
    show (insertStart x log.fresh log.entries).getLast? = _
    rcases insertStart_cases x log.fresh log.entries with ⟨-, he⟩ | ⟨later, older, -, hes, he⟩
    · rw [he, List.getLast?_cons, hold]
      rfl
    · rw [he]
      rw [hes] at hold
      cases older with
      | nil =>
        have hxm : Entry.start x = .start m := by simpa using hold
        exact absurd (Entry.start.inj hxm) hx
      | cons e older => simpa [List.getLast?_append, List.getLast?_cons] using hold

theorem rollback {p : Nat} (h : log.Rooted m) (hx : x ≠ m)
    (hr : log.rollback x = some (p, log')) : log'.Rooted m := by
  have hsound := h.sound.rollback hr
  obtain ⟨hmem, -, hl⟩ := rollback_eq_some_iff.1 hr
  obtain ⟨later, hnot, hes⟩ := entries_unwind log.markers hmem
  rw [hl] at hes
  have hold := h.oldest
  have hnil : log'.entries ≠ [] := by
    intro hn
    rw [hes, hn] at hold
    have hxm : Entry.start x = .start m := by simpa using hold
    exact hx (Entry.start.inj hxm)
  have hold' : log'.entries.getLast? = some (.start m) := by
    rw [hes, List.getLast?_append, List.getLast?_cons] at hold
    cases hlast : log'.entries.getLast? with
    | none => exact absurd (List.getLast?_eq_none_iff.1 hlast) hnil
    | some e => simpa [hlast] using hold
  have hlater : ∀ e ∈ later, e.marker ≠ m := by
    intro e he hm
    have hmem : e ∈ log.history m := mem_history.2 ⟨hes ▸ List.mem_append_left _ he, hm⟩
    obtain rfl : e = .start m := by simpa [h.history] using hmem
    exact h.sound.notMem_older hes he (List.mem_of_getLast? hold')
  refine ⟨hsound, ?_, hold'⟩
  rw [← hl, hes, info?_unwind_of_ne hx hlater hnot]
  exact h.opened

end Rooted

end MarkerLog

end Descent
