import Descent.Proofs.MarkerLog.LastNodes
import Descent.Proofs.Session.LaminarWork

/-!
# Markers that were there before

Work commits no marker but those it opens itself, and it leaves open what was open (`Work.heeds`). So a
marker that was just opened is still open when a section is left, whatever was done inside
(`Work.opened_openMarker`).
-/

namespace Descent

namespace MarkerLog

variable {log log₁ log' : MarkerLog} {m x : Marker}

/-- Of the markers that were there, no other is a node than before, and what was open still is. -/
structure Heeds (log log' : MarkerLog) : Prop where
  size : log.markers.size ≤ log'.markers.size
  nodes : ∀ x, x.number < log.markers.size → log'.isCommitted x = true → log.isCommitted x = true
  opened : ∀ x, log.stage? x = some .opened → log'.stage? x = some .opened

theorem fresh_ne_of_lt (hx : x.number < log.markers.size) : log.fresh ≠ x := by
  rintro rfl
  exact Nat.lt_irrefl _ hx

theorem isCommitted_of_commit {kind : Kind} {error : Option SyntaxError} {p : Nat}
    (h : (log.commit m kind error p).isCommitted x = true) (hx : m ≠ x) :
    log.isCommitted x = true := by
  rwa [isCommitted, stage?, info?_commit_of_ne hx] at h

theorem isCommitted_of_drop (h : (log.drop m).isCommitted x = true) : log.isCommitted x = true := by
  by_cases hx : m = x
  · rw [← hx, isCommitted_drop_self] at h
    cases h
  · rwa [isCommitted, stage?, info?_drop_of_ne hx] at h

theorem isCommitted_of_openAt {p : Nat} (h : (log.openAt p).2.isCommitted x = true) :
    log.isCommitted x = true := by
  by_cases hx : log.fresh = x
  · subst hx
    simp [isCommitted, stage?, info?, openAt, fresh] at h
  · rwa [isCommitted, stage?, info?_openAt_of_ne hx] at h

namespace Heeds

theorem refl (log : MarkerLog) : log.Heeds log := ⟨Nat.le_refl _, fun _ _ h => h, fun _ h => h⟩

theorem trans (h : log.Heeds log₁) (h' : log₁.Heeds log') : log.Heeds log' where
  size := Nat.le_trans h.size h'.size
  nodes x hx hc := h.nodes x hx (h'.nodes x (Nat.lt_of_lt_of_le hx h.size) hc)
  opened x ho := h'.opened x (h.opened x ho)

/-- Only one marker changes, which was not there before or is no longer open. -/
theorem of_change (h : log.Heeds log₁) (hsize : log₁.markers.size ≤ log'.markers.size)
    (hother : ∀ x, m ≠ x → log'.info? x = log₁.info? x)
    (hm : log.markers.size ≤ m.number ∨
      log₁.stage? m ≠ some .opened ∧ log'.isCommitted m = false) : log.Heeds log' where
  size := Nat.le_trans h.size hsize
  nodes x hx hc := by
    by_cases hmx : m = x
    · subst hmx
      rcases hm with hm | ⟨-, hm⟩
      · exact absurd hx (Nat.not_lt.2 hm)
      · rw [hm] at hc
        cases hc
    · exact h.nodes x hx (by rwa [isCommitted, stage?, hother x hmx] at hc)
  opened x ho := by
    by_cases hmx : m = x
    · subst hmx
      rcases hm with hm | ⟨hm, -⟩
      · exact absurd (number_lt_of_stage? ho) (Nat.not_lt.2 hm)
      · exact absurd (h.opened m ho) hm
    · rw [stage?, hother x hmx]
      exact h.opened x ho

theorem openAt (h : log.Heeds log₁) (p : Nat) : log.Heeds (log₁.openAt p).2 :=
  h.of_change (by simp) (fun _ hx => info?_openAt_of_ne hx p) (.inl h.size)

theorem wrap (h : log.Heeds log₁) (m : Marker) : log.Heeds (log₁.wrap m).2 :=
  h.of_change (by simp) (fun _ hx => info?_wrap_of_ne hx m) (.inl h.size)

theorem commit (h : log.Heeds log₁) (hm : log.markers.size ≤ m.number) (kind : Kind)
    (error : Option SyntaxError) (p : Nat) : log.Heeds (log₁.commit m kind error p) :=
  h.of_change (by simp) (fun _ hx => info?_commit_of_ne hx kind error p) (.inl hm)

theorem drop (h : log.Heeds log₁) (hm : log.markers.size ≤ m.number ∨ log₁.isCommitted m = true) :
    log.Heeds (log₁.drop m) := by
  refine h.of_change (by simp) (fun _ hx => info?_drop_of_ne hx) (hm.imp_right fun hm => ⟨?_, ?_⟩)
  · rw [isCommitted_iff_stage?.1 hm]
    exact fun h => nomatch h
  · exact isCommitted_drop_self ..

theorem enclose (h : log.Heeds log₁) (m : Marker) (kind : Kind) (error : Option SyntaxError)
    (p : Nat) : log.Heeds (log₁.enclose m kind error p) :=
  (h.wrap m).commit h.size kind error p

/-- What was done since a marker was opened is taken back. -/
theorem rollback {p q : Nat} (hs : log.Sound) (h : (log.openAt p).2.Heeds log₁)
    (hc : (log.openAt p).2.Continues log₁) (hr : log₁.rollback log.fresh = some (q, log')) :
    log.Heeds log' := by
  have hcontinues := Continues.rollback hs hc hr
  refine ⟨hcontinues.size, fun x _ hx => ?_, fun x hx => ?_⟩
  · have hbrackets := ((hc.since log p hs (.intro hs p)).restore hs hr).2.1
    exact isCommitted_of_start_mem (hbrackets ▸ start_mem_brackets hcontinues.sound hx)
  · -- the entry of an open marker was there before, so it is not taken back
    have hne : log.fresh ≠ x := fresh_ne_of_lt (number_lt_of_stage? hx)
    have hopen : log₁.stage? x = some .opened :=
      h.opened x (by rwa [stage?, info?_openAt_of_ne hne])
    have hmem := hcontinues.entries.subset (hs.start_mem_of_opened hx)
    obtain ⟨hfresh, -, rfl⟩ := rollback_eq_some_iff.1 hr
    obtain ⟨later, hnot, hsplit⟩ := entries_unwind log₁.markers hfresh
    have hlater (e : Entry) (he : e ∈ later) : e.marker ≠ x := fun hem => by
      have hin : e ∈ log₁.entries := by
        rw [hsplit]
        exact List.mem_append_left _ he
      obtain rfl := eq_start_of_opened hc.sound hopen hin hem
      exact hc.sound.notMem_older hsplit he hmem
    have hinfo : (unwind log.fresh log₁.markers log₁.entries).info? x = log₁.info? x := by
      rw [hsplit]
      exact info?_unwind_of_ne hne hlater hnot
    rw [stage?, hinfo]
    exact hopen

end Heeds

end MarkerLog

open MarkerLog (Heeds)
open Session (fst_wrap log_wrap log_commit log_drop log_enclose)

namespace Session

variable {g : Setup} {s : Session} {m : Marker}

theorem size_openMarker (g : Setup) (s : Session) :
    (s.openMarker g).2.log.markers.size = s.log.markers.size + 1 :=
  MarkerLog.size_openAt s.log _

theorem heeds_enclose {log : MarkerLog} (h : log.Heeds s.log) (m : Marker) (kind : Kind)
    (error : Option SyntaxError) : log.Heeds (s.enclose m kind error).log := by
  rw [log_enclose]
  exact h.enclose m kind error s.position

/-- A node may be widened: what comes in its place is new. -/
theorem heeds_widen {log : MarkerLog} (h : log.Heeds s.log) (m : Marker) :
    log.Heeds (s.widen m).log := by
  rcases widen_cases m s with he | ⟨hm, kind, error, he⟩
  · rwa [he]
  · rw [he, log_drop, log_enclose]
    obtain ⟨info, hi, -⟩ := MarkerLog.isCommitted_iff.1 hm
    have hne := MarkerLog.fresh_ne_of_lt (MarkerLog.lt_size_of_info? hi)
    refine (h.enclose m kind error _).drop (.inr ?_)
    rw [MarkerLog.isCommitted, MarkerLog.stage?_enclose, if_neg (Ne.symm hne)]
    exact hm

end Session

/-- Grouping heeds the markers that are there. -/
theorem MarkerInvariant.heeds (g : Setup) (log : MarkerLog) :
    MarkerInvariant g (log.Heeds ·.log) (log.markers.size ≤ ·.number) fun _ => True where
  calm h hc := hc.log ▸ h
  openMarker h := ⟨h.openAt _, h.size⟩
  commitAs kind h hm _ := by
    rw [Session.commitAs, log_commit]
    exact h.commit hm kind none _
  drop h hm := h.drop (.inl hm)
  wrap h _ := by
    rw [log_wrap, fst_wrap]
    exact ⟨h.wrap _, h.size⟩

namespace Work

variable {allows : Modifiers → Bool} {g : Setup} {s s' s₁ : Session} {first : Option Marker}
  {x : Marker}

/-- Work heeds the markers that are there. -/
theorem heeds (h : Work allows g first s s') (hs : s.log.Sound) : s.log.Heeds s'.log := by
  induction h with
  | steady h =>
    rw [h.log]
    exact .refl _
  | trans h h' ih ih' | next h h' ih ih' =>
    exact (ih hs).trans (ih' (h.continues hs).sound)
  | @node s s₁ kind error h ih =>
    have hopen := (Heeds.refl s.log).openAt (g.significant s.position)
    have hin := hopen.trans (ih (Session.continues_openMarker hs g).sound)
    rw [log_commit]
    exact hin.commit (Nat.le_refl _) kind error _
  | @bare s _ h ih =>
    have hopen := (Heeds.refl s.log).openAt (g.significant s.position)
    have hin := hopen.trans (ih (Session.continues_openMarker hs g).sound)
    exact hin.drop (.inl (Nat.le_refl _))
  | @undone s s₁ h ih =>
    have hopened := (Session.continues_openMarker hs g).sound
    have hin := ih hopened
    rcases s₁.log_rollback (s.openMarker g).1 with he | ⟨q, hr⟩
    · rw [he]
      exact ((Heeds.refl s.log).openAt (g.significant s.position)).trans hin
    · exact hin.rollback hs (h.continues hopened) hr
  | rest h h' ih =>
    rw [h'.log]
    exact ih hs
  | fold kind _ ih | wrapLeft kind _ _ _ _ ih => exact Session.heeds_enclose (ih hs) _ kind none
  | forget _ ih => exact ih hs
  | absorb hm => exact (Heeds.refl _).drop (.inr (MarkerLog.isCommitted_of_lastCommitted? hm))
  | widen _ _ ih | widenLeft _ _ _ _ ih => exact Session.heeds_widen (ih hs) _
  | supply => exact .refl _
  | level _ ih | framed _ _ _ ih | hushed _ _ ih => exact ih hs
  | @delimited _ _ _ _ _ _ _ _ s _ _ hrun hhooks h ih =>
    have hsteps := ((@Session.Surroundings.invariant allows g s).and
      (MarkerLog.Continues.invariant g s.log)).steps.and (MarkerInvariant.heeds g s.log).steps
    have hbegin : s.Surroundings allows s := .of_eq rfl rfl rfl rfl rfl
    refine (hsteps.moves.groupRun ?_ ⟨⟨hbegin, .refl hs⟩, .refl _⟩ h trivial).2
    -- the hooks stay as they are, so whatever rule is run does work
    intro rule _ level t b t' ⟨⟨ht, hlog⟩, hheeds⟩ hr
    have hopen := ht.hooksOpen hhooks
    have hwork := hrun rule level t b t' hopen hr
    have hlog' := hwork.continues hlog.sound
    exact ⟨⟨⟨ht.trans hwork.surroundings, hlog.trans hlog'⟩,
      hheeds.trans (ih rule level t b t' hopen hr hlog.sound)⟩, fun _ hm => hm⟩

/-- A marker behind which work is done is still open. -/
theorem opened_openMarker (h : Work allows g first (s.openMarker g).2 s') (hs : s.log.Sound) :
    s'.log.stage? (s.openMarker g).1 = some .opened := by
  refine (h.heeds (Session.continues_openMarker hs g).sound).opened _ ?_
  exact (MarkerLog.stage?_openAt ..).trans (if_pos rfl)

theorem isCommitted_openMarker (h : Work allows g first (s.openMarker g).2 s') (hs : s.log.Sound) :
    s'.log.isCommitted (s.openMarker g).1 = false := by
  rw [MarkerLog.isCommitted, h.opened_openMarker hs]
  rfl

end Work

end Descent
