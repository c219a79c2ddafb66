import Descent.Proofs.MarkerLog.Ascending
import Descent.Proofs.Session.WorkLog

/-!
# Positions along the log of a session

Every node of a session is committed at the current position, and one that is wrapped still has its
start: what grouping wraps are chunks of its own, which no rule takes back, or the node committed last.
So whatever work is done, with any modifiers, the positions of the log ascend up to the current one
(`Work.ascends`).
-/

namespace Descent

namespace Session

variable {g : Setup} {s : Session} {m : Marker}

/-- The positions of the log ascend up to the current one. -/
def Ascends (s : Session) : Prop := s.log.Ascends s.position

theorem Steady.ascends {s' : Session} (h : Steady s s') (hs : s.Ascends) : s'.Ascends := by
  rw [Ascends, h.log]
  exact hs.mono h.position

theorem ascends_openMarker (h : s.Ascends) (hs : s.log.Sound) (g : Setup) :
    (s.openMarker g).2.Ascends :=
  MarkerLog.Ascends.openAt h hs (g.le_significant s.position)

theorem position_commit (m : Marker) (kind : Kind) (error : Option SyntaxError) (s : Session) :
    (s.commit m kind error).position = s.position := by
  unfold commit
  split <;> rfl

theorem ascends_commit (h : s.Ascends) (hs : s.log.Sound) (m : Marker) (kind : Kind)
    (error : Option SyntaxError) : (s.commit m kind error).Ascends := by
  rw [Ascends, position_commit, log_commit]
  exact MarkerLog.Ascends.commit h hs m kind error

theorem ascends_drop (h : s.Ascends) (m : Marker) : (s.drop m).Ascends := MarkerLog.Ascends.drop h m

theorem ascends_enclose (h : s.Ascends) (hs : s.log.Sound) (hm : .start m ∈ s.log.entries)
    (kind : Kind) (error : Option SyntaxError) : (s.enclose m kind error).Ascends := by
  have hwrap : (s.wrap m).2.Ascends := by
    rw [Ascends, position_wrap, log_wrap]
    exact MarkerLog.Ascends.wrap h hs hm
  refine ascends_commit hwrap ?_ (s.wrap m).1 kind error
  rw [log_wrap]
  exact hs.wrap m

theorem ascends_widen (h : s.Ascends) (hs : s.log.Sound) (m : Marker) : (s.widen m).Ascends := by
  rcases widen_cases m s with he | ⟨hm, kind, error, he⟩
  · rw [he]
    exact h
  · rw [he]
    have hstart := hs.start_mem_of_committed (MarkerLog.isCommitted_iff_stage?.1 hm)
    exact ascends_drop (ascends_enclose h hs hstart kind error) m

theorem ascends_rollback (h : s.Ascends) (m : Marker) : (s.rollback m).Ascends := by
  unfold rollback
  split
  · next hr => exact MarkerLog.Ascends.rollback h hr
  · exact h

end Session

open Session

/-- A node that was committed last when a marker is opened has its start below that marker. -/
theorem MarkerLog.start_mem_of_lastCommitted? {g : Setup} {s : Session} {m : Marker}
    (hs : s.log.Sound) (hm : (s.openMarker g).2.log.lastCommitted? = some m) :
    .start m ∈ s.log.entries := by
  have hcommitted := isCommitted_of_lastCommitted? hm
  have hmem := (continues_openMarker hs g).sound.start_mem_of_committed
    (isCommitted_iff_stage?.1 hcommitted)
  refine (List.mem_cons.1 hmem).resolve_left fun he => ?_
  obtain rfl := Entry.start.inj he
  simp [isCommitted, stage?, info?, Session.openMarker, MarkerLog.openAt, fresh] at hcommitted

/-- Markers that have their start are opened, committed, dropped and wrapped in any order. -/
theorem Session.Ascends.steps (g : Setup) : MarkerSteps g (fun s => s.log.Sound ∧ s.Ascends)
    (fun s m => .start m ∈ s.log.entries) fun _ => True where
  calm hs hc := by
    have hlog := (Steady.calm hc).log
    exact ⟨⟨hlog ▸ hs.1, (Steady.calm hc).ascends hs.2⟩, fun _ hm => hlog ▸ hm⟩
  openMarker hs :=
    ⟨⟨⟨hs.1.openAt _, ascends_openMarker hs.2 hs.1 g⟩, fun _ hm => List.mem_cons_of_mem _ hm⟩,
      List.mem_cons_self⟩
  commitAs {s m} kind hs _ _ := by
    have hcommit := continues_commit hs.1 m kind none
    exact ⟨⟨hcommit.sound, ascends_commit hs.2 hs.1 m kind none⟩,
      fun _ hx => hcommit.entries.subset hx⟩
  drop {s m} hs _ := by
    have hdrop := MarkerLog.Continues.drop hs.1 m
    exact ⟨⟨hdrop.sound, ascends_drop hs.2 m⟩, fun _ hx => hdrop.entries.subset hx⟩
  wrap {s m} hs hm := by
    have hstart : .start m ∈ s.log.entries := hm.elim id fun hlast =>
      hs.1.start_mem_of_committed
        (MarkerLog.isCommitted_iff_stage?.1 (MarkerLog.isCommitted_of_lastCommitted? hlast))
    have hwrap := MarkerLog.Continues.wrap hs.1 m
    rw [← log_wrap] at hwrap
    refine ⟨⟨⟨hwrap.sound, ?_⟩, fun _ hx => hwrap.entries.subset hx⟩, ?_⟩
    · rw [Ascends, position_wrap, log_wrap]
      exact hs.2.wrap hs.1 hstart
    · rw [log_wrap, fst_wrap]
      exact MarkerLog.mem_insertStart.2 (.inl rfl)

namespace Work

variable {allows : Modifiers → Bool} {g : Setup} {s s' : Session} {first : Option Marker}

/-- Work keeps the positions ascending, and the node that it begins with has its start. -/
theorem ascends (h : Work allows g first s s') (hs : s.log.Sound) (hascends : s.Ascends) :
    s'.Ascends ∧ ∀ m, first = some m → .start m ∈ s'.log.entries := by
  induction h with
  | steady h => exact ⟨h.ascends hascends, fun _ he => nomatch he⟩
  | trans h _ ih ih' =>
    exact ⟨(ih' (h.continues hs).sound (ih hs hascends).1).1, fun _ he => nomatch he⟩
  | node kind error h ih =>
    have hopen := (continues_openMarker hs g).sound
    have hin := h.continues hopen
    refine ⟨ascends_commit (ih hopen (ascends_openMarker hascends hs g)).1 hin.sound _ kind error, ?_⟩
    rintro m ⟨⟩
    refine (continues_commit hin.sound _ kind error).entries.subset (hin.entries.subset ?_)
    exact List.mem_cons_self
  | bare h ih =>
    have hopen := (continues_openMarker hs g).sound
    exact ⟨ascends_drop (ih hopen (ascends_openMarker hascends hs g)).1 _, fun _ he => nomatch he⟩
  | undone h ih =>
    have hopen := (continues_openMarker hs g).sound
    exact ⟨ascends_rollback (ih hopen (ascends_openMarker hascends hs g)).1 _,
      fun _ he => nomatch he⟩
  | next h h' ih ih' =>
    obtain ⟨h₁, hm⟩ := ih hs hascends
    have hs₁ := (h.continues hs).sound
    refine ⟨(ih' hs₁ h₁).1, fun m he => (h'.continues hs₁).entries.subset (hm m he)⟩
  | rest h h' ih =>
    obtain ⟨h₁, hm⟩ := ih hs hascends
    rw [h'.log]
    exact ⟨h'.ascends h₁, hm⟩
  | @fold _ s₁ m kind h ih =>
    obtain ⟨h₁, hm⟩ := ih hs hascends
    have hs₁ := (h.continues hs).sound
    refine ⟨ascends_enclose h₁ hs₁ (hm m rfl) kind none, ?_⟩
    rintro _ ⟨⟩
    have hwrap : (s₁.wrap m).2.log.Sound := by
      rw [log_wrap]
      exact hs₁.wrap m
    refine (continues_commit hwrap _ kind none).entries.subset ?_
    rw [log_wrap, fst_wrap]
    exact MarkerLog.mem_insertStart.2 (.inl rfl)
  | forget _ ih => exact ⟨(ih hs hascends).1, fun _ he => nomatch he⟩
  | absorb _ => exact ⟨ascends_drop hascends _, fun _ he => nomatch he⟩
  | widen _ h ih =>
    exact ⟨ascends_widen (ih hs hascends).1 (h.continues hs).sound _, fun _ he => nomatch he⟩
  | wrapLeft kind _ _ hm h ih =>
    have hin := h.continues hs
    have hstart := hin.entries.subset (MarkerLog.start_mem_of_lastCommitted? hs hm)
    exact ⟨ascends_enclose (ih hs hascends).1 hin.sound hstart kind none, fun _ he => nomatch he⟩
  | widenLeft _ _ _ h ih =>
    exact ⟨ascends_widen (ih hs hascends).1 (h.continues hs).sound _, fun _ he => nomatch he⟩
  | supply => exact ⟨hascends, fun _ he => nomatch he⟩
  | level _ ih => exact ⟨(ih hs hascends).1, fun _ he => nomatch he⟩
  | framed _ _ _ ih => exact ⟨(ih hs hascends).1, fun _ he => nomatch he⟩
  | hushed _ _ ih => exact ⟨(ih hs hascends).1, fun _ he => nomatch he⟩
  | @delimited _ _ _ _ _ _ _ _ s _ _ hrun hhooks h ih =>
    refine ⟨?_, fun _ he => nomatch he⟩
    have hsteps :=
      (Ascends.steps g).and (@Surroundings.invariant allows g s).steps
    have hbegin : s.Surroundings allows s := .of_eq rfl rfl rfl rfl rfl
    refine (hsteps.moves.groupRun ?_ ⟨⟨hs, hascends⟩, hbegin⟩ h trivial).1.2
    -- the hooks stay as they are, so whatever rule is run does work
    intro rule _ level t b t' ⟨⟨ht, htascends⟩, hsurroundings⟩ hr
    have hopen := hsurroundings.hooksOpen hhooks
    have hwork := hrun rule level t b t' hopen hr
    have hlog := hwork.continues ht
    exact ⟨⟨⟨hlog.sound, (ih rule level t b t' hopen hr ht htascends).1⟩,
      hsurroundings.trans hwork.surroundings⟩, fun m hm => ⟨hlog.entries.subset hm.1, trivial⟩⟩

end Work

end Descent
