import Descent.Proofs.Session.GivenBack
import Descent.Proofs.Session.Tidy

/-!
# Sections mark their errors

A section may be entered where no error starts and none is marked ahead (`Session.Clear`). Then, if its
body keeps the session tidy, so does the section, whether its errors stay or are given back
(`Session.StaysTidy.leaveSimple`, `Session.StaysTidy.leave`).
-/

namespace Descent

namespace Session

variable {g : Setup} {s s' s₁ t u : Session} {mark mark' : Option Nat} {run : Runner}
  {rounds level lastError initial : Nat} {frame frame' : Frame} {kind : Option Kind}
  {result pinned : Bool}

/-! ## What becomes of a marker -/

theorem errorAt_attemptsByName (stays : Bool) (s : Session) :
    (s.attemptsByName g frame kind stays).1.errorAt = frame.errorAt := by
  unfold attemptsByName
  split
  · rfl
  · dsimp only
    generalize (if kind.isSome then g.limits.nameSlack else 0) = slack
    split
    · split <;> rfl
    · rfl

theorem reportPinned_tidy (hs : s.Tidy frame.errorAt) (hnone : frame.errorAt = none) :
    Onward s (s.reportPinned g frame kind initial lastError).2 ∧
      (s.reportPinned g frame kind initial lastError).2.Tidy
        (s.reportPinned g frame kind initial lastError).1.errorAt := by
  have hpast (hs' : s.isAborted = false) : s.PastErrors := by
    refine hs.pastErrors hs' ?_
    rw [hnone]
    exact Option.some_ne_none _ |>.symm
  unfold reportPinned
  split
  · have hreports := @reports_reportFor g frame (kind.isSome && !frame.modifiers.upper) false s
    exact ⟨hreports.onward, hreports.tidy hs hpast⟩
  · split
    · exact ⟨.refl s, hs.apart, hs.behind, fun hs' => .inr (hpast hs')⟩
    · exact ⟨.refl s, hs⟩

/-- What is reported when a section is left is marked in its frame, which is then merged into the one
around it. -/
theorem settleErrors_tidy {eatMore : Option RuleRef} (hs : s.Tidy frame.errorAt)
    (htests : ∀ rule, eatMore = some rule → run.Tests g.advancer ∧ run.Tests rule)
    (hr : s.settleErrors g run rounds frame kind result pinned eatMore = some s') :
    ∃ frame' u, s' = u.modifyFrame (·.absorb frame') ∧ Onward s u ∧ u.Tidy frame'.errorAt := by
  have hname := Silent.calm (Work.calm_attemptsByName (g := g) s frame kind (result || pinned))
  have hmark := @errorAt_attemptsByName g frame kind (result || pinned) s
  have hposition := Work.position_attemptsByName g s frame kind (result || pinned)
  obtain ⟨frame', u, rfl, hcases⟩ := settleErrors_cases hr
  generalize s.attemptsByName g frame kind (result || pinned) = y at hname hmark hposition hcases
  have hy : y.2.Tidy y.1.errorAt := hmark ▸ hs.silent hname
  have hsettled : Onward y.2 u ∧ u.Tidy frame'.errorAt := by
    obtain ⟨rule, hrule, -, hrecover⟩ | ⟨hnone, rfl, rfl⟩ | ⟨rfl, rfl⟩ := hcases
    · obtain ⟨hadvance, hmore⟩ := htests rule hrule
      rw [← hposition] at hrecover
      exact recover_tidy hadvance hmore hy hrecover
    · exact reportPinned_tidy hy hnone
    · exact ⟨.refl _, hy⟩
  exact ⟨frame', u, rfl, hname.toOnward.trans hsettled.1, hsettled.2⟩

theorem Silent.absorbChild (frame : Frame) (kind : Kind) (s : Session) :
    Silent s (s.absorbChild g frame kind).2 := by
  unfold Session.absorbChild
  split
  · exact (calm (.note s _)).trans (drop ..)
  · exact refl s

theorem Silent.placeNode (frame : Frame) (m : Marker) (kind : Kind) (s : Session) :
    Silent s (s.placeNode g frame m kind) := by
  unfold Session.placeNode
  split
  · exact (drop m s).trans (supplyKind kind _)
  · split
    · split
      · exact (commitAs m kind s).trans (widen ..)
      · exact (drop m s).trans ((wrap ..).trans (commitAs ..))
    · refine Silent.trans ?_ (commitAs ..)
      split
      · exact calm (.toSignificant g s)
      · exact refl s

/-- A section that stays brings no error when its marker is settled. -/
theorem Silent.exists_settleMarker (g : Setup) (frame : Frame) (m? : Option Marker)
    (kind : Option Kind) (s : Session) :
    ∃ u, s.settleMarker g frame m? kind true = (frame, u) ∧ Silent s u := by
  unfold Session.settleMarker
  rw [if_pos rfl]
  split
  · rw [commitShaped_eq]
    exact ⟨_, rfl, (absorbChild ..).trans (placeNode ..)⟩
  · split
    · refine ⟨_, rfl, ?_⟩
      split
      · exact (dropAny ..).trans (widen ..)
      · exact dropAny ..
    · exact ⟨_, rfl, dropAny ..⟩

/-- A section may be entered here: all errors start before the next token, and none is marked ahead,
so that entering reports none once more. -/
structure Clear (g : Setup) (s : Session) : Prop where
  past : (s.toSignificant g).PastErrors
  marked : ∀ p ∈ s.mark, p ≤ s.position

instance (s : Session) : Decidable s.PastErrors :=
  decidable_of_iff
    (∀ i : Fin s.log.markers.size, s.log.IsError ⟨i⟩ → s.log.start ⟨i⟩ < s.position) <| by
    refine ⟨fun h m hm => ?_, fun h i => h ⟨i⟩⟩
    obtain ⟨info, hi, -⟩ := MarkerLog.isCommitted_iff.1 hm.1
    exact h ⟨m.number, MarkerLog.lt_size_of_info? hi⟩ hm

instance (s : Session) : Decidable (s.Clear g) :=
  decidable_of_iff ((s.toSignificant g).PastErrors ∧ ∀ p ∈ s.mark, p ≤ s.position)
    ⟨fun h => ⟨h.1, h.2⟩, fun h => ⟨h.past, h.marked⟩⟩

/-- What was done since a marker was opened is given back, and the errors with it. -/
theorem errorsFrom_rollback (hlog : s.log.Sound) (hin : (s.openMarker g).2.log.Continues t.log) :
    s.log.ErrorsFrom (t.rollback (s.openMarker g).1).log := by
  have hsince := hin.since s.log (g.significant s.position) hlog (.intro hlog _)
  obtain ⟨q, log', hr⟩ := hsince.exists_rollback
  rw [rollback, show (s.openMarker g).1 = s.log.fresh from rfl, hr]
  exact MarkerLog.errorsFrom_rollback hlog hin hr

theorem marks_rollback (m : Marker) (s : Session) : (s.rollback m).marks = s.marks := by
  rw [rollback_eq]
  rfl

theorem isAborted_rollback (m : Marker) (s : Session) :
    (s.rollback m).isAborted = s.isAborted := by
  rw [rollback_eq]
  rfl

theorem Silent.rollback (hlog : s.log.Sound) (hin : (s.openMarker g).2.log.Continues t.log)
    (h : Onward (s.openMarker g).2 t) : Silent s (t.rollback (s.openMarker g).1) := by
  have hopen : Silent s (s.openMarker g).2 := .openMarker g s
  refine ⟨⟨?_, fun hs => ?_, ?_⟩, errorsFrom_rollback hlog hin⟩
  · exact Nat.le_trans hopen.position (Nat.le_of_eq (givesBack_rollback hlog hin).position.symm)
  · rw [isAborted_rollback]
    exact h.aborted (hopen.aborted hs)
  · rw [marks_rollback, h.marks, hopen.marks]

/-- If no error started where the marker was opened, none does now, whatever the mark. -/
theorem tidy_rollback (hlog : s.log.Sound) (hs : s.Tidy mark)
    (hpast : s.isAborted = false → (s.toSignificant g).PastErrors)
    (haborted : s.isAborted = true → t.isAborted = true)
    (hin : (s.openMarker g).2.log.Continues t.log) (mark' : Option Nat) :
    (t.rollback (s.openMarker g).1).Tidy mark' := by
  have hposition := (givesBack_rollback hlog hin).position
  have hstart : (s.toSignificant g).Tidy mark := hs.silent (.calm (.toSignificant g s))
  obtain ⟨place, hplace, -⟩ := errorsFrom_rollback hlog hin
  refine ⟨hs.apart.of_errorsFrom (errorsFrom_rollback hlog hin), fun m hm => ?_,
    fun ht => .inr fun m hm => ?_⟩
  · obtain ⟨hp, heq⟩ := hplace m hm
    rw [hposition, ← heq]
    exact hstart.behind _ hp
  · obtain ⟨hp, heq⟩ := hplace m hm
    rw [isAborted_rollback] at ht
    have hs' : s.isAborted = false := Bool.eq_false_iff.2 fun h =>
      Bool.eq_false_iff.1 ht (haborted h)
    rw [hposition, ← heq]
    exact hpast hs' _ hp

/-- A section that looks ahead is given back whether it stays or not. -/
theorem silent_leftMarker (hahead : frame.modifiers.looksAhead = true) (m : Marker) (keeps : Bool)
    (t : Session) : Silent (t.rollback m) (t.leftMarker g frame m keeps).2.2 ∧
      (keeps = false → (t.leftMarker g frame m keeps).1 = none) := by
  have hleave (lookahead : Lookahead) : Silent (t.rollback m) { t.rollback m with lookahead } :=
    .of_eq (.refl _) rfl rfl rfl
  unfold leftMarker
  rw [if_pos hahead]
  unfold endLookahead
  cases keeps with
  | true => exact ⟨(hleave _).trans (.openMarker g _), fun h => nomatch h⟩
  | false => exact ⟨hleave _, fun _ => rfl⟩

/-- What is left of a section, when its marker is settled, is tidy for its frame. -/
structure Settled (g : Setup) (s t : Session) (x : Frame × Session) : Prop where
  position : g.significant s.position ≤ x.2.position
  aborted : t.isAborted = true → x.2.isAborted = true
  marks : x.2.marks = t.marks
  tidy : x.2.Tidy x.1.errorAt

theorem Settled.silent (h : Settled g s t (frame, u)) (h' : Silent u s') :
    Settled g s t (frame, s') where
  position := Nat.le_trans h.position h'.position
  aborted := h'.aborted ∘ h.aborted
  marks := h'.marks.trans h.marks
  tidy := h.tidy.silent h'

/-- The marker of a section is settled without a report, in the state in which the section is left or in
the one that it is rolled back to. -/
theorem Silent.exists_shapeSection (g : Setup) (frame : Frame) (m : Marker) (kind : Option Kind)
    (stays : Bool) (t : Session) : ∃ frame' v, t.shapeSection g frame m kind stays = (frame', v) ∧
      (frame' = frame ∧ Silent t v ∨ Silent (t.rollback m) v) := by
  rw [shapeSection_eq]
  by_cases hahead : frame.modifiers.looksAhead = true
  · obtain ⟨hleft, hnone⟩ := silent_leftMarker (g := g) hahead m (kind.isSome && stays) t
    generalize t.leftMarker g frame m (kind.isSome && stays) = x at hleft hnone
    obtain ⟨m?, frame', u⟩ := x
    cases stays with
    | true =>
      obtain ⟨v, heq, hsilent⟩ := Silent.exists_settleMarker g frame' m? kind u
      exact ⟨frame', v, heq, .inr (hleft.trans hsilent)⟩
    | false =>
      obtain rfl : m? = none := hnone (Bool.and_false _)
      exact ⟨frame', u, rfl, .inr hleft⟩
  · have hleft : t.leftMarker g frame m (kind.isSome && stays) = (some m, frame, t) := if_neg hahead
    rw [hleft]
    cases stays with
    | true =>
      obtain ⟨v, heq, hsilent⟩ := Silent.exists_settleMarker g frame (some m) kind t
      exact ⟨frame, v, heq, .inl ⟨rfl, hsilent⟩⟩
    | false => exact ⟨_, t.rollback m, rfl, .inr (.refl _)⟩

/-- The marker of a section is settled that was opened in `s` and is left in `t`. -/
theorem settled_shapeSection (hlog : s.log.Sound) (hs : s.Tidy mark)
    (hpast : s.isAborted = false → (s.toSignificant g).PastErrors)
    (haborted : s.isAborted = true → t.isAborted = true)
    (hin : (s.openMarker g).2.log.Continues t.log) (hposition : g.significant s.position ≤ t.position)
    (ht : t.Tidy frame.errorAt) (kind : Option Kind) (stays : Bool) :
    Settled g s t (t.shapeSection g frame (s.openMarker g).1 kind stays) := by
  obtain ⟨frame', v, heq, ⟨rfl, hsilent⟩ | hsilent⟩ :=
    Silent.exists_shapeSection g frame (s.openMarker g).1 kind stays t
  · have hstays : Settled g s t (frame', t) := ⟨hposition, id, rfl, ht⟩
    rw [heq]
    exact hstays.silent hsilent
  · have hback : Settled g s t (frame', t.rollback (s.openMarker g).1) := by
      refine ⟨Nat.le_of_eq (givesBack_rollback hlog hin).position.symm, fun h => ?_,
        marks_rollback _ t, tidy_rollback hlog hs hpast haborted hin frame'.errorAt⟩
      rw [isAborted_rollback]
      exact h
    rw [heq]
    exact hback.silent hsilent

/-! ## Sections -/

/-- A tidy session was come to, and the sections around the innermost one have the marks that they
had. -/
structure StaysTidy (s s' : Session) : Prop where
  position : s.position ≤ s'.position
  aborted : s.isAborted = true → s'.isAborted = true
  outer : s'.marks.tail = s.marks.tail
  tidy : s'.Tidy s'.mark

namespace StaysTidy

theorem trans (h : StaysTidy s s₁) (h' : StaysTidy s₁ s') : StaysTidy s s' :=
  ⟨Nat.le_trans h.position h'.position, h'.aborted ∘ h.aborted, h'.outer.trans h.outer, h'.tidy⟩

theorem silent (hs : s.Tidy s.mark) (h : Silent s s') : StaysTidy s s' := by
  refine ⟨h.position, h.aborted, congrArg List.tail h.marks, ?_⟩
  rw [mark, h.marks]
  exact hs.silent h

end StaysTidy

theorem mark_eq {fs : List Frame} (hframes : s.frames = frame :: fs) : s.mark = frame.errorAt := by
  rw [mark, marks, hframes]
  rfl

theorem mark_modifyFrame (f : Frame → Frame) {fs : List Frame} (hframes : s.frames = frame :: fs) :
    (s.modifyFrame f).mark = (f frame).errorAt := by
  rw [mark, marks, modifyFrame, hframes]
  rfl

theorem tail_marks_modifyFrame (f : Frame → Frame) (s : Session) :
    (s.modifyFrame f).marks.tail = s.marks.tail := by
  unfold modifyFrame marks
  cases s.frames <;> rfl

/-- What is marked in the frame of a section is reported no second time. -/
theorem staysTidy_reportHere (hs : s.Tidy s.mark) (hframes : s.frames ≠ []) :
    StaysTidy s (s.reportHere g) := by
  have hnext := StaysTidy.silent hs (.calm (.toSignificant g s))
  unfold reportHere
  dsimp only
  split
  · next h => exact absurd h hframes
  · next f fs hfs =>
    split
    · next hreport =>
      refine hnext.trans ?_
      have hstart : (s.toSignificant g).Tidy f.errorAt := mark_eq hfs ▸ hnext.tidy
      have hreports := reports_report (g := g) f.errorAt f.position false true (s.toSignificant g)
      have htidy := hreports.tidy hstart fun hs' => by
        refine hstart.pastErrors hs' fun heq => ?_
        simp [Frame.hasErrorFrom, heq] at hreport
      obtain ⟨hposition, haborted, hmarks⟩ := hreports.onward
      have hnil := hreports.onward.frames_ne_nil hframes
      unfold reportInFrame
      generalize (s.toSignificant g).report g f.position false true = x at *
      obtain ⟨_ | p, u⟩ := x
      · refine ⟨hposition, haborted, congrArg List.tail hmarks, ?_⟩
        rw [mark, hmarks, ← mark, mark_eq hfs]
        exact htidy
      · obtain ⟨f', fs', hfs'⟩ := List.exists_cons_of_ne_nil hnil
        refine ⟨hposition, haborted,
          (tail_marks_modifyFrame _ u).trans (congrArg List.tail hmarks), ?_⟩
        rw [mark_modifyFrame _ hfs']
        exact htidy.congr rfl rfl id
    · exact hnext

/-- Where a section may be entered nothing is reported once more. -/
theorem reportAgain_eq (h : s.isAborted = false → s.Clear g) : s.reportAgain g = s := by
  unfold reportAgain
  split
  · rfl
  · next hnot =>
    have hs : s.isAborted = false := by
      cases hs : s.isAborted with
      | false => rfl
      | true => simp [hs] at hnot
    split
    · rfl
    · next f fs hfs =>
      split
      · next hafter =>
        have hmark : s.mark = f.errorAt := mark_eq hfs
        unfold Frame.hasErrorAfter at hafter
        cases hf : f.errorAt with
        | none =>
          rw [hf] at hafter
          cases hafter
        | some p =>
          rw [hf] at hafter
          exact absurd ((h hs).marked p (hmark.trans hf)) (Nat.not_le.2 (of_decide_eq_true hafter))
      · rfl

theorem tidy_openMarker (hs : s.Tidy mark)
    (hpast : s.isAborted = false → (s.toSignificant g).PastErrors) (mark' : Option Nat) :
    (s.openMarker g).2.Tidy mark' := by
  have hopened := hs.silent (.openMarker g s)
  have hsilent : Silent (s.toSignificant g) (s.openMarker g).2 :=
    .of_eq (MarkerLog.errorsFrom_openAt _ _) rfl rfl rfl
  exact ⟨hopened.apart, hopened.behind, fun hs' => .inr (hsilent.pastErrors (hpast hs'))⟩

/-- The frame of a section is put up without a mark. -/
theorem exists_enter (level : Nat) (modifiers : Modifiers) (early : Option Kind)
    (name : Option String) (s : Session) :
    ∃ t frame, (s.enter g level modifiers early name).2 = { t with frames := frame :: t.frames } ∧
      frame.errorAt = none ∧ Silent ((s.entering g).openMarker g).2 t := by
  unfold enter openFrame
  dsimp only
  generalize hf : (Frame.mk _ _ _ _ _ _ _ _ _ _) = frame
  refine ⟨_, frame, rfl, by rw [← hf], ?_⟩
  refine Silent.trans ?_ (.calm (.note _ _))
  have hopened (lookahead : Lookahead) : Silent ((s.entering g).openMarker g).2
      { ((s.entering g).openMarker g).2.toSignificant g with lookahead } :=
    (Silent.calm (.toSignificant g _)).trans (.of_eq (.refl _) rfl rfl rfl)
  split
  · exact hopened _
  · exact (hopened _).trans (.calm (.abort g _ _))

section
variable {allows : Modifiers → Bool} {hook : HookRunner} {s₂ : Session} {modifiers : Modifiers}
  {early : Option Kind} {name : Option String} (hclear : s.isAborted = false → s.Clear g)
include hclear

theorem entering_eq : s.entering g = { s with level := s.level + 1 } := by
  rw [entering, reportAgain_eq hclear]

theorem silent_entering : Silent s (s.entering g) := by
  rw [entering_eq hclear]
  exact .of_eq (.refl _) rfl rfl rfl

theorem pastErrors_entering (h : (s.entering g).isAborted = false) :
    ((s.entering g).toSignificant g).PastErrors := by
  rw [entering_eq hclear] at h ⊢
  exact (hclear h).past

/-- Inside a section no error starts where it was entered, whatever the mark. -/
theorem tidy_entered (hs : s.Tidy s.mark) (mark' : Option Nat) :
    ((s.entering g).openMarker g).2.Tidy mark' :=
  tidy_openMarker (hs.silent (silent_entering hclear)) (pastErrors_entering hclear) mark'

theorem tidy_enter (hs : s.Tidy s.mark) :
    (s.enter g level modifiers early name).2.Tidy
      (s.enter g level modifiers early name).2.mark := by
  obtain ⟨t, frame, henter, hnone, ht⟩ := exists_enter (g := g) level modifiers early name s
  rw [henter, mark_eq rfl, hnone]
  exact ((tidy_entered hclear hs none).silent ht).congr rfl rfl id

/-- A section without a frame leaves its errors to the section around, or gives them back. -/
theorem StaysTidy.leaveSimple (hs : s.Regular) (htidy : s.Tidy s.mark)
    (hwork : Work allows g none (s.enterSimple g).2 s₁) (hbody : StaysTidy (s.enterSimple g).2 s₁)
    (hleave : s₁.leaveSimple g hook rounds (s.enterSimple g).1 kind result = some s₂) :
    StaysTidy s s₂ := by
  have hclosed := Work.closeMarker hwork kind result
  rw [leaveSimple_eq] at hleave
  obtain ⟨u, hu, hleave⟩ := Option.bind_eq_some_iff.1 hleave
  obtain rfl := Option.some.inj hleave
  have hcalm := Work.calm_runLevelHooks (Work.hooks_lt_of_work hs.hooks hclosed) hu
  have hend : Silent (s₁.closeMarker (s.enterSimple g).1 kind result) u.closeLevel :=
    (Silent.calm hcalm).trans (.of_eq (.refl _) rfl rfl rfl)
  have henter : Silent s (s.enterSimple g).2 := (silent_entering hclear).trans (.openMarker g _)
  have hinside := (StaysTidy.silent htidy henter).trans hbody
  suffices hclose : StaysTidy s (s₁.closeMarker (s.enterSimple g).1 kind result) from
    hclose.trans (.silent hclose.tidy hend)
  cases result with
  | true =>
    refine hinside.trans (.silent hinside.tidy ?_)
    unfold closeMarker
    cases kind with
    | some kind => exact .commitAs ..
    | none => exact .drop ..
  | false =>
    have hsound : (s.entering g).log.Sound := (Regular.entering hs).log
    have hin : ((s.entering g).openMarker g).2.log.Continues s₁.log :=
      hwork.continues (hsound.openAt _)
    have haborted (h : (s.entering g).isAborted = true) : s₁.isAborted = true :=
      hbody.aborted ((Silent.openMarker g _).aborted h)
    unfold closeMarker
    rw [if_neg Bool.false_ne_true]
    generalize (fun frame : Frame => frame.forgetErrorsAfter (s₁.log.start (s.enterSimple g).1)
      (s₁.frames.tail.head?.bind (·.errorAt))) = forget
    refine ⟨?_, fun h => ?_, ?_, tidy_rollback (t := s₁.modifyFrame forget) hsound
      (htidy.silent (silent_entering hclear)) (pastErrors_entering hclear) haborted hin _⟩
    · have hback := givesBack_rollback (t := s₁.modifyFrame forget) hsound hin
      exact Nat.le_trans henter.position (Nat.le_of_eq hback.position.symm)
    · rw [isAborted_rollback]
      exact hinside.aborted h
    · rw [marks_rollback, tail_marks_modifyFrame]
      exact hinside.outer

/-- A section with a frame is left by settling its errors in the frame, which is merged into the one
around it. -/
theorem exists_settled {eatMore : Option RuleRef} (hs : s.Regular) (htidy : s.Tidy s.mark)
    (hallows : allows modifiers = true) (hrun : run.Works allows g)
    (htests : ∀ rule, eatMore = some rule → run.Tests g.advancer ∧ run.Tests rule)
    (hwork : Work allows g none (s.enter g level modifiers early name).2 s₁)
    (hbody : StaysTidy (s.enter g level modifiers early name).2 s₁)
    (hleave : s₁.leave g run hook rounds level (s.enter g level modifiers early name).1 kind result
      pinned eatMore = some s₂) :
    ∃ frame w, Onward s w ∧ w.Tidy frame.errorAt ∧ Silent (w.modifyFrame (·.absorb frame)) s₂ := by
  obtain ⟨f, fs, hfs, hf, hshape⟩ := Work.exists_shape hallows hwork kind result pinned
  have hlevel : f.level = level := hf.level
  rw [leave_eq hfs hlevel] at hleave
  obtain ⟨t, ht, hleave⟩ := Option.bind_eq_some_iff.1 hleave
  obtain ⟨u, hu, hleave⟩ := Option.bind_eq_some_iff.1 hleave
  obtain rfl := Option.some.inj hleave
  have hopen := hshape.hooksOpen (Work.hooksOpen_entering hs.hooks)
  have hcalm := Work.calm_runLevelHooks
    (Work.hooks_lt_of_work hs.hooks (hshape.trans (Work.settleErrors hrun hopen ht))) hu
  have hend : Silent t u.closeLevel := (Silent.calm hcalm).trans (.of_eq (.refl _) rfl rfl rfl)
  have hsound : (s.entering g).log.Sound := (Regular.entering hs).log
  have hin : ((s.entering g).openMarker g).2.log.Continues s₁.log := by
    rw [← log_enter g level modifiers early name s]
    refine hwork.continues ?_
    rw [log_enter]
    exact hsound.openAt _
  obtain ⟨v, frame, henter, -, hv⟩ := exists_enter (g := g) level modifiers early name s
  have hentering := silent_entering hclear
  have hposition := position_enter g level modifiers early name s
  rw [henter] at hbody hposition
  have haborted (h : (s.entering g).isAborted = true) : s₁.isAborted = true :=
    hbody.aborted (hv.aborted ((Silent.openMarker g _).aborted h))
  -- the marks around are as before
  have hmarks : fs.map (·.errorAt) = s.marks := by
    have houter : s₁.marks.tail = v.marks := hbody.outer
    rw [marks, hfs] at houter
    exact houter.trans (hentering.trans ((Silent.openMarker g _).trans hv)).marks
  let inside := { s₁ with frames := fs }.note (.sectionLeft f result pinned)
  have hinside : inside.Tidy f.errorAt := by
    rw [← mark_eq hfs]
    exact hbody.tidy.congr rfl rfl id
  obtain ⟨hreached, hstill, hsame, hsettled⟩ := settled_shapeSection (t := inside) hsound
    (htidy.silent hentering) (pastErrors_entering hclear) haborted hin
    (hposition ▸ hbody.position) hinside (f.kind <|> kind) (result || pinned)
  obtain ⟨frame', w, rfl, hw, hlast⟩ := settleErrors_tidy hsettled htests ht
  refine ⟨frame', w, ⟨?_, fun h => ?_, hw.marks.trans (hsame.trans hmarks)⟩, hlast, hend⟩
  · exact Nat.le_trans hentering.position
      (Nat.le_trans (g.le_significant _) (Nat.le_trans hreached hw.position))
  · exact hw.aborted (hstill (haborted (hentering.aborted h)))

/-- Such a section hands its mark on when it is left. -/
theorem StaysTidy.leave {eatMore : Option RuleRef} (hs : s.Regular) (hframes : s.frames ≠ [])
    (htidy : s.Tidy s.mark) (hallows : allows modifiers = true) (hrun : run.Works allows g)
    (htests : ∀ rule, eatMore = some rule → run.Tests g.advancer ∧ run.Tests rule)
    (hwork : Work allows g none (s.enter g level modifiers early name).2 s₁)
    (hbody : StaysTidy (s.enter g level modifiers early name).2 s₁)
    (hleave : s₁.leave g run hook rounds level (s.enter g level modifiers early name).1 kind result
      pinned eatMore = some s₂) : StaysTidy s s₂ := by
  obtain ⟨frame, w, hw, hsettled, hend⟩ :=
    exists_settled hclear hs htidy hallows hrun htests hwork hbody hleave
  suffices hmerged : StaysTidy s (w.modifyFrame (·.absorb frame)) from
    hmerged.trans (.silent hmerged.tidy hend)
  obtain ⟨p, ps, hps⟩ := List.exists_cons_of_ne_nil (hw.frames_ne_nil hframes)
  refine ⟨hw.position, hw.aborted, ?_, ?_⟩
  · rw [tail_marks_modifyFrame, hw.marks]
  · have hmark : p.errorAt = s.mark := by
      rw [← mark_eq hps, mark, hw.marks, ← mark]
    rw [mark_modifyFrame _ hps]
    refine ⟨hsettled.apart, hsettled.behind, fun h => (hsettled.marked h).imp_left fun heq => ?_⟩
    -- the section around has marked nothing further ahead
    have hs' : s.isAborted = false := Bool.eq_false_iff.2 fun hs' =>
      Bool.eq_false_iff.1 h (hw.aborted hs')
    show later p.errorAt frame.errorAt = _
    rw [heq, hmark]
    cases hm : s.mark with
    | none => rfl
    | some q =>
      have hle := Nat.le_trans ((hclear hs').marked q hm) hw.position
      exact congrArg some (Nat.max_eq_right hle)

end

end Session

end Descent
