import Descent.Proofs.Session.Held

/-!
# Sections hold on to what is outside of them

Entering a section puts one frame on those that are there, and leaving it, with all that recovery may
skip and group meanwhile, takes this frame off again. So a balanced run, which is made of such
sections, ends with the frames and the marker that it began with (`BalancedRun.held`).
-/

namespace Descent

namespace Session

/-! ## What becomes of a marker, in two steps -/

/-- Lets a section keep a single fitting child in its place, which gives its kind to the node. -/
def absorbChild (g : Setup) (frame : Frame) (kind : Kind) (s : Session) : Kind × Session :=
  match if frame.modifiers.collapse then s.absorbable? g frame kind else none with
  | some child => ((s.log.kind? child).getD kind, (s.note (.childKept child)).drop child)
  | none => (kind, s)

/-- Commits the node of a section where its modifiers want it. -/
def placeNode (g : Setup) (frame : Frame) (m : Marker) (kind : Kind) (s : Session) : Session :=
  if frame.modifiers.upper then { s.drop m with frames := supplyKind kind s.frames }
  else
    match frame.leftNode with
    | some left =>
      if frame.modifiers.leftInner then (s.commitAs m kind).widen left
      else ((s.drop m).wrap left).2.commitAs ((s.drop m).wrap left).1 kind
    | none => (if frame.level = 0 then s.toSignificant g else s).commitAs m kind

theorem commitShaped_eq (g : Setup) (frame : Frame) (m : Marker) (kind : Kind) (s : Session) :
    s.commitShaped g frame m kind =
      (s.absorbChild g frame kind).2.placeNode g frame m (s.absorbChild g frame kind).1 :=
  rfl

/-- The marker that a section leaves, if any. -/
def leftMarker (g : Setup) (frame : Frame) (m : Marker) (keeps : Bool) (s : Session) :
    Option Marker × Frame × Session :=
  if frame.modifiers.looksAhead then s.endLookahead g frame m keeps else (some m, frame, s)

/-- Drops a marker, if there is one. -/
def dropAny (m? : Option Marker) (s : Session) : Session :=
  match m? with
  | some m => s.drop m
  | none => s

/-- Commits, drops or erases the marker that a section leaves. -/
def settleMarker (g : Setup) (frame : Frame) (m? : Option Marker) (kind : Option Kind)
    (stays : Bool) (s : Session) : Frame × Session :=
  if stays then
    match kind, m? with
    | some kind, some m => (frame, s.commitShaped g frame m kind)
    | _, m? =>
      match frame.leftNode with
      | some left =>
        (frame, if frame.modifiers.leftInner then (s.dropAny m?).widen left else s.dropAny m?)
      | none => (frame, s.dropAny m?)
  else
    match m? with
    | some m => s.eraseSection frame m
    | none => (frame, s)

theorem shapeSection_eq (g : Setup) (frame : Frame) (m : Marker) (kind : Option Kind)
    (stays : Bool) (s : Session) :
    s.shapeSection g frame m kind stays =
      let x := s.leftMarker g frame m (kind.isSome && stays)
      x.2.2.settleMarker g x.2.1 x.1 kind stays :=
  rfl

/-- Recovers if there is a condition for it, else reports for a section that was pinned. -/
def settleFrame (g : Setup) (run : Runner) (rounds : Nat) (frame : Frame) (kind : Option Kind)
    (result pinned : Bool) (condition : Option RuleRef) (initial lastError : Nat) (s : Session) :
    Option (Frame × Session) :=
  match condition with
  | some eatMore => s.recover g run rounds frame kind result pinned eatMore initial lastError
  | none =>
    some (if !result && pinned && frame.errorAt.isNone then
      s.reportPinned g frame kind initial lastError
    else (frame, s))

theorem settleErrors_eq (g : Setup) (run : Runner) (rounds : Nat) (frame : Frame)
    (kind : Option Kind) (result pinned : Bool) (eatMore : Option RuleRef) (s : Session) :
    s.settleErrors g run rounds frame kind result pinned eatMore =
      let x := s.attemptsByName g frame kind (result || pinned)
      let condition := if x.2.quiet || x.2.isAborted then none else eatMore
      (x.2.settleFrame g run rounds x.1 kind result pinned condition s.position
        x.1.errorPosition).bind fun y => some (y.2.modifyFrame (·.absorb y.1)) := by
  unfold settleErrors settleFrame
  dsimp only
  generalize s.attemptsByName g frame kind (result || pinned) = x
  cases x.2.quiet || x.2.isAborted <;> cases eatMore <;> rfl

/-- A section that is left recovers, or reports for having been pinned, or does neither. -/
theorem settleErrors_cases {g : Setup} {run : Runner} {rounds : Nat} {frame : Frame}
    {kind : Option Kind} {result pinned : Bool} {eatMore : Option RuleRef} {s s' : Session}
    (h : s.settleErrors g run rounds frame kind result pinned eatMore = some s') :
    let x := s.attemptsByName g frame kind (result || pinned)
    ∃ frame₁ t, s' = t.modifyFrame (·.absorb frame₁) ∧
      ((∃ rule, eatMore = some rule ∧ x.2.quiet = false ∧
          x.2.recover g run rounds x.1 kind result pinned rule s.position x.1.errorPosition =
            some (frame₁, t)) ∨
        (x.1.errorAt = none ∧ frame₁ = (x.2.reportPinned g x.1 kind s.position x.1.errorPosition).1 ∧
          t = (x.2.reportPinned g x.1 kind s.position x.1.errorPosition).2) ∨
        (frame₁ = x.1 ∧ t = x.2)) := by
  rw [settleErrors_eq] at h
  dsimp only at h ⊢
  generalize s.attemptsByName g frame kind (result || pinned) = x at h
  obtain ⟨⟨frame₁, t⟩, ht, h⟩ := Option.bind_eq_some_iff.1 h
  refine ⟨frame₁, t, (Option.some.inj h).symm, ?_⟩
  unfold settleFrame at ht
  split at ht
  · next rule hrule =>
    split at hrule
    · cases hrule
    · next hnot => exact .inl ⟨rule, hrule, by simp_all, ht⟩
  · have heq := Option.some.inj ht
    split at heq
    · next hpinned =>
      rw [heq]
      exact .inr (.inl ⟨by simp_all, rfl, rfl⟩)
    · cases heq
      exact .inr (.inr ⟨rfl, rfl⟩)

theorem attemptsByName_of_stays (g : Setup) (frame : Frame) (kind : Option Kind) (s : Session) :
    s.attemptsByName g frame kind true = (frame, s) := by
  unfold attemptsByName
  split <;> rfl

end Session

namespace Held

variable {g : Setup} {m x : Marker} {q : Bool} {base : List FrameShape} {s s' : Session}
  {run : Runner} {rounds level : Nat} {frame frame' : Frame} {kind : Option Kind}
  {result pinned : Bool} {eatMore : RuleRef} {initial lastError : Nat}

/-! ## Recovery -/

section
variable (hrun : run.Holds m)
include hrun

theorem reportSwallowing {p : Option Nat} (h : Held m q base s)
    (hr : s.reportSwallowing g run level = some (p, s')) : Held m q base s' := by
  unfold Session.reportSwallowing at hr
  split at hr
  · cases hr
    exact h
  · obtain ⟨hopen, hne⟩ := ((h.calm (.toSignificant g s)).calm (.note _ (.errorReported
      (s.toSignificant g).position ((s.toSignificant g).errorHere g
        ((s.toSignificant g).expectedHere g)) true false))).openMarker (g := g)
    obtain ⟨⟨b, t⟩, ht, hr⟩ := Option.bind_eq_some_iff.1 hr
    obtain ⟨-, rfl⟩ := Prod.mk.inj (Option.some.inj hr)
    exact ((hrun _ _ _ _ _ _ _ hopen ht).commit hne _ _).calm (.toSignificant g _)

theorem reportSwallowingFor {b : Bool} (h : Held m q base s)
    (hr : Session.reportSwallowingFor g run frame s = some (b, frame', s')) :
    Held m q base s' := by
  obtain ⟨⟨p, t⟩, ht, hr⟩ := Option.bind_eq_some_iff.1 hr
  have hheld := h.reportSwallowing hrun ht
  cases p with
  | some p => cases hr; exact hheld
  | none => cases hr; exact hheld

theorem skipRun {name : String} {more more' : Bool} {depth : Int} (h : Held m q base s)
    (hr : s.skipRun g run eatMore name level lastError rounds more depth = some (more', s')) :
    Held m q base s' :=
  Session.skipRun_keeps (fun rule _ level s b s' => hrun q base rule level s b s')
    (fun _ _ => calm) h hr

theorem groupRun {kind : Kind} {minds b : Bool} {item : RuleRef} (h : Held m q base s)
    (hr : s.groupRun g run rounds level kind minds item eatMore = some (b, s')) :
    Held m q base s' :=
  (invariant g m q base).groupRun (fun rule _ level s b s' => hrun q base rule level s b s') h hr
    trivial

theorem reportSkipped {eatsFirst more reported : Bool} (h : Held m q base s)
    (hr : s.reportSkipped g run rounds frame kind result pinned eatMore initial eatsFirst more =
      some (reported, frame', s')) : Held m q base s' :=
  Session.reportSkipped_keeps (fun rule _ level s b s' => hrun q base rule level s b s')
    (fun _ _ _ => h.reportSwallowingFor hrun) (fun _ _ _ h => h.groupRun hrun)
    (fun inner force => h.reportFor frame inner force) h hr

end

theorem map_resetCounts (fs : List Frame) :
    (Session.resetCounts fs).map Frame.shape = fs.map Frame.shape := by
  induction fs with
  | nil => rfl
  | cons f fs ih =>
    unfold Session.resetCounts
    split
    · rfl
    · simp [ih, Frame.shape]

theorem clearAttempts (h : Held m q base s) (frame : Frame) :
    Held m q base (s.clearAttempts frame).2 := by
  refine (h.calm (.attempts s s.attempts.clear)).setFrames ?_
  split
  · exact map_resetCounts s.frames
  · rfl

theorem recover (hrun : run.Holds m) (h : Held m false base s)
    (hr : s.recover g run rounds frame kind result pinned eatMore initial lastError =
      some (frame', s')) : Held m false base s' := by
  obtain ⟨eatsFirst, t, starts, more, u, reported, frame₁, v, last, ht, hu, hv, hlast, hend⟩ :=
    Session.exists_stages hr
  have h₁ := (h.setQuiet true).calm (.toSignificant g _)
  have h₂ : Held m true base t := by
    rcases ht with ⟨-, rfl⟩ | ht
    · exact h₁
    · exact hrun _ _ _ _ _ _ _ h₁ ht
  have h₃ := (h₂.skipRun hrun hu).calm (.note u (.skipped u.position lastError more))
  have h₄ := h₃.reportSkipped hrun hv
  have hne (x : Marker) (hx : last = some x) : x ≠ m :=
    h₂.rooted.ne_of_lastWidenable? (hlast x hx).2
  have h₅ := (h₄.widenOver hne frame₁.position).setQuiet false
  rcases hend with heq | heq
  · cases heq
    exact h₅
  · have hclear := h₅.clearAttempts frame₁
    rw [← heq] at hclear
    exact hclear

/-! ## Entering -/

theorem setLevel (h : Held m q base s) (level : Nat) : Held m q base { s with level } := { h with }

theorem setLookahead (h : Held m q base s) (lookahead : Lookahead) :
    Held m q base { s with lookahead } :=
  { h with }

theorem openFrame (h : Held m q base s) (level : Nat) (modifiers : Modifiers) (kind : Option Kind)
    (name : Option String) : ∃ f : FrameShape, f.level = level ∧ f.modifiers = modifiers ∧
      Held m q (f :: base) (s.openFrame g level modifiers kind name) := by
  have h₁ := (h.setLevel (s.level + 1)).calm (.toSignificant g _)
  generalize hs₁ : { s with level := s.level + 1 }.toSignificant g = s₁ at h₁
  have hleft (left : Option Marker) (hl : left =
      if modifiers.takesLeft && !s₁.frames.isEmpty then s₁.log.lastCommitted? else none) :
      left ≠ some m := by
    rintro rfl
    split at hl
    · exact h₁.rooted.ne_of_lastCommitted? hl.symm rfl
    · cases hl
  unfold Session.openFrame
  simp only [hs₁]
  generalize hf : (Frame.mk _ _ _ _ _ _ _ _ _ _) = frame
  have h₂ := h₁.setLookahead (s₁.lookahead.enter modifiers)
  refine ⟨frame.shape, by rw [← hf]; rfl, by rw [← hf]; rfl, ?_⟩
  have h₃ : Held m q base (if s₁.lookahead.admits modifiers then
      { s₁ with lookahead := s₁.lookahead.enter modifiers }
      else Session.abort g (.misplacedLookahead (s₁.offset g))
        { s₁ with lookahead := s₁.lookahead.enter modifiers }) := by
    split
    · exact h₂
    · exact h₂.calm (.abort g _ _)
  have h₄ := h₃.calm (.note _ (.sectionEntered frame))
  refine { h₄ with frames := ?_, left := ?_ }
  · exact congrArg (frame.shape :: ·) h₄.frames
  · refine List.forall_mem_cons.2 ⟨?_, h₄.left⟩
    rw [← hf]
    exact hleft _ rfl

theorem enter (h : Held m q base s) (level : Nat) (modifiers : Modifiers) (kind : Option Kind)
    (name : Option String) : (s.enter g level modifiers kind name).1 ≠ m ∧
      ∃ f : FrameShape, f.level = level ∧ f.modifiers = modifiers ∧
        Held m q (f :: base) (s.enter g level modifiers kind name).2 := by
  obtain ⟨ho, hne⟩ := h.reportAgain.openMarker (g := g)
  exact ⟨hne, ho.openFrame level modifiers kind name⟩

theorem enterSimple (h : Held m q base s) :
    Held m q base (s.enterSimple g).2 ∧ (s.enterSimple g).1 ≠ m :=
  (h.reportAgain.setLevel _).openMarker

/-! ## Leaving -/

theorem map_supplyKind (kind : Kind) (fs : List Frame) :
    (Session.supplyKind kind fs).map Frame.shape = fs.map Frame.shape := by
  induction fs with
  | nil => rfl
  | cons f fs ih =>
    unfold Session.supplyKind
    split
    · rfl
    · simp [ih]

theorem absorbChild (h : Held m q base s) (frame : Frame) (kind : Kind) :
    Held m q base (s.absorbChild g frame kind).2 := by
  unfold Session.absorbChild
  split
  · next child hchild =>
    have hlast : s.log.lastCommitted? = some child := by
      split at hchild
      · exact (Option.filter_eq_some_iff.1 hchild).1
      · cases hchild
    exact (h.calm (.note _ _)).drop (h.rooted.ne_of_lastCommitted? hlast)
  · exact h

theorem placeNode (h : Held m q base s) (hx : x ≠ m) (hleft : frame.leftNode ≠ some m)
    (kind : Kind) : Held m q base (s.placeNode g frame x kind) := by
  unfold Session.placeNode
  split
  · exact (h.drop hx).setFrames (map_supplyKind _ _)
  · split
    · next left hl =>
      have hne : left ≠ m := fun he => hleft (he ▸ hl)
      split
      · exact (h.commit hx _ none).widen hne
      · obtain ⟨hw, hparent⟩ := (h.drop hx).wrap hne
        exact hw.commit hparent _ none
    · split
      · exact (h.calm (.toSignificant g _)).commit hx _ none
      · exact h.commit hx _ none

theorem eraseSection (h : Held m q base s) (hx : x ≠ m) (frame : Frame) :
    Held m q base (s.eraseSection frame x).2 :=
  h.rollback hx

theorem shape_eraseSection (s : Session) (frame : Frame) (x : Marker) :
    (s.eraseSection frame x).1.shape = frame.shape := by
  unfold Session.eraseSection Frame.forgetErrorsAfter
  dsimp only
  split <;> rfl

theorem endLookahead (h : Held m q base s) (hx : x ≠ m) (frame : Frame) (keeps : Bool) :
    Held m q base (s.endLookahead g frame x keeps).2.2 ∧
      (s.endLookahead g frame x keeps).2.1.shape = frame.shape ∧
      (s.endLookahead g frame x keeps).1 ≠ some m := by
  have h₁ := (h.eraseSection hx frame).setLookahead
    ((s.eraseSection frame x).2.lookahead.leave (s.eraseSection frame x).1.modifiers)
  obtain ⟨ho, hne⟩ := h₁.openMarker (g := g)
  have hshape := shape_eraseSection s frame x
  unfold Session.endLookahead
  dsimp only
  refine ⟨?_, ?_, ?_⟩
  · cases keeps
    · exact h₁
    · exact ho
  · split
    · exact hshape
    · exact hshape
  · cases keeps
    · exact fun he => by cases he
    · exact fun he => hne (Option.some.inj he)

theorem leftMarker (h : Held m q base s) (hx : x ≠ m) (frame : Frame) (keeps : Bool) :
    Held m q base (s.leftMarker g frame x keeps).2.2 ∧
      (s.leftMarker g frame x keeps).2.1.shape = frame.shape ∧
      (s.leftMarker g frame x keeps).1 ≠ some m := by
  unfold Session.leftMarker
  split
  · exact h.endLookahead hx frame keeps
  · exact ⟨h, rfl, fun he => hx (Option.some.inj he)⟩

theorem settleMarker (h : Held m q base s) {m? : Option Marker} (hm : m? ≠ some m)
    (hleft : frame.leftNode ≠ some m) (kind : Option Kind) (stays : Bool) :
    Held m q base (s.settleMarker g frame m? kind stays).2 ∧
      (s.settleMarker g frame m? kind stays).1.shape = frame.shape := by
  have hne {x : Marker} (hx : m? = some x) : x ≠ m := fun he => hm (he ▸ hx)
  unfold Session.settleMarker
  split
  · split
    · next kind x =>
      rw [Session.commitShaped_eq]
      exact ⟨(h.absorbChild frame kind).placeNode (hne rfl) hleft _, rfl⟩
    · have hdrop : Held m q base (s.dropAny m?) := by
        cases m? with
        | some x => exact h.drop (hne rfl)
        | none => exact h
      split
      · next left hl =>
        have hleft' : left ≠ m := fun he => hleft (he ▸ hl)
        split
        · exact ⟨hdrop.widen hleft', rfl⟩
        · exact ⟨hdrop, rfl⟩
      · exact ⟨hdrop, rfl⟩
  · split
    · next x => exact ⟨h.eraseSection (hne rfl) frame, shape_eraseSection s frame x⟩
    · exact ⟨h, rfl⟩

theorem shapeSection (h : Held m q base s) (hx : x ≠ m) (hleft : frame.leftNode ≠ some m)
    (kind : Option Kind) (stays : Bool) :
    Held m q base (s.shapeSection g frame x kind stays).2 ∧
      (s.shapeSection g frame x kind stays).1.shape = frame.shape := by
  obtain ⟨h₁, hshape, hm⟩ := h.leftMarker (g := g) hx frame (kind.isSome && stays)
  have hleft' : (s.leftMarker g frame x (kind.isSome && stays)).2.1.leftNode ≠ some m := by
    rw [show Frame.leftNode _ = frame.leftNode from congrArg FrameShape.leftNode hshape]
    exact hleft
  obtain ⟨h₂, hshape₂⟩ := h₁.settleMarker (g := g) hm hleft' kind stays
  rw [Session.shapeSection_eq]
  exact ⟨h₂, hshape₂.trans hshape⟩

theorem attemptsByName (h : Held m q base s) (frame : Frame) (kind : Option Kind)
    (stays : Bool) : Held m q base (s.attemptsByName g frame kind stays).2 := by
  unfold Session.attemptsByName
  split
  · exact h
  · dsimp only
    generalize (if kind.isSome then g.limits.nameSlack else 0) = slack
    split
    · exact h.calm (.attempts s _)
    · exact h

theorem reportPinned (h : Held m q base s) (frame : Frame) (kind : Option Kind)
    (initial lastError : Nat) :
    Held m q base (s.reportPinned g frame kind initial lastError).2 := by
  unfold Session.reportPinned
  split
  · exact h.reportFor frame _ false
  · split
    · exact h
    · exact h

theorem settleErrors (hrun : run.Holds m) (h : Held m q base s) {eatMore : Option RuleRef}
    (hr : s.settleErrors g run rounds frame kind result pinned eatMore = some s') :
    Held m q base s' := by
  have h₁ := h.attemptsByName (g := g) frame kind (result || pinned)
  obtain ⟨frame₁, t, rfl, hcases⟩ := Session.settleErrors_cases hr
  have h₂ : Held m q base t := by
    obtain ⟨rule, -, hquiet, hrecover⟩ | ⟨-, -, rfl⟩ | ⟨-, rfl⟩ := hcases
    · obtain rfl : q = false := h₁.quiet.symm.trans hquiet
      exact h₁.recover hrun hrecover
    · exact h₁.reportPinned ..
    · exact h₁
  exact h₂.modifyFrame fun _ => rfl

theorem runLevelHooks (h : Held m q base s) {hook : HookRunner} {kind : Option Kind}
    (hr : s.runLevelHooks g hook rounds kind = some s') : Held m q base s' := by
  unfold Session.runLevelHooks at hr
  rw [h.hooks] at hr
  cases hr
  exact h

theorem leave (hrun : run.Holds m) {f : FrameShape} (h : Held m q (f :: base) s) (hx : x ≠ m)
    (hlevel : f.level = level) {hook : HookRunner} {eatMore : Option RuleRef}
    (hr : s.leave g run hook rounds level x kind result pinned eatMore = some s') :
    Held m q base s' := by
  unfold Session.leave at hr
  cases hframes : s.frames with
  | nil =>
    have hbase := h.frames
    simp [hframes] at hbase
  | cons frame frames =>
    obtain ⟨hshape, hrest⟩ : frame.shape = f ∧ frames.map Frame.shape = base := by
      simpa [hframes] using h.frames
    obtain ⟨hleft, hothers⟩ := List.forall_mem_cons.1 h.left
    have hframelevel : frame.level = level := (congrArg FrameShape.level hshape).trans hlevel
    have hframeleft : frame.leftNode ≠ some m := by
      rw [show frame.leftNode = f.leftNode from congrArg FrameShape.leftNode hshape]
      exact hleft
    have h₁ : Held m q base { s with frames } := { h with frames := hrest, left := hothers }
    simp only [hframes] at hr
    rw [if_pos hframelevel] at hr
    have h₂ := h₁.calm (.note _ (.sectionLeft frame result pinned))
    obtain ⟨h₃, -⟩ := h₂.shapeSection (g := g) hx hframeleft (frame.kind <|> kind)
      (result || pinned)
    obtain ⟨t, ht, hr⟩ := Option.bind_eq_some_iff.1 hr
    obtain ⟨u, hu, hr⟩ := Option.bind_eq_some_iff.1 hr
    cases hr
    exact ((h₃.settleErrors hrun ht).runLevelHooks hu).setLevel _

theorem leaveSimple (h : Held m q base s) (hx : x ≠ m) {hook : HookRunner}
    (hr : s.leaveSimple g hook rounds x kind result = some s') : Held m q base s' := by
  obtain ⟨t, ht, hr⟩ := Option.bind_eq_some_iff.1 hr
  cases hr
  refine (runLevelHooks ?_ ht).setLevel _
  split
  · cases kind with
    | some kind => exact h.commit hx kind none
    | none => exact h.drop hx
  · refine (h.modifyFrame fun f => ?_).rollback hx
    unfold Frame.forgetErrorsAfter
    split <;> rfl

end Held

/-- A balanced run holds on to the frames around it, and to a marker that was opened before them. -/
theorem BalancedRun.held {allows : Modifiers → Bool} {g : Setup} {m : Marker} {s s' : Session}
    (hrun : BalancedRun allows g s s') {q : Bool} {base : List FrameShape}
    (h : Held m q base s) : Held m q base s' := by
  induction hrun generalizing q base with
  | calm hc => exact h.calm hc
  | trans _ _ ih ih' => exact ih' (ih h)
  | report s => exact h.reportHere
  | attempt keeps _ ih =>
    obtain ⟨ho, hne⟩ := h.openMarker (g := g)
    have h₁ := ih ho
    cases keeps with
    | true => exact h₁.drop hne
    | false => exact h₁.rollback hne
  | group _ hgroup ih =>
    exact h.groupRun (fun q base rule level s b s' h hr => ih rule level s b s' hr h) hgroup
  | simple _ hleave ih =>
    obtain ⟨ho, hne⟩ := h.enterSimple (g := g)
    exact (ih ho).leaveSimple hne hleave
  | @framed run _ _ level modifiers early _ name _ _ _ _ _ _ _ _ _ hleave ihrun ih =>
    obtain ⟨hne, f, hlevel, -, ho⟩ := h.enter (g := g) level modifiers early name
    exact (ih ho).leave (fun q base rule level s b s' h hr => ihrun rule level s b s' hr h) hne
      hlevel hleave

end Descent
