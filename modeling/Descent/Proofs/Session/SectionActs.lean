import Descent.Proofs.Session.Acts
import Descent.Proofs.Session.MirrorSections

/-!
# Acts of recovery and of sections

Recovery, the opening and the leaving of sections are made of acts, one function after the other, and
two runners that answer alike wherever acts lead to cannot be told apart by them
(`Session.Acts.leave`). The same goes for the hooks that are run when a section is left.
-/

namespace Descent

theorem Frame.InBounds.forgetErrorsAfter {g : Setup} {f : Frame} (h : f.InBounds g) (start : Nat)
    (fallback : Option Nat) : (f.forgetErrorsAfter start fallback).InBounds g := by
  unfold Frame.forgetErrorsAfter
  split
  · exact { h with }
  · exact h

namespace Session

/-- A frame is put up in a context that admits it, or the session ends first. -/
theorem openFrame_putFrame (g : Setup) (level : Nat) (modifiers : Modifiers) (kind : Option Kind)
    (name : Option String) (s : Session) :
    s.openFrame g level modifiers kind name =
      let u := { s with level := s.level + 1 }.toSignificant g
      let frame := u.newFrame g level modifiers kind name
      let v := if u.lookahead.admits modifiers then u
        else u.abort g (.misplacedLookahead frame.offset)
      (v.putFrame frame).note (.sectionEntered frame) := by
  rw [openFrame_eq]
  generalize { s with level := s.level + 1 }.toSignificant g = u
  dsimp only
  split
  · rfl
  · unfold abort isAborted
    dsimp only
    split <;> rfl

namespace Acts

variable {g : Setup} {paired : Bool} {s s' t : Session} {m : Marker} {frame : Frame}

/-! ## Entering -/

theorem openFrame (level : Nat) (modifiers : Modifiers) (kind : Option Kind)
    (name : Option String) (s : Session) :
    s.Acts g paired (s.openFrame g level modifiers kind name) := by
  have hbegin : s.Acts g paired ({ s with level := s.level + 1 }.toSignificant g) :=
    .still ((Still.level s _).trans (.toSignificant _))
  rw [openFrame_putFrame]
  generalize { s with level := s.level + 1 }.toSignificant g = u at hbegin
  dsimp only
  have hadmit : u.Acts g paired (if u.lookahead.admits modifiers then u
      else u.abort g (.misplacedLookahead (u.newFrame g level modifiers kind name).offset)) := by
    split
    · exact refl u
    · next h => exact .abort _ u fun _ _ => ⟨modifiers, Bool.eq_false_iff.2 h⟩
  have hposition (v : Session) (h : u.Acts g paired v) (hv : v.InBounds g → u.position ≤ g.source.size) :
      u.Acts g paired (v.putFrame (u.newFrame g level modifiers kind name)) :=
    h.trans (.put _ v fun hb => ⟨hv hb, fun _ hp => nomatch hp⟩)
  refine hbegin.trans (.trans (hposition _ hadmit fun hb => ?_) (.still (.note _ rfl)))
  refine Nat.le_trans ?_ hb.position
  split
  · exact Nat.le_refl _
  · exact (Calm.abort g u _).position

theorem enter (g : Setup) (level : Nat) (modifiers : Modifiers) (kind : Option Kind)
    (name : Option String) (s : Session) :
    s.Acts g paired (s.enter g level modifiers kind name).2 :=
  ((reportAgain g s).trans (.openMarker _)).trans (openFrame ..)

theorem enterSimple (g : Setup) (s : Session) : s.Acts g paired (s.enterSimple g).2 :=
  ((reportAgain g s).trans (.still (.level _ _))).trans (.openMarker (s.entering g))

/-! ## Recovery -/

section
variable {s₀ : Session} {run run' : Runner} (hs₀ : s₀.InBounds g) (hrun : run.Acts g paired)
  (hsame : ∀ rule level t, s₀.Acts g paired t → run' rule level t = run rule level t)
  {rounds level lastError initial : Nat} {kind : Option Kind} {result pinned more : Bool}
  {eatMore : RuleRef}
include hs₀ hrun hsame

theorem reportSwallowing (hs : s₀.Acts g paired s) :
    Concur (fun y => s₀.Acts g paired y.2) (s.reportSwallowing g run level)
      (s.reportSwallowing g run' level) := by
  unfold Session.reportSwallowing
  refine .ite (fun _ => .some hs) fun haborted => ?_
  dsimp only [Option.bind_eq_bind]
  generalize herror : (s.toSignificant g).errorHere g _ = error
  generalize hnoted : (s.toSignificant g).note _ = noted
  have hnote : s.Acts g paired noted := by
    rw [← hnoted, ← herror]
    exact (seek g s).trans (.reported _ _ _ (Bool.eq_false_iff.2 haborted)
      (significant_significant g s.position))
  have hopen : noted.Acts g paired (noted.openMarker g).2 := .openMarker noted
  refine (answer hs₀ hrun hsame g.advancer level ((hs.trans hnote).trans hopen)).bind
    fun y _ hy => .some ?_
  have hmem : .errorReported (s.toSignificant g).position error true false ∈ noted.trace := by
    rw [← hnoted]
    exact List.mem_cons_self
  have hseen : y.2.HasSeen error :=
    (hopen.trans hy.2).hasSeen (herror ▸ LeadsTo.errorHere_isSyntaxError ..) hmem
  exact (hy.1.trans (commitError _ hseen)).trans (seek ..)

theorem reportSwallowingFor (hframe : frame.InBounds g) (hs : s₀.Acts g paired s) :
    Concur (fun y => s₀.Acts g paired y.2.2 ∧ y.2.1.InBounds g)
      (s.reportSwallowingFor g run frame) (s.reportSwallowingFor g run' frame) := by
  refine (reportSwallowing hs₀ hrun hsame hs).bind fun y _ hy => ?_
  obtain ⟨p, t⟩ := y
  cases p with
  | some p => exact .some ⟨hy, { hframe with }⟩
  | none => exact .some ⟨hy, hframe⟩

theorem skipRun {name : String} {depth : Int} (hs : s₀.Acts g paired s) :
    Concur (fun y => s₀.Acts g paired y.2)
      (s.skipRun g run eatMore name level lastError rounds more depth)
      (s.skipRun g run' eatMore name level lastError rounds more depth) := by
  induction rounds generalizing s more depth with
  | zero => exact ⟨rfl, fun _ he => by cases he⟩
  | succ rounds ih =>
    have hseek := hs.trans (seek g s)
    simp only [Session.skipRun, Option.bind_eq_bind]
    refine .ite (fun _ => ?_) fun _ => .some hs
    refine .ite (fun _ => .some hseek) fun _ => ?_
    refine (answer hs₀ hrun hsame g.advancer level hseek).bind fun y _ hy => ?_
    refine .ite (fun _ => .some ?_) fun _ => ?_
    · exact hy.1.trans ((seek g y.2).trans (.abort _ _ fun _ he => by cases he))
    · exact (answer hs₀ hrun hsame eatMore level hy.1).bind fun z _ hz => ih hz.1

theorem reportSkipped {eatsFirst : Bool} (hframe : frame.InBounds g) (hs : s₀.Acts g paired s) :
    Concur (fun y => s₀.Acts g paired y.2.2 ∧ y.2.1.InBounds g)
      (s.reportSkipped g run rounds frame kind result pinned eatMore initial eatsFirst more)
      (s.reportSkipped g run' rounds frame kind result pinned eatMore initial eatsFirst more) := by
  have hfor (inner force : Bool) : s₀.Acts g paired (s.reportFor g frame inner force).2.2 ∧
      (s.reportFor g frame inner force).2.1.InBounds g :=
    have h := reportFor g hframe inner force s
    ⟨hs.trans h.1, h.2⟩
  simp only [Session.reportSkipped, Option.bind_eq_bind, ← bind_ite]
  refine .ite (fun _ => ?_) fun _ => ?_
  · refine Concur.bind (Q := fun y => s₀.Acts g paired y.2.2 ∧ y.2.1.InBounds g) ?_ fun y _ hy => ?_
    · refine .ite (fun _ => reportSwallowingFor hs₀ hrun hsame hframe hs) fun _ => ?_
      refine .ite (fun _ => ?_) fun _ => .some ⟨hs, hframe⟩
      exact (answer hs₀ hrun hsame _ _ hs).map fun z hz => ⟨hz.1, hframe⟩
    · refine .ite (fun _ => .some hy) fun _ => ?_
      refine (answer hs₀ hrun hsame eatMore _ hy.1).bind fun z _ hz => ?_
      refine .ite (fun _ => ?_) fun _ => .some ⟨hz.1, hy.2⟩
      exact (groupRun hs₀ hrun hsame hz.1).bind fun w _ hw => .some ⟨hw, hy.2⟩
  · refine .ite (fun _ => .some (hfor false true)) fun _ => ?_
    exact .ite (fun _ => .some (hfor kind.isSome false)) fun _ => .some ⟨hs, hframe⟩

theorem recover (hframe : frame.InBounds g) (hs : s₀.Acts g paired s) :
    Concur (fun y => s₀.Acts g paired y.2 ∧ y.1.InBounds g)
      (s.recover g run rounds frame kind result pinned eatMore initial lastError)
      (s.recover g run' rounds frame kind result pinned eatMore initial lastError) := by
  have hseek : s₀.Acts g paired ({ s with quiet := true }.toSignificant g) :=
    hs.trans (.still ((Still.quiet s true).trans (.toSignificant _)))
  simp only [Session.recover, Option.bind_eq_bind, ← bind_ite]
  refine Concur.bind (Q := fun y => s₀.Acts g paired y.2) ?_ fun y _ hy => ?_
  · refine .ite (fun _ => .some hseek) fun _ => ?_
    have h := answer hs₀ hrun hsame eatMore (frame.level + 1) hseek
    exact ⟨h.same, fun z hz => (h.holds z hz).1⟩
  · refine (skipRun hs₀ hrun hsame hy).bind fun z _ hz => ?_
    have hnote := hz.trans (.still (.note z.2 (e := .skipped z.2.position lastError z.1) rfl))
    refine (reportSkipped hs₀ hrun hsame hframe hnote).bind fun w _ hw => ?_
    generalize (if (pinned || result) && (g.widensAlways || kind.isSome) && y.1 then
      y.2.log.lastWidenable? else none) = last
    have hquiet := hw.1.trans
      ((widenOver last w.2.1.position w.2.2).trans (.still (.quiet _ false)))
    refine .ite (fun _ => .some ⟨?_, ?_⟩) fun _ => .some ⟨hquiet, hw.2⟩
    · exact hquiet.trans (.still (.clearAttempts _ w.2.1))
    · exact ⟨hw.2.position, fun _ hp => by cases hp⟩

omit hrun hsame in
theorem inBounds_attemptsByName (hframe : frame.InBounds g) (hs : s₀.Acts g paired s)
    (kind : Option Kind) (stays : Bool) : (s.attemptsByName g frame kind stays).1.InBounds g := by
  unfold Session.attemptsByName
  split
  · exact hframe
  · dsimp only
    generalize (if kind.isSome then g.limits.nameSlack else 0) = slack
    split
    · split
      · exact hframe.recordAttempt (hs.inBounds hs₀).position
      · exact hframe
    · exact hframe

omit hs₀ hrun hsame in
theorem reportPinned (hframe : frame.InBounds g) (kind : Option Kind) (initial lastError : Nat)
    (s : Session) : s.Acts g paired (s.reportPinned g frame kind initial lastError).2 ∧
      (s.reportPinned g frame kind initial lastError).1.InBounds g := by
  unfold Session.reportPinned
  split
  · exact reportFor g hframe (kind.isSome && !frame.modifiers.upper) false s
  · split
    · exact ⟨refl s, { hframe with }⟩
    · exact ⟨refl s, hframe⟩

theorem settleErrors {eatMore : Option RuleRef} (hframe : frame.InBounds g)
    (hs : s₀.Acts g paired s) : Concur (fun y => s₀.Acts g paired y)
      (s.settleErrors g run rounds frame kind result pinned eatMore)
      (s.settleErrors g run' rounds frame kind result pinned eatMore) := by
  rw [settleErrors_eq, settleErrors_eq]
  have hframe₁ := inBounds_attemptsByName hs₀ hframe hs kind (result || pinned)
  have hs₁ := hs.trans (.still (.attemptsByName s frame kind (result || pinned)))
  generalize s.attemptsByName g frame kind (result || pinned) = x at hframe₁ hs₁
  refine Concur.bind (Q := fun y => s₀.Acts g paired y.2 ∧ y.1.InBounds g) ?_ fun y _ hy => ?_
  · unfold settleFrame
    split
    · exact recover hs₀ hrun hsame hframe₁ hs₁
    · refine .some ?_
      split
      · exact (reportPinned hframe₁ kind s.position x.1.errorPosition x.2).imp_left hs₁.trans
      · exact ⟨hs₁, hframe₁⟩
  · refine .some (hy.1.trans (modifyFrame ?_ ?_ y.2))
    · exact fun _ => rfl
    · exact fun _ hx => hx.absorb hy.2

end

/-! ## Shaping -/

theorem absorbChild (g : Setup) (frame : Frame) (kind : Kind) (s : Session) :
    s.Acts g paired (s.absorbChild g frame kind).2 := by
  unfold Session.absorbChild
  split
  · exact .trans (.still (.note s rfl)) (.drop ..)
  · exact refl s

theorem placeNode (g : Setup) (frame : Frame) (m : Marker) (kind : Kind) (s : Session) :
    s.Acts g paired (s.placeNode g frame m kind) := by
  unfold Session.placeNode
  split
  · exact .trans (.drop m s) (.still (.supplyKind (s.drop m) kind))
  · split
    · split
      · exact (commitAs ..).trans (widen ..)
      · exact .trans (.drop m s) (.trans (.wrap ..) (commitAs ..))
    · split
      · exact (seek ..).trans (commitAs ..)
      · exact commitAs ..

theorem settleMarker (g : Setup) (frame : Frame) (m? : Option Marker) (kind : Option Kind)
    (stays : Bool) (s : Session) : s.Acts g paired (s.settleMarker g frame m? kind stays).2 := by
  unfold Session.settleMarker
  split
  · split
    · rw [commitShaped_eq]
      exact (absorbChild ..).trans (placeNode ..)
    · split
      · split
        · exact (dropAny ..).trans (widen ..)
        · exact dropAny ..
      · exact dropAny ..
  · split
    · exact .rollback ..
    · exact refl s

/-- The lookahead context may be left before the input is given back. -/
theorem leftMarker {keeps : Bool}
    (h : s.Acts g paired { t with lookahead := t.lookahead.leave frame.modifiers }) :
    s.Acts g paired (t.leftMarker g frame m keeps).2.2 := by
  have hmodifiers : (t.eraseSection frame m).1.modifiers = frame.modifiers := by
    unfold eraseSection Frame.forgetErrorsAfter
    dsimp only
    split <;> rfl
  unfold Session.leftMarker
  split
  · have hundone := h.trans (.rollback m _)
    rw [Work.rollback_lookahead t m (·.leave frame.modifiers)] at hundone
    unfold endLookahead
    simp only [hmodifiers]
    cases keeps with
    | true => exact hundone.trans (.openMarker _)
    | false => exact hundone
  · next hnot =>
    rw [Work.leave_of_not_looksAhead (Bool.eq_false_iff.2 hnot)] at h
    exact h

/-- The frame of a section that is left stays in the source. -/
theorem inBounds_shapeSection {kind : Option Kind} {stays : Bool} (hframe : frame.InBounds g)
    (hs : s.InBounds g) : (s.shapeSection g frame m kind stays).1.InBounds g := by
  have herase {f : Frame} (hf : f.InBounds g) (t : Session) (x : Marker) :
      (t.eraseSection f x).1.InBounds g := hf.forgetErrorsAfter _ _
  have hleft : (s.leftMarker g frame m (kind.isSome && stays)).2.1.InBounds g := by
    unfold Session.leftMarker
    split
    · have hroll : ((s.eraseSection frame m).2).InBounds g :=
        (show s.Acts g true _ from .rollback m s).inBounds hs
      unfold endLookahead
      generalize (kind.isSome && stays) = keeps
      dsimp only
      split
      · refine ⟨(herase hframe s m).position, fun p hp => Option.some.inj hp ▸ ?_⟩
        cases keeps with
        | true => exact Setup.significant_le hroll.position
        | false => exact hroll.position
      · exact herase hframe s m
    · exact hframe
  rw [shapeSection_eq]
  unfold Session.settleMarker
  dsimp only
  split
  · split
    · exact hleft
    · split <;> exact hleft
  · split
    · exact herase hleft _ _
    · exact hleft

theorem shape {frames : List Frame} (hframes : s.frames = frame :: frames) (kind : Option Kind)
    (result pinned : Bool) :
    s.Acts g paired (s.shape g frame frames m kind result pinned).2 := by
  have htail : s.frames.tail = frames := by rw [hframes]; rfl
  unfold Session.shape
  rw [shapeSection_eq]
  refine .trans (leftMarker ?_) (settleMarker ..)
  have htake : s.Acts g paired (s.takeFrame frame) := .take hframes
  rw [takeFrame, htail] at htake
  exact htake.trans (.still (.note _ rfl))

theorem closeMarker (m : Marker) (kind : Option Kind) (result : Bool) (s : Session) :
    s.Acts g paired (s.closeMarker m kind result) := by
  unfold Session.closeMarker
  split
  · split
    · exact commitAs ..
    · exact .drop ..
  · refine (modifyFrame (fun f => ?_) (fun _ hx => hx.forgetErrorsAfter _ _) s).trans (.rollback ..)
    unfold Frame.forgetErrorsAfter
    split <;> rfl

/-! ## Leaving -/

section
variable {s₀ : Session} {hook hook' : HookRunner} (hs₀ : s₀.InBounds g)
  (hhook : hook.Acts g paired)
  (hagree : ∀ body m? t, s₀.Acts g paired t → hook' body m? t = hook body m? t)
  {rounds : Nat} {kind : Option Kind} {m? : Option Marker}
include hs₀ hhook hagree

theorem runHooksFrom (hs : s₀.Acts g paired s) :
    Concur (fun y => s₀.Acts g paired y) (s.runHooksFrom hook rounds m?)
      (s.runHooksFrom hook' rounds m?) := by
  induction rounds generalizing s m? with
  | zero => exact ⟨rfl, fun _ he => nomatch he⟩
  | succ rounds ih =>
    simp only [Session.runHooksFrom, Option.bind_eq_bind]
    split
    · exact .some hs
    · next h hooks _ =>
      have hpop := hs.trans (.still (.hooks s hooks))
      refine .ite (fun _ => .some hs) fun _ => ?_
      refine .ite (fun _ => ?_) fun _ => ih hpop
      refine Concur.bind (Q := fun y => s₀.Acts g paired y.2) ⟨hagree _ _ _ hpop, fun y hy => ?_⟩
        fun y _ hy => ih hy
      exact hpop.trans (hhook _ _ _ _ _ (hpop.inBounds hs₀) hy)

theorem runLevelHooks (hs : s₀.Acts g paired s) :
    Concur (fun y => s₀.Acts g paired y) (s.runLevelHooks g hook rounds kind)
      (s.runLevelHooks g hook' rounds kind) := by
  unfold Session.runLevelHooks
  refine .ite (fun _ => .some hs) fun _ => ?_
  split
  · exact runHooksFrom hs₀ hhook hagree hs
  · exact runHooksFrom hs₀ hhook hagree hs
  · refine runHooksFrom hs₀ hhook hagree (hs.trans ((seek g s).trans ?_))
    exact .abort _ _ fun _ he => nomatch he

theorem leaveSimple {result : Bool} (hs : s₀.Acts g paired s) :
    Concur (fun y => s₀.Acts g paired y) (s.leaveSimple g hook rounds m kind result)
      (s.leaveSimple g hook' rounds m kind result) := by
  rw [leaveSimple_eq, leaveSimple_eq]
  refine (runLevelHooks hs₀ hhook hagree (hs.trans (closeMarker m kind result s))).bind
    fun y _ hy => .some (hy.trans (.still (.level _ _)))

/-- A section that is left at the level of its frame is left by acts, and so is any other if they need
not be paired. -/
theorem leave {run run' : Runner} (hrun : run.Acts g paired)
    (hsame : ∀ rule level t, s₀.Acts g paired t → run' rule level t = run rule level t)
    {level : Nat} {result pinned : Bool} {eatMore : Option RuleRef}
    (hlevel : paired = true → ∃ frame frames, s.frames = frame :: frames ∧ frame.level = level)
    (hs : s₀.Acts g paired s) : Concur (fun y => s₀.Acts g paired y)
      (s.leave g run hook rounds level m kind result pinned eatMore)
      (s.leave g run' hook' rounds level m kind result pinned eatMore) := by
  have habort (found offset : Nat) (t : Session) :
      t.Acts g paired (t.abort g (.unbalanced level found offset)) :=
    .abort _ t fun _ he => nomatch he
  have hunbalanced (found : Nat) {t : Session} (ht : s₀.Acts g paired t) :
      s₀.Acts g paired (t.leaveUnbalanced g level found m) :=
    ht.trans ((seek g t).trans ((habort ..).trans ((Acts.rollback m _).trans (.still (.level _ _)))))
  cases hframes : s.frames with
  | nil =>
    simp only [Session.leave, hframes]
    exact .some (hunbalanced s.level hs)
  | cons frame frames =>
    by_cases heq : frame.level = level
    · rw [leave_eq hframes heq, leave_eq hframes heq]
      have hbounds := hs.inBounds hs₀
      obtain ⟨hframe, hrest⟩ := List.forall_mem_cons.1 (hframes ▸ hbounds.frames)
      have hshape := hs.trans (shape hframes kind result pinned (m := m) (g := g))
      have hframe' : (s.shape g frame frames m kind result pinned).1.InBounds g :=
        inBounds_shapeSection hframe ⟨hbounds.position, hbounds.starts, hrest⟩
      refine (settleErrors hs₀ hrun hsame hframe' hshape).bind fun y _ hy => ?_
      refine (runLevelHooks hs₀ hhook hagree hy).bind fun z _ hz => ?_
      exact .some (hz.trans (.still (.level _ _)))
    · simp only [Session.leave, hframes, if_neg heq]
      have hlost : s₀.Acts g paired { s with frames } := by
        refine hs.trans ?_
        have htail : s.frames.tail = frames := by rw [hframes]; rfl
        rw [← htail]
        refine .lose s (Bool.eq_false_iff.2 fun hp => ?_)
        obtain ⟨frame', frames', hf, hl⟩ := hlevel hp
        rw [hframes] at hf
        cases hf
        exact heq hl
      exact .some (hunbalanced frame.level hlost)

end

end Acts

end Session

end Descent
