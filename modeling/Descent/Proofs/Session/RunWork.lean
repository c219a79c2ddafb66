import Descent.Proofs.Grammar.BalancedRun
import Descent.Proofs.Session.Grouped
import Descent.Proofs.Session.HeldSections

/-!
# Balanced runs are work

Recoveries and sections are taken apart into pieces of work, one function after the other. So
whatever a balanced run does is work (`BalancedRun.work`), as long as every hook waits for a section
that is open: then no hook is run.
-/

namespace Descent

open Session (Calm Steady)

namespace Work

variable {allows : Modifiers → Bool} {g : Setup} {s s' s₁ t u : Session} {run : Runner}
  {rounds level lastError initial : Nat} {frame frame' : Frame} {kind : Option Kind}
  {result pinned : Bool} {eatMore : RuleRef}

/-! ## Recovery -/

theorem map_core_resetCounts (fs : List Frame) :
    (Session.resetCounts fs).map Frame.core = fs.map Frame.core := by
  induction fs with
  | nil => rfl
  | cons f fs ih =>
    unfold Session.resetCounts
    split
    · rfl
    · simp [ih, Frame.core]

theorem steady_clearAttempts (frame : Frame) (s : Session) :
    Steady s (s.clearAttempts frame).2 := by
  refine { Steady.refl s with frames := ?_ }
  show List.map Frame.core (if _ then _ else _) = _
  split
  · exact map_core_resetCounts s.frames
  · rfl

section
variable (hrun : run.Works allows g) (hs : s.HooksOpen)
include hrun hs

theorem reportSwallowing {p : Option Nat}
    (hr : s.reportSwallowing g run level = some (p, s')) : Work allows g none s s' := by
  unfold Session.reportSwallowing at hr
  split at hr
  · cases hr
    exact refl s
  · have h₁ := (@refl allows g s).toSignificant.note (.errorReported
      (s.toSignificant g).position ((s.toSignificant g).errorHere g
        ((s.toSignificant g).expectedHere g)) true false)
    obtain ⟨⟨b, t⟩, ht, hr⟩ := Option.bind_eq_some_iff.1 hr
    obtain ⟨-, rfl⟩ := Prod.mk.inj (Option.some.inj hr)
    have hopen := (@Session.Surroundings.openMarker allows g _).hooksOpen
      (h₁.hooksOpen hs)
    exact (h₁.trans (.forget (.node _ _ (hrun _ _ _ _ _ hopen ht)))).toSignificant

theorem reportSwallowingFor {b : Bool}
    (hr : Session.reportSwallowingFor g run frame s = some (b, frame', s')) :
    Work allows g none s s' := by
  obtain ⟨⟨p, t⟩, ht, hr⟩ := Option.bind_eq_some_iff.1 hr
  have h := reportSwallowing hrun hs ht
  cases p with
  | some p => cases hr; exact h
  | none => cases hr; exact h

omit hs in
theorem skipRun {s : Session} {name : String} {more more' : Bool} {depth : Int} (hs : s.HooksOpen)
    (hr : s.skipRun g run eatMore name level lastError rounds more depth = some (more', s')) :
    Work allows g none s s' :=
  Session.skipRun_keeps
    (fun _ _ _ _ _ _ h ht => h.trans (hrun _ _ _ _ _ (h.hooksOpen hs) ht))
    (fun _ _ h hc => h.trans (.calm hc)) (refl s) hr

theorem reportSkipped {eatsFirst more reported : Bool}
    (hr : s.reportSkipped g run rounds frame kind result pinned eatMore initial eatsFirst more =
      some (reported, frame', s')) : Work allows g none s s' :=
  Session.reportSkipped_keeps
    (fun _ _ _ _ _ _ h ht => h.trans (hrun _ _ _ _ _ (h.hooksOpen hs) ht))
    (fun _ _ _ => reportSwallowingFor hrun hs)
    (fun _ _ _ h ht => h.trans (groupRun hrun (h.hooksOpen hs) ht))
    (fun inner force => reportFor s frame inner force) (refl s) hr

theorem recover (hquiet : s.quiet = false)
    (hr : s.recover g run rounds frame kind result pinned eatMore initial lastError =
      some (frame', s')) : Work allows g none s s' := by
  obtain ⟨eatsFirst, t, starts, more, u, reported, frame₁, v, last, ht, hu, hv, hlast, hend⟩ :=
    Session.exists_stages hr
  have h₁ : Work allows g none { s with quiet := true } t := by
    have hbegin := (@refl allows g { s with quiet := true }).toSignificant
    rcases ht with ⟨-, rfl⟩ | ht
    · exact hbegin
    · exact hbegin.trans (hrun _ _ _ _ _ (hbegin.hooksOpen hs) ht)
  have ht' : t.HooksOpen := h₁.hooksOpen hs
  have h₂ := (skipRun hrun ht' hu).note (.skipped u.position lastError more)
  have h₃ := h₂.trans (reportSkipped hrun (h₂.hooksOpen ht') hv)
  have h₄ := hushed hquiet (h₁.trans (h₃.widenOver (fun m hm => (hlast m hm).2) frame₁.position))
  rcases hend with heq | heq
  · cases heq
    exact h₄
  · have hclear := steady_clearAttempts frame₁ { v.widenOver last frame₁.position with quiet := false }
    rw [← heq] at hclear
    exact h₄.trans (.steady hclear)

end

theorem calm_attemptsByName (s : Session) (frame : Frame) (kind : Option Kind) (stays : Bool) :
    Calm s (s.attemptsByName g frame kind stays).2 := by
  unfold Session.attemptsByName
  split
  · exact .refl s
  · dsimp only
    generalize (if kind.isSome then g.limits.nameSlack else 0) = slack
    split
    · exact .attempts s _
    · exact .refl s

theorem position_attemptsByName (g : Setup) (s : Session) (frame : Frame) (kind : Option Kind)
    (stays : Bool) : (s.attemptsByName g frame kind stays).2.position = s.position := by
  unfold Session.attemptsByName
  split
  · rfl
  · dsimp only
    generalize (if kind.isSome then g.limits.nameSlack else 0) = slack
    split <;> rfl

theorem reportPinned (s : Session) (frame : Frame) (kind : Option Kind) (initial lastError : Nat) :
    Work allows g none s (s.reportPinned g frame kind initial lastError).2 := by
  unfold Session.reportPinned
  split
  · exact reportFor s frame _ false
  · split
    · exact refl s
    · exact refl s

theorem core_absorb (f inner : Frame) : (f.absorb inner).core = f.core := rfl

theorem settleErrors {eatMore : Option RuleRef} (hrun : run.Works allows g) (hs : s.HooksOpen)
    (hr : s.settleErrors g run rounds frame kind result pinned eatMore = some s') :
    Work allows g none s s' := by
  have h₁ : Work allows g none s (s.attemptsByName g frame kind (result || pinned)).2 :=
    .calm (calm_attemptsByName s frame kind (result || pinned))
  obtain ⟨frame₁, t, rfl, hcases⟩ := Session.settleErrors_cases hr
  have h₂ : Work allows g none (s.attemptsByName g frame kind (result || pinned)).2 t := by
    obtain ⟨rule, -, hquiet, hrecover⟩ | ⟨-, -, rfl⟩ | ⟨-, rfl⟩ := hcases
    · exact recover hrun (h₁.hooksOpen hs) hquiet hrecover
    · exact reportPinned ..
    · exact refl _
  exact (h₁.trans h₂).modifyFrame fun f => core_absorb f frame₁

/-! ## Hooks -/

/-- Hooks of sections further out are not run. -/
theorem calm_runLevelHooks {hook : HookRunner} (hs : ∀ h ∈ s.hooks, h.level < s.level)
    (hr : s.runLevelHooks g hook rounds kind = some s') : Calm s s' := by
  have hfrom {t t' : Session} {m? : Option Marker} (ht : ∀ h ∈ t.hooks, h.level < t.level)
      (hr : t.runHooksFrom hook rounds m? = some t') : t = t' := by
    cases rounds with
    | zero => cases hr
    | succ rounds =>
      simp only [Session.runHooksFrom] at hr
      split at hr
      · exact Option.some.inj hr
      · next h hooks hhooks =>
        rw [if_pos (ht h (by rw [hhooks]; exact List.mem_cons_self))] at hr
        exact Option.some.inj hr
  unfold Session.runLevelHooks at hr
  split at hr
  · cases hr
    exact .refl s
  · split at hr
    · exact hfrom hs hr ▸ .refl s
    · exact hfrom hs hr ▸ .refl s
    · next kind _ =>
      have habort : Calm s ((s.toSignificant g).abort g (.nothingCommitted
          (g.language.nameOf kind) ((s.toSignificant g).offset g))) :=
        (Calm.toSignificant g s).trans (.abort g _ _)
      have heq := hfrom (by rw [habort.hooks, habort.level]; exact hs) hr
      exact heq ▸ habort

/-! ## What becomes of a marker -/

theorem absorbChild (s : Session) (frame : Frame) (kind : Kind) :
    Work allows g none s (s.absorbChild g frame kind).2 := by
  unfold Session.absorbChild
  split
  · next child hchild =>
    have hlast : (s.note (.childKept child)).log.lastCommitted? = some child := by
      split at hchild
      · exact (Option.filter_eq_some_iff.1 hchild).1
      · cases hchild
    exact ((refl s).note _).trans (.absorb hlast)
  · exact refl s

end Work

/-- The modifiers of a frame are allowed, and if it takes up a node, that is the one committed last
when the section was entered in `s`. -/
structure Frame.Admitted (allows : Modifiers → Bool) (g : Setup) (s : Session) (f : Frame) :
    Prop where
  allows : allows f.modifiers = true
  left : ∀ m, f.leftNode = some m →
    f.modifiers.takesLeft = true ∧ (s.openMarker g).2.log.lastCommitted? = some m

theorem Frame.Admitted.becomes {allows : Modifiers → Bool} {g : Setup} {s : Session}
    {f f' : Frame} (h : f.Admitted allows g s) (hf : f.Becomes allows f') :
    f'.Admitted allows g s :=
  ⟨hf.modifiers ▸ h.allows, by rw [hf.modifiers, hf.leftNode]; exact h.left⟩

namespace Work

variable {allows : Modifiers → Bool} {g : Setup} {s s' s₁ t u : Session} {frame frame' : Frame}

theorem placeNode (hframe : frame.Admitted allows g s) (hu : Work allows g none s u)
    (hin : Work allows g none (u.openMarker g).2 t) (kind : Kind) :
    Work allows g none s (t.placeNode g frame (u.openMarker g).1 kind) := by
  unfold Session.placeNode
  split
  · next hupper => exact (hu.trans hin.bare).trans (.supply kind _ hframe.allows hupper)
  · split
    · next left hl =>
      obtain ⟨htakes, hlast⟩ := hframe.left left hl
      split
      · exact widenLeft hframe.allows htakes hlast (hu.trans (.forget (.node kind none hin)))
      · exact wrapLeft kind hframe.allows htakes hlast (hu.trans hin.bare)
    · refine hu.trans (.forget (.node kind none ?_))
      split
      · exact hin.toSignificant
      · exact hin

/-- The marker `m?` was opened after what was done since `s`, if there is one. -/
inductive Pending (allows : Modifiers → Bool) (g : Setup) (s : Session) :
    Option Marker → Session → Prop
  | gone {s' : Session} (h : Work allows g none s s') : Pending allows g s none s'
  | opened {u s' : Session} (h : Work allows g none s u)
    (hin : Work allows g none (u.openMarker g).2 s') :
    Pending allows g s (some (u.openMarker g).1) s'

theorem Pending.dropAny {m? : Option Marker} (h : Pending allows g s m? t) :
    Work allows g none s (t.dropAny m?) := by
  cases h with
  | gone h => exact h
  | opened h hin => exact h.trans hin.bare

theorem settleMarker {m? : Option Marker} (hframe : frame.Admitted allows g s)
    (h : Pending allows g s m? t) (kind : Option Kind) (stays : Bool) :
    Work allows g none s (t.settleMarker g frame m? kind stays).2 := by
  unfold Session.settleMarker
  split
  · split
    · next kind m =>
      cases h with
      | opened h hin =>
        rw [Session.commitShaped_eq]
        exact placeNode hframe h (hin.trans (absorbChild t frame kind)) _
    · split
      · next left hl =>
        obtain ⟨htakes, hlast⟩ := hframe.left left hl
        split
        · exact widenLeft hframe.allows htakes hlast h.dropAny
        · exact h.dropAny
      · exact h.dropAny
  · cases h with
    | gone h => exact h
    | opened h hin => exact h.trans hin.undone

theorem leave_of_not_looksAhead {c : Lookahead} {modifiers : Modifiers}
    (h : modifiers.looksAhead = false) : c.leave modifiers = c := by
  obtain ⟨hahead, hnot⟩ := Bool.or_eq_false_iff.1 h
  simp [Lookahead.leave, hahead, hnot]

theorem rollback_lookahead (s : Session) (m : Marker) (f : Lookahead → Lookahead) :
    { s with lookahead := f s.lookahead }.rollback m =
      { s.rollback m with lookahead := f (s.rollback m).lookahead } := by
  unfold Session.rollback
  dsimp only
  cases s.log.rollback m <;> rfl

theorem core_eraseSection (s : Session) (frame : Frame) (m : Marker) :
    (s.eraseSection frame m).1.core = frame.core := by
  unfold Session.eraseSection Frame.forgetErrorsAfter
  dsimp only
  split <;> rfl

theorem core_leftMarker (s : Session) (frame : Frame) (m : Marker) (keeps : Bool) :
    (s.leftMarker g frame m keeps).2.1.core = frame.core := by
  unfold Session.leftMarker
  split
  · unfold Session.endLookahead
    dsimp only
    split <;> exact core_eraseSection s frame m
  · rfl

/-- `t` is left by a section that was entered with the opening of a marker in `s`. -/
theorem leftMarker
    (hin : Work allows g none (s.openMarker g).2
      { t with lookahead := t.lookahead.leave frame.modifiers }) (keeps : Bool) :
    Pending allows g s (t.leftMarker g frame (s.openMarker g).1 keeps).1
      (t.leftMarker g frame (s.openMarker g).1 keeps).2.2 := by
  unfold Session.leftMarker
  split
  · have hundone := hin.undone
    rw [rollback_lookahead t _ (·.leave frame.modifiers)] at hundone
    have hmodifiers : (t.eraseSection frame (s.openMarker g).1).1.modifiers = frame.modifiers :=
      (@Frame.Becomes.of_core allows _ _ (core_eraseSection t frame (s.openMarker g).1)).modifiers
    unfold Session.endLookahead
    simp only [hmodifiers]
    cases keeps with
    | true => exact .opened hundone (refl _)
    | false => exact .gone hundone
  · next hahead =>
    rw [leave_of_not_looksAhead (Bool.eq_false_iff.2 hahead)] at hin
    exact .opened (refl s) hin

theorem shapeSection (hframe : frame.Admitted allows g s)
    (hin : Work allows g none (s.openMarker g).2
      { t with lookahead := t.lookahead.leave frame.modifiers })
    (kind : Option Kind) (stays : Bool) :
    Work allows g none s (t.shapeSection g frame (s.openMarker g).1 kind stays).2 := by
  have h := leftMarker hin (kind.isSome && stays)
  have hframe' := hframe.becomes (.of_core
    (core_leftMarker (g := g) t frame (s.openMarker g).1 (kind.isSome && stays)))
  rw [Session.shapeSection_eq]
  exact settleMarker hframe' h kind stays

end Work

namespace Session

/-! ## Sections -/

/-- The frame of a section that is opened. -/
def newFrame (g : Setup) (level : Nat) (modifiers : Modifiers) (kind : Option Kind)
    (name : Option String) (s : Session) : Frame :=
  { kind, offset := s.offset g, position := s.position, level, modifiers, name
    attemptsBefore := s.attempts.count
    leftNode :=
      if modifiers.takesLeft && !s.frames.isEmpty then s.log.lastCommitted? else none }

/-- Commits, drops or erases the marker of a section without a frame. -/
def closeMarker (m : Marker) (kind : Option Kind) (result : Bool) (s : Session) : Session :=
  if result then
    match kind with
    | some kind => s.commitAs m kind
    | none => s.drop m
  else
    (s.modifyFrame (·.forgetErrorsAfter (s.log.start m)
      (s.frames.tail.head?.bind (·.errorAt)))).rollback m

theorem leaveSimple_eq (g : Setup) (hook : HookRunner) (rounds : Nat) (m : Marker)
    (kind : Option Kind) (result : Bool) (s : Session) :
    s.leaveSimple g hook rounds m kind result =
      ((s.closeMarker m kind result).runLevelHooks g hook rounds
        (if result then kind else none)).bind fun s => some s.closeLevel :=
  rfl

/-- Settles the marker of a section whose frame is taken down. -/
def shape (g : Setup) (frame : Frame) (frames : List Frame) (m : Marker) (kind : Option Kind)
    (result pinned : Bool) (s : Session) : Frame × Session :=
  ({ s with frames }.note (.sectionLeft frame result pinned)).shapeSection g frame m
    (frame.kind <|> kind) (result || pinned)

/-- A section is left at the level that it was entered at. -/
theorem leave_eq {s : Session} {frame : Frame} {frames : List Frame} {level : Nat}
    (hframes : s.frames = frame :: frames) (hlevel : frame.level = level) (g : Setup)
    (run : Runner) (hook : HookRunner) (rounds : Nat) (m : Marker) (kind : Option Kind)
    (result pinned : Bool) (eatMore : Option RuleRef) :
    s.leave g run hook rounds level m kind result pinned eatMore =
      let x := s.shape g frame frames m kind result pinned
      (x.2.settleErrors g run rounds x.1 (frame.kind <|> kind) result pinned eatMore).bind fun s =>
        (s.runLevelHooks g hook rounds
          (if pinned || result then frame.kind <|> kind else none)).bind fun s =>
            some s.closeLevel := by
  unfold leave
  simp only [hframes]
  rw [if_pos hlevel]
  rfl

/-- A section is left at another level than it was entered at. -/
theorem leave_of_ne {s : Session} {frame : Frame} {frames : List Frame} {level : Nat}
    (hframes : s.frames = frame :: frames) (hlevel : frame.level ≠ level) (g : Setup)
    (run : Runner) (hook : HookRunner) (rounds : Nat) (m : Marker) (kind : Option Kind)
    (result pinned : Bool) (eatMore : Option RuleRef) :
    s.leave g run hook rounds level m kind result pinned eatMore =
      some ({ s with frames }.leaveUnbalanced g level frame.level m) := by
  unfold leave
  rw [hframes]
  exact if_neg hlevel

/-- The state in which the marker of a section is opened. -/
def entering (g : Setup) (s : Session) : Session :=
  { s.reportAgain g with level := (s.reportAgain g).level + 1 }

/-- The frame that a section is entered with. -/
def enteredFrame (g : Setup) (level : Nat) (modifiers : Modifiers) (kind : Option Kind)
    (name : Option String) (s : Session) : Frame :=
  (((s.entering g).openMarker g).2.toSignificant g).newFrame g level modifiers kind name

/-- Entering a section opens a marker and puts a frame up. -/
theorem steady_enter (g : Setup) (level : Nat) (modifiers : Modifiers) (kind : Option Kind)
    (name : Option String) (s : Session) :
    Steady (((s.entering g).openMarker g).2.putFrame
      (s.enteredFrame g level modifiers kind name)) (s.enter g level modifiers kind name).2 := by
  have h := Steady.toSignificant g
    { ((s.entering g).openMarker g).2 with
      lookahead := (s.reportAgain g).lookahead.enter modifiers }
  unfold enter openFrame
  dsimp only
  split
  · exact (h.trans (.note _ _)).pushFrame _
  · exact ((h.trans (.abort g _ _)).trans (.note _ _)).pushFrame _

end Session

namespace Work

variable {allows : Modifiers → Bool} {g : Setup} {s s' s₁ : Session} {run : Runner}
  {hook : HookRunner} {rounds level : Nat} {modifiers : Modifiers} {early kind kind' : Option Kind}
  {name : Option String} {result pinned : Bool} {eatMore : Option RuleRef} {frame : Frame}

theorem admitted_enteredFrame (hallows : allows modifiers = true) :
    (s.enteredFrame g level modifiers early name).Admitted allows g (s.entering g) where
  allows := hallows
  left m hm := by
    have hm : (if modifiers.takesLeft && !_ then _ else none) = some m := hm
    split at hm
    · next htakes => exact ⟨(Bool.and_eq_true _ _ ▸ htakes).1, hm⟩
    · cases hm

/-- Work inside a section leaves its frame on top. -/
theorem exists_frame (hallows : allows modifiers = true)
    (hbody : Work allows g none (s.enter g level modifiers early name).2 s₁) :
    ∃ f fs, s₁.frames = f :: fs ∧ (s.enteredFrame g level modifiers early name).Becomes allows f ∧
      Work allows g none ((s.entering g).openMarker g).2 (s₁.takeFrame f) := by
  have hin := (steady (Session.steady_enter g level modifiers early name s)).trans hbody
  obtain ⟨f, fs, hf, -, hfs⟩ := List.forall₂_cons_left_iff.1 hin.surroundings.frames
  have htake : s₁.takeFrame f = s₁.takeFrame (s.enteredFrame g level modifiers early name) := by
    rw [Session.takeFrame, hf.modifiers]
    rfl
  exact ⟨f, fs, hfs, hf, htake ▸ framed _ hallows hin⟩

/-- No hook waits for a section that is being entered. -/
theorem hooks_lt_of_work (hs : s.HooksOpen) (h : Work allows g none (s.entering g) s') :
    ∀ h ∈ s'.hooks, h.level < s'.level := by
  have hagain := (@reportAgain allows g s).surroundings
  intro x hx
  rw [h.surroundings.hooks] at hx
  rw [h.surroundings.level]
  have hx' := hagain.hooksOpen hs x hx
  exact Nat.lt_succ_of_le hx'

theorem hooksOpen_entering (hs : s.HooksOpen) : (s.entering g).HooksOpen :=
  fun x hx => Nat.le_of_lt (@hooks_lt_of_work (fun _ => true) _ _ _ hs (refl _) x hx)

/-- Closing the level that was raised when the section was entered. -/
theorem closeLevel (h : Work allows g none (s.entering g) s') :
    Work allows g none s s'.closeLevel :=
  (reportAgain s).trans (.level h)

/-- When the marker of a section is settled, work was done since it was entered. -/
theorem exists_shape (hallows : allows modifiers = true)
    (hbody : Work allows g none (s.enter g level modifiers early name).2 s₁) (kind : Option Kind)
    (result pinned : Bool) :
    ∃ f fs, s₁.frames = f :: fs ∧ (s.enteredFrame g level modifiers early name).Becomes allows f ∧
      Work allows g none (s.entering g)
        (s₁.shape g f fs (s.enter g level modifiers early name).1 kind result pinned).2 := by
  obtain ⟨f, fs, hfs, hf, hin⟩ := exists_frame hallows hbody
  have hadmitted := (@admitted_enteredFrame allows g s level modifiers early name hallows).becomes hf
  rw [Session.takeFrame, hfs] at hin
  exact ⟨f, fs, hfs, hf, shapeSection hadmitted (hin.note (.sectionLeft f result pinned)) _ _⟩

/-- And when it is left, more work may have been done. -/
theorem exists_settle (hrun : run.Works allows g) (hs : s.HooksOpen)
    (hshape : Work allows g none (s.entering g) s₁)
    (hr : ((s₁.settleErrors g run rounds frame kind result pinned eatMore).bind fun t =>
      (t.runLevelHooks g hook rounds kind').bind fun t => some t.closeLevel) = some s') :
    ∃ u, Work allows g none s₁ u ∧ s' = u.closeLevel := by
  obtain ⟨t, ht, hr⟩ := Option.bind_eq_some_iff.1 hr
  obtain ⟨u, hu, hr⟩ := Option.bind_eq_some_iff.1 hr
  have hsettle := settleErrors hrun (hshape.hooksOpen (hooksOpen_entering hs)) ht
  have hhooks := calm_runLevelHooks (hooks_lt_of_work hs (hshape.trans hsettle)) hu
  exact ⟨u, hsettle.trans (.calm hhooks), (Option.some.inj hr).symm⟩

theorem leave (hallows : allows modifiers = true) (hrun : run.Works allows g) (hs : s.HooksOpen)
    (hbody : Work allows g none (s.enter g level modifiers early name).2 s₁)
    (hr : s₁.leave g run hook rounds level (s.enter g level modifiers early name).1 kind result
      pinned eatMore = some s') : Work allows g none s s' := by
  obtain ⟨f, fs, hfs, hf, hshape⟩ := exists_shape hallows hbody kind result pinned
  have hlevel : f.level = level := hf.level
  rw [Session.leave_eq hfs hlevel] at hr
  obtain ⟨u, hsettle, rfl⟩ := exists_settle hrun hs hshape hr
  exact closeLevel (hshape.trans hsettle)

theorem closeMarker (hbody : Work allows g none (s.enterSimple g).2 s₁) (kind : Option Kind)
    (result : Bool) :
    Work allows g none (s.entering g) (s₁.closeMarker (s.enterSimple g).1 kind result) := by
  unfold Session.closeMarker
  split
  · cases kind with
    | some kind => exact .forget (.node kind none hbody)
    | none => exact .bare hbody
  · refine .undone (hbody.modifyFrame fun f => ?_)
    unfold Frame.forgetErrorsAfter
    split <;> rfl

theorem leaveSimple {result : Bool} (hs : s.HooksOpen)
    (hbody : Work allows g none (s.enterSimple g).2 s₁)
    (hr : s₁.leaveSimple g hook rounds (s.enterSimple g).1 kind result = some s') :
    Work allows g none s s' := by
  have h := closeMarker hbody kind result
  rw [Session.leaveSimple_eq] at hr
  obtain ⟨t, ht, hr⟩ := Option.bind_eq_some_iff.1 hr
  cases hr
  exact closeLevel (h.trans (.calm (calm_runLevelHooks (hooks_lt_of_work hs h) ht)))

theorem hooksOpen_enter (hs : s.HooksOpen) :
    (s.enter g level modifiers early name).2.HooksOpen := by
  have h := Session.steady_enter g level modifiers early name s
  rw [Session.HooksOpen, h.hooks, h.level]
  exact hooksOpen_entering hs

end Work

/-- Whatever a balanced run does is work. -/
theorem BalancedRun.work {allows : Modifiers → Bool} {g : Setup} {s s' : Session}
    (h : BalancedRun allows g s s') (hs : s.HooksOpen) : Work allows g none s s' := by
  induction h with
  | calm hc => exact .calm hc
  | trans _ _ ih ih' =>
    have h₁ := ih hs
    exact h₁.trans (ih' (h₁.hooksOpen hs))
  | report s => exact .reportHere s
  | attempt keeps _ ih =>
    have h₁ := ih ((@Session.Surroundings.openMarker allows g _).hooksOpen hs)
    cases keeps with
    | true => exact h₁.bare
    | false => exact h₁.undone
  | group _ hgroup ih =>
    exact .groupRun (fun rule level s b s' hs hr => ih rule level s b s' hr hs) hs hgroup
  | simple _ hleave ih => exact .leaveSimple hs (ih (Work.hooksOpen_entering hs)) hleave
  | framed hallows _ _ hleave ihrun ih =>
    exact .leave hallows (fun rule level s b s' hs hr => ihrun rule level s b s' hr hs) hs
      (ih (Work.hooksOpen_enter hs)) hleave

theorem Runner.Balanced.works {allows : Modifiers → Bool} {g : Setup} {run : Runner}
    (h : run.Balanced allows g) : run.Works allows g :=
  fun rule level s b s' hs hr => (h rule level s b s' hr).work hs

end Descent
