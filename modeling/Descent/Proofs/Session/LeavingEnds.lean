import Descent.Proofs.Session.GivenBack
import Descent.Proofs.Session.RecoveryEnds

/-!
# Leaving ends

A section is left in the end (`Session.arrives_leave`), and the session is then not behind where it was
when the marker of the section was opened, or earlier. No more is supposed of the markers: whatever else
happened meanwhile, a marker starts where it was opened (`Session.LeadsTo.exists_start`). It is supposed,
however, that no hooks are left to be run.
-/

namespace Descent

/-- The marker was opened at the position or behind it. -/
def MarkerLog.OpenedFrom (log : MarkerLog) (p : Nat) (m : Marker) : Prop :=
  ∃ info, log.info? m = some info ∧ p ≤ info.start

namespace Session

variable {g : Setup} {s s' s₀ : Session} {p : Nat} {m : Marker} {frame : Frame}

/-! ## Where markers start -/

theorem openedFrom_openMarker (hp : p ≤ s.position) :
    (s.openMarker g).2.log.OpenedFrom p (s.openMarker g).1 := by
  refine ⟨_, Array.getElem?_push_size, ?_⟩
  exact Nat.le_trans hp (g.le_significant s.position)

/-- Marker steps do not change where a marker starts. -/
theorem LeadsTo.exists_start (h : s.LeadsTo s') {info : MarkerInfo} (hi : s.log.info? m = some info) :
    ∃ info', s'.log.info? m = some info' ∧ info'.start = info.start := by
  induction h generalizing info with
  | still h => exact ⟨info, h ▸ hi, rfl⟩
  | step step s _ =>
    cases step with
    | seek q => exact ⟨info, hi, rfl⟩
    | openAt q => exact ⟨info, MarkerLog.info?_openAt hi q, rfl⟩
    | commit x kind error =>
      obtain ⟨info', hi', hstart, -⟩ := MarkerLog.info?_commit hi x kind error s.position
      exact ⟨info', log_commit .. ▸ hi', hstart⟩
    | drop x =>
      obtain ⟨stage, hs⟩ := MarkerLog.info?_drop hi x
      exact ⟨_, hs, rfl⟩
    | wrap x => exact ⟨info, log_wrap .. ▸ MarkerLog.info?_wrap hi x, rfl⟩
    | rollback x =>
      show ∃ info', (s.rollback x).log.info? m = some info' ∧ info'.start = info.start
      unfold Session.rollback
      split
      · next q log hr =>
        obtain ⟨-, -, rfl⟩ := MarkerLog.rollback_eq_some_iff.1 hr
        obtain ⟨stage, hs⟩ := MarkerLog.info?_unwind hi s.log.entries x
        exact ⟨_, hs, rfl⟩
      · exact ⟨info, hi, rfl⟩
  | trans _ _ ih ih' =>
    obtain ⟨info₁, hi₁, hstart₁⟩ := ih hi
    obtain ⟨info₂, hi₂, hstart₂⟩ := ih' hi₁
    exact ⟨info₂, hi₂, hstart₂.trans hstart₁⟩

theorem LeadsTo.openedFrom (h : s.LeadsTo s') (hm : s.log.OpenedFrom p m) :
    s'.log.OpenedFrom p m := by
  obtain ⟨info, hi, hp⟩ := hm
  obtain ⟨info', hi', hstart⟩ := h.exists_start hi
  exact ⟨info', hi', hstart ▸ hp⟩

/-! ## Shaping -/

/-- The session is not behind the position, and has these hooks. -/
structure Past (p : Nat) (hooks : List Hook) (s : Session) : Prop where
  position : p ≤ s.position
  hooks : s.hooks = hooks

namespace Past

variable {hooks : List Hook} (h : Past p hooks s)
include h

theorem smooth (hsmooth : Smooth s s') : Past p hooks s' :=
  ⟨Nat.le_trans h.position hsmooth.position, hsmooth.hooks.trans h.hooks⟩

/-- It may go back to a marker that is not behind the position either. -/
theorem rollback (hm : s.log.OpenedFrom p m) : Past p hooks (s.rollback m) := by
  obtain ⟨info, hi, hp⟩ := hm
  unfold Session.rollback
  split
  · next q log hr =>
    obtain ⟨-, ⟨info', hi', rfl⟩, -⟩ := MarkerLog.rollback_eq_some_iff.1 hr
    obtain rfl := Option.some.inj (hi.symm.trans hi')
    exact ⟨hp, h.hooks⟩
  · exact h

theorem leftMarker (frame : Frame) (hm : s.log.OpenedFrom p m) (keeps : Bool) :
    Past p hooks (s.leftMarker g frame m keeps).2.2 ∧
      ∀ x, (s.leftMarker g frame m keeps).1 = some x →
        (s.leftMarker g frame m keeps).2.2.log.OpenedFrom p x := by
  have hback : Past p hooks (s.eraseSection frame m).2 := h.rollback hm
  unfold Session.leftMarker
  split
  · unfold endLookahead
    generalize s.eraseSection frame m = x at hback
    dsimp only
    have hleft : Past p hooks { x.2 with lookahead := x.2.lookahead.leave x.1.modifiers } :=
      { hback with }
    cases keeps with
    | true =>
      refine ⟨hleft.smooth (.openMarker g _), fun m' hm' => ?_⟩
      obtain rfl := Option.some.inj hm'
      exact openedFrom_openMarker hleft.position
    | false => exact ⟨hleft, nofun⟩
  · refine ⟨h, fun x hx => ?_⟩
    obtain rfl := Option.some.inj hx
    exact hm

theorem settleMarker {m? : Option Marker} (hm : ∀ x, m? = some x → s.log.OpenedFrom p x)
    (kind : Option Kind) (stays : Bool) :
    Past p hooks (s.settleMarker g frame m? kind stays).2 := by
  unfold Session.settleMarker
  split
  · split
    · exact h.smooth (.commitShaped ..)
    · split
      · split
        · exact h.smooth ((Smooth.dropAny ..).trans (.widen ..))
        · exact h.smooth (.dropAny ..)
      · exact h.smooth (.dropAny ..)
  · split
    · exact h.rollback (hm _ rfl)
    · exact h

theorem shape (hm : s.log.OpenedFrom p m) (frame : Frame) (frames : List Frame)
    (kind : Option Kind) (result pinned : Bool) :
    Past p hooks (s.shape g frame frames m kind result pinned).2 := by
  have hnoted : Past p hooks ({ s with frames }.note (.sectionLeft frame result pinned)) :=
    { h with }
  obtain ⟨hleft, hstart⟩ := hnoted.leftMarker (g := g) frame hm
    ((frame.kind <|> kind).isSome && (result || pinned))
  unfold Session.shape
  rw [shapeSection_eq]
  exact hleft.settleMarker hstart _ _

end Past

/-- The level at which a section was entered stays with its frame. -/
theorem level_shape (g : Setup) (s : Session) (frame : Frame) (frames : List Frame) (m : Marker)
    (kind : Option Kind) (result pinned : Bool) :
    (s.shape g frame frames m kind result pinned).1.level = frame.level := by
  refine Frame.level_eq_of_core ?_
  unfold shape
  rw [shapeSection_eq]
  generalize { s with frames }.note _ = noted
  have hleft := Work.core_leftMarker (g := g) noted frame m
    ((frame.kind <|> kind).isSome && (result || pinned))
  generalize noted.leftMarker g frame m _ = x at hleft ⊢
  unfold settleMarker
  dsimp only
  split
  · split
    · exact hleft
    · split <;> exact hleft
  · split
    · exact (Work.core_eraseSection ..).trans hleft
    · exact hleft

end Session

/-- Running the rule at the level ends, and the session has gone on, if there are no hooks. -/
def Runner.GoesOn (g : Setup) (run : Runner) (rule : RuleRef) (level : Nat) : Prop :=
  ∀ s : Session, s.InBounds g → s.hooks = [] → Arrives (fun x => s.GoesOn g x.2) (run rule level s)

theorem Runner.GoesOn.proceedsIn {g : Setup} {run : Runner} {rule : RuleRef} {level : Nat}
    {s₀ : Session} (h : run.GoesOn g rule level) (hs₀ : s₀.InBounds g) (hhooks : s₀.hooks = []) :
    run.ProceedsIn (s₀.GoesOn g) rule level :=
  fun s hs => (h s (hs.acts.inBounds hs₀) (hs.hooks.trans hhooks)).mono fun _ hx =>
    ⟨hs.trans hx, hx.position⟩

namespace Session

variable {g : Setup} {s s₀ : Session} {m : Marker} {frame : Frame} {run : Runner}
  {rounds level : Nat} {kind : Option Kind}

namespace GoesOn

theorem past (h : GoesOn g s₀ s) : Past s₀.position s₀.hooks s := ⟨h.position, h.hooks⟩

theorem shape {frames : List Frame} (h : GoesOn g s₀ s) (hm : s.log.OpenedFrom s₀.position m)
    (hframes : s.frames = frame :: frames) (kind : Option Kind) (result pinned : Bool) :
    GoesOn g s₀ (s.shape g frame frames m kind result pinned).2 := by
  have hpast := h.past.shape (g := g) hm frame frames kind result pinned
  exact ⟨h.acts.trans (.shape hframes kind result pinned), hpast.position, hpast.hooks⟩

theorem rollback (h : GoesOn g s₀ s) (hm : s.log.OpenedFrom s₀.position m) :
    GoesOn g s₀ (s.rollback m) :=
  ⟨h.acts.trans (.rollback m s), (h.past.rollback hm).position, (h.past.rollback hm).hooks⟩

theorem leaveUnbalanced (h : GoesOn g s₀ s) (hm : s.log.OpenedFrom s₀.position m)
    (level found : Nat) : GoesOn g s₀ (s.leaveUnbalanced g level found m) := by
  have habort (error : Fatal) (hno : ∀ offset, error ≠ .misplacedLookahead offset) :
      GoesOn g s ((s.toSignificant g).abort g error) :=
    (seek g s).trans (.calm (.abort ..) (.abort _ _ fun _ he => absurd he (hno _)))
  have hstop := habort (.unbalanced level found ((s.toSignificant g).offset g)) nofun
  have hback := (h.trans hstop).rollback (hstop.acts.leadsTo.openedFrom hm)
  exact hback.trans ((Smooth.closeLevel _).goesOn (.still (.level _ _)))

end GoesOn

/-- What has been going on from a state in the source. -/
theorem Lasting.since (hs₀ : s₀.InBounds g) : Lasting g (GoesOn g s₀) :=
  ⟨fun h => h.acts.inBounds hs₀, GoesOn.trans⟩

section
variable (hhooks : s₀.hooks = [])
include hhooks

/-- Without hooks nothing is left to be done but to count one open section less. -/
theorem arrives_closeLevel (h : GoesOn g s₀ s) (hook : HookRunner) :
    Arrives (GoesOn g s₀)
      ((s.runLevelHooks g hook rounds kind).bind fun s => some s.closeLevel) := by
  have hnone : s.hooks.isEmpty = true := by rw [h.hooks, hhooks]; rfl
  unfold runLevelHooks
  rw [if_pos hnone]
  exact .some (h.trans ((Smooth.closeLevel s).goesOn (.still (.level _ _))))

/-- A section is left in the end if rules that are run further in than it is end. -/
theorem arrives_leave (hs₀ : s₀.InBounds g) (hacts : run.Acts g false)
    (hrun : ∀ rule level', level < level' → run.GoesOn g rule level')
    (hrounds : g.source.size < rounds) (h : GoesOn g s₀ s) (hm : s.log.OpenedFrom s₀.position m)
    (hook : HookRunner) (kind : Option Kind) (result pinned : Bool) (eatMore : Option RuleRef) :
    Arrives (GoesOn g s₀) (s.leave g run hook rounds level m kind result pinned eatMore) := by
  cases hframes : s.frames with
  | nil =>
    simp only [leave, hframes]
    exact .some (h.leaveUnbalanced hm _ _)
  | cons frame frames =>
    by_cases hlevel : frame.level = level
    · rw [leave_eq hframes hlevel]
      have hin := h.acts.inBounds hs₀
      have hframe := (inBounds_shape hin hframes m kind result pinned).1
      have hshape := h.shape hm hframes kind result pinned
      have hlevel' := level_shape g s frame frames m kind result pinned
      generalize s.shape g frame frames m kind result pinned = x at hframe hshape hlevel' ⊢
      rw [hlevel] at hlevel'
      have hproceeds (rule : RuleRef) (level' : Nat) (hlt : x.1.level < level') :
          run.ProceedsIn (GoesOn g s₀) rule level' :=
        (hrun rule level' (hlevel' ▸ hlt)).proceedsIn hs₀ hhooks
      refine (arrives_settleErrors (.since hs₀) hacts (hproceeds g.advancer)
        (fun rule _ => hproceeds rule) hrounds hframe _ result pinned hshape).bind fun t _ ht => ?_
      exact arrives_closeLevel hhooks ht hook
    · have hlost : GoesOn g s { s with frames } := by
        have hacts : s.Acts g false { s with frames := s.frames.tail } := .lose s rfl
        rw [hframes] at hacts
        exact ⟨hacts, Nat.le_refl _, rfl⟩
      simp only [leave, hframes]
      rw [if_neg hlevel]
      exact .some ((h.trans hlost).leaveUnbalanced hm _ _)

/-- So is a section without a frame. -/
theorem arrives_leaveSimple (h : GoesOn g s₀ s) (hm : s.log.OpenedFrom s₀.position m)
    (hook : HookRunner) (rounds : Nat) (kind : Option Kind) (result : Bool) :
    Arrives (GoesOn g s₀) (s.leaveSimple g hook rounds m kind result) := by
  have hclose : GoesOn g s₀ (s.closeMarker m kind result) := by
    have hpast : Past s₀.position s₀.hooks (s.closeMarker m kind result) := by
      unfold closeMarker
      split
      · split
        · exact h.past.smooth (.commitAs ..)
        · exact h.past.smooth (.drop ..)
      · exact (h.past.smooth (.modifyFrame s _)).rollback (m := m) hm
    exact ⟨h.acts.trans (.closeMarker m kind result s), hpast.position, hpast.hooks⟩
  rw [leaveSimple_eq]
  exact arrives_closeLevel hhooks hclose hook

end

end Session

end Descent
