import Descent.Proofs.Session.Ascending
import Descent.Proofs.Session.RunWork

/-!
# Marker steps of a session

`s.LeadsTo s'` says that from `s` to `s'` nothing happens to the markers but marker steps, one after the
other, whatever else changes. All that is done to a session is of that kind: reports, recovery, chunks,
and the opening and leaving of sections, provided that the rules and hooks that are run are. Nothing is
presupposed of the state or of the rules.

The steps are `Proper`: what comes in with a marker are errors in the input, as nodes of kind ERROR.
-/

namespace Descent

open Session (Calm)

/-- An error that comes in makes a node of kind ERROR. It is an error in the input, or some marker
has it already. -/
def MarkerStep.Proper (s : Session) : MarkerStep → Prop
  | commit _ kind (some error) =>
    kind = .error ∧ (error.code.isSyntaxError = true ∨ ∃ m, s.log.error? m = some error)
  | _ => True

/-- Proper marker steps lead from one state to another. -/
inductive Session.LeadsTo : Session → Session → Prop
  /-- The position may move and all else may change but the markers. -/
  | still {s s' : Session} (h : s'.log = s.log) : LeadsTo s s'
  | step (step : MarkerStep) (s : Session) (h : step.Proper s) : LeadsTo s (step.run s)
  | trans {s s₁ s₂ : Session} (h : LeadsTo s s₁) (h' : LeadsTo s₁ s₂) : LeadsTo s s₂

/-- Whatever rule is run, marker steps lead to its end. -/
def Runner.Leads (run : Runner) : Prop :=
  ∀ rule level s b s', run rule level s = some (b, s') → s.LeadsTo s'

/-- Whatever hook is run, marker steps lead to its end. -/
def HookRunner.Leads (hook : HookRunner) : Prop :=
  ∀ body m? s m?' s', hook body m? s = some (m?', s') → s.LeadsTo s'

namespace Session

/-! ## Lists of steps -/

/-- What a step does to the log and the position does not depend on anything else. -/
theorem step_congr {s t : Session} (hlog : t.log = s.log) (hposition : t.position = s.position)
    (step : MarkerStep) :
    (step.run t).log = (step.run s).log ∧ (step.run t).position = (step.run s).position := by
  cases step with
  | seek p => exact ⟨hlog, rfl⟩
  | openAt p => simp [MarkerStep.run, hlog, hposition]
  | commit m kind error =>
    simp only [MarkerStep.run, log_commit, position_commit, hlog, hposition, and_self]
  | drop m => simp [MarkerStep.run, drop, hlog, hposition]
  | wrap m => simp only [MarkerStep.run, log_wrap, position_wrap, hlog, hposition, and_self]
  | rollback m =>
    simp only [MarkerStep.run, rollback, hlog]
    split
    · exact ⟨rfl, rfl⟩
    · exact ⟨hlog, hposition⟩

theorem runSteps_congr {s t : Session} (hlog : t.log = s.log) (hposition : t.position = s.position)
    (steps : List MarkerStep) : (t.runSteps steps).log = (s.runSteps steps).log ∧
      (t.runSteps steps).position = (s.runSteps steps).position := by
  induction steps generalizing s t with
  | nil => exact ⟨hlog, hposition⟩
  | cons step steps ih =>
    obtain ⟨hlog', hposition'⟩ := step_congr hlog hposition step
    exact ih hlog' hposition'

namespace LeadsTo

variable {s s' t : Session} {g : Setup} {m : Marker}

/-- Marker steps are steps of a list. -/
theorem exists_steps (h : s.LeadsTo s') :
    ∃ steps, (s.runSteps steps).log = s'.log ∧ (s.runSteps steps).position = s'.position := by
  induction h with
  | @still s s' h => exact ⟨[.seek s'.position], h.symm, rfl⟩
  | step step s _ => exact ⟨[step], rfl, rfl⟩
  | trans _ _ ih ih' =>
    obtain ⟨steps, hlog, hposition⟩ := ih
    obtain ⟨steps', hlog', hposition'⟩ := ih'
    obtain ⟨hlog'', hposition''⟩ := runSteps_congr hlog hposition steps'
    refine ⟨steps ++ steps', ?_, ?_⟩
    · rw [runSteps, List.foldl_append]
      exact hlog''.trans hlog'
    · rw [runSteps, List.foldl_append]
      exact hposition''.trans hposition'

theorem sound (h : s.LeadsTo s') (hs : s.log.Sound) : s'.log.Sound := by
  induction h with
  | still h => exact h ▸ hs
  | step step s _ => exact hs.step step
  | trans _ _ ih ih' => exact ih' (ih hs)

/-! ## Single steps -/

theorem size_le (h : s.LeadsTo s') : s.log.markers.size ≤ s'.log.markers.size := by
  induction h with
  | still h => exact Nat.le_of_eq (by rw [h])
  | step step s _ => exact s.size_markers_le_step step
  | trans _ _ ih ih' => exact Nat.le_trans ih ih'

theorem refl (s : Session) : s.LeadsTo s := .still rfl

theorem calm (h : Calm s s') : s.LeadsTo s' := .still h.log

theorem openMarker (g : Setup) (s : Session) : s.LeadsTo (s.openMarker g).2 :=
  .trans (.step (.seek (g.significant s.position)) s trivial)
    (.step (.openAt (g.significant s.position)) _ trivial)

theorem commitAs (m : Marker) (kind : Kind) (s : Session) : s.LeadsTo (s.commitAs m kind) :=
  .step (.commit m kind none) s trivial

theorem commitError {m : Marker} {error : SyntaxError} {s : Session}
    (h : error.code.isSyntaxError = true ∨ ∃ x, s.log.error? x = some error) :
    s.LeadsTo (s.commit m .error (some error)) :=
  .step (.commit m .error (some error)) s ⟨rfl, h⟩

theorem drop (m : Marker) (s : Session) : s.LeadsTo (s.drop m) := .step (.drop m) s trivial

theorem wrap (m : Marker) (s : Session) : s.LeadsTo (s.wrap m).2 := .step (.wrap m) s trivial

theorem rollback (m : Marker) (s : Session) : s.LeadsTo (s.rollback m) :=
  .step (.rollback m) s trivial

theorem widen (m : Marker) (s : Session) : s.LeadsTo (s.widen m) := by
  unfold Session.widen
  split
  · exact refl s
  · dsimp only
    split
    · next error herror =>
      exact ((wrap m s).trans (commitError (.inr ⟨m, herror⟩))).trans (drop m _)
    · exact ((wrap m s).trans (commitAs ..)).trans (drop m _)

theorem dropAny (m? : Option Marker) (s : Session) : s.LeadsTo (s.dropAny m?) := by
  cases m? with
  | none => exact refl s
  | some m => exact drop m s

theorem widenOver (node : Option Marker) (site : Nat) (s : Session) :
    s.LeadsTo (s.widenOver node site) := by
  unfold Session.widenOver
  split
  · split
    · exact widen ..
    · exact refl s
  · exact refl s

/-- What grouping does to markers are marker steps. -/
theorem invariant (g : Setup) (s : Session) :
    MarkerInvariant g s.LeadsTo (fun _ => True) fun _ => True where
  calm h hc := h.trans (calm hc)
  openMarker h := ⟨h.trans (openMarker ..), trivial⟩
  commitAs _ h _ _ := h.trans (commitAs ..)
  drop h _ := h.trans (drop ..)
  wrap h _ := ⟨h.trans (wrap ..), trivial⟩

theorem groupRun {run : Runner} (hrun : run.Leads) {rounds level : Nat} {kind : Kind}
    {minds b : Bool} {item eatMore : RuleRef}
    (h : s.groupRun g run rounds level kind minds item eatMore = some (b, s')) : s.LeadsTo s' :=
  (invariant g s).groupRun (fun rule _ level t b t' ht hr => ht.trans (hrun rule level t b t' hr))
    (refl s) h trivial

/-! ## Reports -/

/-- What is reported is an error in the input. -/
theorem errorHere_isSyntaxError (g : Setup) (expected : String) (s : Session) :
    (s.errorHere g expected).code.isSyntaxError = true := by
  unfold Session.errorHere
  dsimp only
  split
  · rfl
  · split <;> rfl

theorem insertError (g : Setup) (expected : String) (s t : Session) :
    t.LeadsTo (t.insertError g (s.errorHere g expected)) :=
  (openMarker g t).trans (commitError (.inl (errorHere_isSyntaxError g expected s)))

theorem report (g : Setup) (site : Nat) (inner force : Bool) (s : Session) :
    s.LeadsTo (s.report g site inner force).2 := by
  unfold Session.report
  dsimp only
  split
  · exact refl s
  · split
    · exact still rfl
    · generalize hnoted : (s.toSignificant g).note _ = noted
      have hnote : s.LeadsTo noted := hnoted ▸ still rfl
      have herror := insertError g ((s.toSignificant g).expectedHere g) (s.toSignificant g) noted
      split
      · exact hnote.trans (herror.trans ((widenOver ..).trans (still rfl)))
      · exact hnote.trans (herror.trans (still rfl))

theorem reportInFrame (g : Setup) (site : Nat) (inner : Bool) (s : Session) :
    s.LeadsTo (s.reportInFrame g site inner) := by
  have h := report g site inner true s
  unfold Session.reportInFrame
  split
  · next heq =>
    rw [heq] at h
    exact h.trans (still rfl)
  · next heq =>
    rw [heq] at h
    exact h

theorem reportHere (g : Setup) (s : Session) : s.LeadsTo (s.reportHere g) := by
  have hseek : s.LeadsTo (s.toSignificant g) := still rfl
  unfold Session.reportHere
  dsimp only
  split
  · exact still rfl
  · split
    · exact hseek.trans (reportInFrame ..)
    · exact hseek

theorem reportFor (g : Setup) (frame : Frame) (inner force : Bool) (s : Session) :
    s.LeadsTo (s.reportFor g frame inner force).2.2 := by
  rw [session_reportFor]
  exact report ..

/-! ## Recovery -/

section
variable {run : Runner} (hrun : run.Leads) {rounds level lastError initial : Nat}
  {frame frame' : Frame} {kind : Option Kind} {result pinned more : Bool} {eatMore : RuleRef}
include hrun

theorem reportSwallowing {p : Option Nat}
    (h : s.reportSwallowing g run level = some (p, s')) : s.LeadsTo s' := by
  unfold Session.reportSwallowing at h
  split at h
  · cases h
    exact refl s
  · have hnote : s.LeadsTo ((s.toSignificant g).note (.errorReported (s.toSignificant g).position
        ((s.toSignificant g).errorHere g ((s.toSignificant g).expectedHere g)) true false)) :=
      still rfl
    obtain ⟨⟨b, t⟩, ht, h⟩ := Option.bind_eq_some_iff.1 h
    obtain ⟨-, rfl⟩ := Prod.mk.inj (Option.some.inj h)
    have hbody := (openMarker g _).trans (hrun _ _ _ _ _ ht)
    have herror := commitError (s := t) (m := ((s.toSignificant g).log.fresh))
      (.inl (errorHere_isSyntaxError g ((s.toSignificant g).expectedHere g) (s.toSignificant g)))
    exact hnote.trans (hbody.trans (herror.trans (still rfl)))

theorem reportSwallowingFor {b : Bool}
    (h : s.reportSwallowingFor g run frame = some (b, frame', s')) : s.LeadsTo s' := by
  obtain ⟨⟨p, t⟩, ht, h⟩ := Option.bind_eq_some_iff.1 h
  have hreport := reportSwallowing hrun ht
  cases p with
  | some p => cases h; exact hreport
  | none => cases h; exact hreport

theorem skipRun {name : String} {depth : Int} {more' : Bool}
    (h : s.skipRun g run eatMore name level lastError rounds more depth = some (more', s')) :
    s.LeadsTo s' :=
  skipRun_keeps (fun _ _ _ _ _ _ h ht => h.trans (hrun _ _ _ _ _ ht))
    (fun _ _ h hc => h.trans (calm hc)) (refl s) h

theorem reportSkipped {eatsFirst reported : Bool}
    (h : s.reportSkipped g run rounds frame kind result pinned eatMore initial eatsFirst more =
      some (reported, frame', s')) : s.LeadsTo s' :=
  reportSkipped_keeps (fun _ _ _ _ _ _ h ht => h.trans (hrun _ _ _ _ _ ht))
    (fun _ _ _ => reportSwallowingFor hrun) (fun _ _ _ h ht => h.trans (groupRun hrun ht))
    (fun inner force => reportFor g frame inner force s) (refl s) h

theorem recover
    (h : s.recover g run rounds frame kind result pinned eatMore initial lastError =
      some (frame', s')) : s.LeadsTo s' := by
  have hseek : s.LeadsTo ({ s with quiet := true }.toSignificant g) := still rfl
  obtain ⟨eatsFirst, t, starts, more, u, reported, frame₁, v, last, ht, hu, hv, -, hend⟩ :=
    exists_stages h
  have hfirst : s.LeadsTo t := by
    rcases ht with ⟨-, rfl⟩ | ht
    · exact hseek
    · exact hseek.trans (hrun _ _ _ _ _ ht)
  have hskip : s.LeadsTo (u.note (.skipped u.position lastError more)) :=
    hfirst.trans ((skipRun hrun hu).trans (still rfl))
  have hreport := hskip.trans (reportSkipped hrun hv)
  have hwiden := hreport.trans (widenOver last frame₁.position v)
  rcases hend with heq | heq
  · cases heq
    exact hwiden.trans (still rfl)
  · obtain ⟨-, rfl⟩ := Prod.mk.inj heq
    exact hwiden.trans (still rfl)

theorem settleErrors {eatMore : Option RuleRef}
    (h : s.settleErrors g run rounds frame kind result pinned eatMore = some s') :
    s.LeadsTo s' := by
  have hattempts : s.LeadsTo (s.attemptsByName g frame kind (result || pinned)).2 :=
    .still (Work.calm_attemptsByName s frame kind (result || pinned)).log
  obtain ⟨frame₁, t, rfl, hcases⟩ := settleErrors_cases h
  have hsettle : (s.attemptsByName g frame kind (result || pinned)).2.LeadsTo t := by
    obtain ⟨rule, -, -, hrecover⟩ | ⟨-, -, rfl⟩ | ⟨-, rfl⟩ := hcases
    · exact recover hrun hrecover
    · unfold reportPinned
      split
      · exact reportFor ..
      · split <;> exact refl _
    · exact refl _
  exact hattempts.trans (hsettle.trans (still rfl))

end

/-! ## Sections -/

theorem absorbChild (g : Setup) (frame : Frame) (kind : Kind) (s : Session) :
    s.LeadsTo (s.absorbChild g frame kind).2 := by
  unfold Session.absorbChild
  split
  · next child _ =>
    have hnote : s.LeadsTo (s.note (.childKept child)) := still rfl
    exact hnote.trans (drop child _)
  · exact refl s

theorem placeNode (g : Setup) (frame : Frame) (m : Marker) (kind : Kind) (s : Session) :
    s.LeadsTo (s.placeNode g frame m kind) := by
  unfold Session.placeNode
  split
  · exact (drop m s).trans (still rfl)
  · split
    · split
      · exact (commitAs ..).trans (widen ..)
      · exact (drop m s).trans ((wrap ..).trans (commitAs ..))
    · split
      · have hseek : s.LeadsTo (s.toSignificant g) := still rfl
        exact hseek.trans (commitAs ..)
      · exact commitAs ..

theorem leftMarker (g : Setup) (frame : Frame) (m : Marker) (keeps : Bool) (s : Session) :
    s.LeadsTo (s.leftMarker g frame m keeps).2.2 := by
  unfold Session.leftMarker
  split
  · have herase (c : Lookahead) : s.LeadsTo { s.rollback m with lookahead := c } :=
      (rollback m s).trans (still rfl)
    unfold endLookahead
    cases keeps with
    | true => exact (herase _).trans (openMarker ..)
    | false => exact herase _
  · exact refl s

theorem settleMarker (g : Setup) (frame : Frame) (m? : Option Marker) (kind : Option Kind)
    (stays : Bool) (s : Session) : s.LeadsTo (s.settleMarker g frame m? kind stays).2 := by
  unfold Session.settleMarker
  split
  · split
    · rw [commitShaped_eq]
      exact (absorbChild ..).trans (placeNode ..)
    · split
      · split
        · exact (dropAny ..).trans (widen ..)
        · exact dropAny ..
      · exact dropAny ..
  · split
    · exact rollback ..
    · exact refl s

theorem shapeSection (g : Setup) (frame : Frame) (m : Marker) (kind : Option Kind) (stays : Bool)
    (s : Session) : s.LeadsTo (s.shapeSection g frame m kind stays).2 := by
  rw [shapeSection_eq]
  exact (leftMarker ..).trans (settleMarker ..)

theorem closeMarker (m : Marker) (kind : Option Kind) (result : Bool) (s : Session) :
    s.LeadsTo (s.closeMarker m kind result) := by
  unfold Session.closeMarker
  split
  · split
    · exact commitAs ..
    · exact drop ..
  · have hforget (f : Frame → Frame) : s.LeadsTo (s.modifyFrame f) := still rfl
    exact (hforget _).trans (rollback m _)

section
variable {run : Runner} {hook : HookRunner} (hhook : hook.Leads) {rounds level : Nat}
  {kind : Option Kind} {result pinned : Bool} {eatMore : Option RuleRef}
include hhook

theorem runHooksFrom {m? : Option Marker} (h : s.runHooksFrom hook rounds m? = some s') :
    s.LeadsTo s' := by
  induction rounds generalizing s m? with
  | zero => cases h
  | succ rounds ih =>
    simp only [Session.runHooksFrom] at h
    split at h
    · cases h
      exact refl _
    · next x hooks _ =>
      have hpop : s.LeadsTo { s with hooks } := still rfl
      split at h
      · cases h
        exact refl _
      · split at h
        · obtain ⟨⟨n?, t⟩, ht, h⟩ := Option.bind_eq_some_iff.1 h
          exact hpop.trans ((hhook _ _ _ _ _ ht).trans (ih h))
        · exact hpop.trans (ih h)

theorem runLevelHooks (h : s.runLevelHooks g hook rounds kind = some s') : s.LeadsTo s' := by
  unfold Session.runLevelHooks at h
  split at h
  · cases h
    exact refl _
  · split at h
    · exact runHooksFrom hhook h
    · exact runHooksFrom hhook h
    · have hseek : s.LeadsTo (s.toSignificant g) := still rfl
      exact hseek.trans ((calm (.abort ..)).trans (runHooksFrom hhook h))

theorem leaveSimple (h : s.leaveSimple g hook rounds m kind result = some s') : s.LeadsTo s' := by
  rw [leaveSimple_eq] at h
  obtain ⟨t, ht, h⟩ := Option.bind_eq_some_iff.1 h
  cases h
  exact (closeMarker m kind result s).trans ((runLevelHooks hhook ht).trans (still rfl))

theorem leave (hrun : run.Leads)
    (h : s.leave g run hook rounds level m kind result pinned eatMore = some s') :
    s.LeadsTo s' := by
  have hunbalanced (found : Nat) (t : Session) (ht : t.log = s.log) :
      s.LeadsTo (t.leaveUnbalanced g level found m) := by
    have hseek : s.LeadsTo (t.toSignificant g) := still ht
    exact hseek.trans ((calm (.abort ..)).trans ((rollback m _).trans (still rfl)))
  cases hframes : s.frames with
  | nil =>
    simp only [Session.leave, hframes] at h
    cases h
    exact hunbalanced s.level s rfl
  | cons frame frames =>
    by_cases hlevel : frame.level = level
    · rw [leave_eq hframes hlevel] at h
      obtain ⟨t, ht, h⟩ := Option.bind_eq_some_iff.1 h
      obtain ⟨u, hu, h⟩ := Option.bind_eq_some_iff.1 h
      cases h
      have hnote : s.LeadsTo ({ s with frames }.note (.sectionLeft frame result pinned)) := still rfl
      have hshape := hnote.trans (shapeSection g frame m (frame.kind <|> kind) (result || pinned) _)
      have hsettle := hshape.trans (settleErrors hrun ht)
      exact hsettle.trans ((runLevelHooks hhook hu).trans (still rfl))
    · simp only [Session.leave, hframes, if_neg hlevel] at h
      cases h
      exact hunbalanced frame.level { s with frames } rfl

end

end LeadsTo

end Session

end Descent
