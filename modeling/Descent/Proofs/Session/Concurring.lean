import Descent.Proofs.Session.Uncounted

/-!
# Where rules are asked

Grouping, recovery and the leaving of sections run rules and hooks. A property of sessions that these keep, and
that holds on as long as no attempt is counted, holds whenever one of them is run: two runners that come to the
same wherever it holds (`Runner.Concurs`) cannot be told apart. Only where the name of a section takes the place of
attempts, or a recovery clears them, the property has to be shown by itself (`Runner.Concurs.settleErrors`).
-/

namespace Descent

open Session (Uncounted Unrecorded)

/-- The property holds on as long as no attempt is counted. Where it holds both runners give the same answer, and
it holds after that. -/
structure Runner.Concurs (I : Session → Prop) (run run' : Runner) : Prop where
  aside {t t' : Session} : I t → t.Uncounted t' → I t'
  answer {t : Session} (rule : RuleRef) (level : Nat) : I t →
    Concur (fun y => I y.2) (run rule level t) (run' rule level t)

/-- So it is with hooks, of those that wait where the property holds. -/
structure HookRunner.Concurs (I : Session → Prop) (hook hook' : HookRunner) : Prop where
  aside {t t' : Session} : I t → t.Uncounted t' → I t'
  answer {t : Session} {h : Hook} {hooks : List Hook} (m? : Option Marker) : I t → t.hooks = h :: hooks →
    Concur (fun y => I y.2) (hook h.body m? { t with hooks }) (hook' h.body m? { t with hooks })

variable {g : Setup} {I : Session → Prop} {s : Session}

namespace Runner.Concurs

variable {run run' : Runner} (h : run.Concurs I run') {rounds level : Nat} {eatMore : RuleRef}
include h

theorem moves (g : Setup) : MarkerMoves g I (fun _ _ => True) fun _ => True where
  toSignificant ht := ⟨h.aside ht (.toSignificant ..), fun _ _ => trivial⟩
  guardProgress rule position ht :=
    ⟨h.aside ht (Unrecorded.guardProgress g _ rule position).uncounted, fun _ _ => trivial⟩
  note _ _ ht := ⟨h.aside ht (.of_eq rfl rfl rfl), fun _ _ => trivial⟩
  openMarker ht := ⟨⟨h.aside ht (.openMarker ..), fun _ _ => trivial⟩, trivial⟩
  commitAs _ ht _ _ := ⟨h.aside ht (.commit ..), fun _ _ => trivial⟩
  drop ht _ := ⟨h.aside ht (.of_eq rfl rfl rfl), fun _ _ => trivial⟩
  wrap ht _ := ⟨⟨h.aside ht (.wrap ..), fun _ _ => trivial⟩, trivial⟩

theorem groupRun {kind : Kind} {item : RuleRef} {minds : Bool} (hs : I s) :
    Concur (fun y => I y.2) (s.groupRun g run rounds level kind minds item eatMore)
      (s.groupRun g run' rounds level kind minds item eatMore) := by
  refine (h.moves g).concur_groupRun (fun rule _ level t ht => ?_) hs trivial
  exact (h.answer rule level ht).imp fun _ hy => ⟨hy, fun _ _ => trivial⟩

/-! ## Recovery -/

theorem reportSwallowing (hs : I s) :
    Concur (fun y => I y.2) (s.reportSwallowing g run level) (s.reportSwallowing g run' level) := by
  unfold Session.reportSwallowing
  refine .ite (fun _ => .some hs) fun _ => ?_
  dsimp only [Option.bind_eq_bind]
  generalize (s.toSignificant g).errorHere g _ = error
  generalize hnoted : (s.toSignificant g).note _ = noted
  have hnote : s.Uncounted noted := by
    rw [← hnoted]
    exact .of_eq rfl rfl rfl
  refine (h.answer _ _ (h.aside hs (hnote.trans (.openMarker g noted)))).bind fun y _ hy => .some ?_
  exact h.aside hy ((Uncounted.commit ..).trans (.toSignificant ..))

theorem skipRun {name : String} {lastError : Nat} {more : Bool} {depth : Int} (hs : I s) :
    Concur (fun y => I y.2) (s.skipRun g run eatMore name level lastError rounds more depth)
      (s.skipRun g run' eatMore name level lastError rounds more depth) := by
  induction rounds generalizing s more depth with
  | zero => exact ⟨rfl, fun _ he => by cases he⟩
  | succ rounds ih =>
    have hseek := h.aside hs (.toSignificant g s)
    simp only [Session.skipRun, Option.bind_eq_bind]
    refine .ite (fun _ => ?_) fun _ => .some hs
    refine .ite (fun _ => .some hseek) fun _ => ?_
    refine (h.answer g.advancer level hseek).bind fun y _ hy => ?_
    refine .ite (fun _ => .some ?_) fun _ => ?_
    · exact h.aside hy ((Uncounted.toSignificant g y.2).trans (.abort ..))
    · exact (h.answer eatMore level hy).bind fun z _ hz => ih hz

section
variable {initial lastError : Nat} {frame : Frame} {kind : Option Kind} {result pinned : Bool}

/-- The frame goes on counting as many attempts. -/
theorem reportSwallowingFor (hs : I s) :
    Concur (fun y => I y.2.2 ∧ y.2.1.attemptsBefore = frame.attemptsBefore)
      (s.reportSwallowingFor g run frame) (s.reportSwallowingFor g run' frame) := by
  refine (h.reportSwallowing hs).bind fun y _ hy => ?_
  obtain ⟨p, t⟩ := y
  cases p with
  | some p => exact .some ⟨hy, rfl⟩
  | none => exact .some ⟨hy, rfl⟩

theorem reportSkipped {eatsFirst more : Bool} (hs : I s) :
    Concur (fun y => I y.2.2 ∧ y.2.1.attemptsBefore = frame.attemptsBefore)
      (s.reportSkipped g run rounds frame kind result pinned eatMore initial eatsFirst more)
      (s.reportSkipped g run' rounds frame kind result pinned eatMore initial eatsFirst more) := by
  have hfor (inner force : Bool) : I (s.reportFor g frame inner force).2.2 ∧
      (s.reportFor g frame inner force).2.1.attemptsBefore = frame.attemptsBefore :=
    ⟨h.aside hs (.reportFor ..), Session.attemptsBefore_reportFor ..⟩
  simp only [Session.reportSkipped, Option.bind_eq_bind, ← bind_ite]
  refine .ite (fun _ => ?_) fun _ => ?_
  · refine Concur.bind (Q := fun y => I y.2.2 ∧ y.2.1.attemptsBefore = frame.attemptsBefore) ?_
      fun y _ hy => ?_
    · refine .ite (fun _ => h.reportSwallowingFor hs) fun _ => ?_
      refine .ite (fun _ => ?_) fun _ => .some ⟨hs, rfl⟩
      exact (h.answer _ _ hs).map fun z hz => ⟨hz, rfl⟩
    · refine .ite (fun _ => .some hy) fun _ => ?_
      refine (h.answer eatMore _ hy.1).bind fun z _ hz => ?_
      refine .ite (fun _ => ?_) fun _ => .some ⟨hz, hy.2⟩
      exact (h.groupRun hz).bind fun w _ hw => .some ⟨hw, hy.2⟩
  · refine .ite (fun _ => .some (hfor false true)) fun _ => ?_
    exact .ite (fun _ => .some (hfor kind.isSome false)) fun _ => .some ⟨hs, rfl⟩

variable (hclear : ∀ {frame' : Frame} {t : Session}, I t → frame'.attemptsBefore = frame.attemptsBefore →
  I (t.clearAttempts frame').2)
include hclear

/-- A recovery may clear the attempts at its end. -/
theorem recover (hs : I s) :
    Concur (fun y => I y.2)
      (s.recover g run rounds frame kind result pinned eatMore initial lastError)
      (s.recover g run' rounds frame kind result pinned eatMore initial lastError) := by
  have hseek : I ({ s with quiet := true }.toSignificant g) := h.aside hs (.of_eq rfl rfl rfl)
  simp only [Session.recover, Option.bind_eq_bind, ← bind_ite]
  refine Concur.bind (Q := fun y => I y.2) ?_ fun y _ hy => ?_
  · exact .ite (fun _ => .some hseek) fun _ => h.answer eatMore (frame.level + 1) hseek
  · refine (h.skipRun hy).bind fun z _ hz => ?_
    have hnote : I (z.2.note (.skipped z.2.position lastError z.1)) := h.aside hz (.of_eq rfl rfl rfl)
    refine (h.reportSkipped hnote).bind fun w _ hw => ?_
    generalize (if (pinned || result) && (g.widensAlways || kind.isSome) && y.1 then
      y.2.log.lastWidenable? else none) = last
    have hwiden := h.aside hw.1 (Unrecorded.widenOver w.2.2 last w.2.1.position).uncounted
    have hloud : I { w.2.2.widenOver last w.2.1.position with quiet := false } :=
      h.aside hwiden (.of_eq rfl rfl rfl)
    exact .ite (fun _ => .some (hclear hloud hw.2)) fun _ => .some hloud

/-- If the property holds after a name may have taken the place of attempts, then it holds wherever a rule is run
when the errors of a section are settled, and afterwards. -/
theorem settleErrors {eatMore : Option RuleRef}
    (hs : I (s.attemptsByName g frame kind (result || pinned)).2)
    (hframe : (s.attemptsByName g frame kind (result || pinned)).1.attemptsBefore = frame.attemptsBefore) :
    Concur I (s.settleErrors g run rounds frame kind result pinned eatMore)
      (s.settleErrors g run' rounds frame kind result pinned eatMore) := by
  rw [Session.settleErrors_eq, Session.settleErrors_eq]
  generalize s.attemptsByName g frame kind (result || pinned) = x at hs hframe
  refine Concur.bind (Q := fun y => I y.2) ?_ fun y _ hy => ?_
  · unfold Session.settleFrame
    split
    · exact h.recover (fun ht heq => hclear ht (heq.trans hframe)) hs
    · refine .some ?_
      split
      · exact h.aside hs (.reportPinned ..)
      · exact hs
  · refine .some (h.aside hy (.modifyFrame ?_ y.2))
    exact fun _ => rfl

end

end Runner.Concurs

/-! ## Hooks -/

namespace HookRunner.Concurs

variable {hook hook' : HookRunner} (h : hook.Concurs I hook') {rounds : Nat} {kind : Option Kind}
include h

theorem runHooksFrom {m? : Option Marker} (hs : I s) :
    Concur I (s.runHooksFrom hook rounds m?) (s.runHooksFrom hook' rounds m?) := by
  induction rounds generalizing s m? with
  | zero => exact ⟨rfl, fun _ he => nomatch he⟩
  | succ rounds ih =>
    simp only [Session.runHooksFrom, Option.bind_eq_bind]
    split
    · exact .some hs
    · next x hooks hhooks =>
      have hpop : I { s with hooks } :=
        h.aside hs ⟨rfl, rfl, fun _ hx => hhooks ▸ List.mem_cons_of_mem x hx⟩
      refine .ite (fun _ => .some hs) fun _ => ?_
      refine .ite (fun _ => ?_) fun _ => ih hpop
      exact (h.answer _ hs hhooks).bind fun y _ hy => ih hy

theorem runLevelHooks (hs : I s) :
    Concur I (s.runLevelHooks g hook rounds kind) (s.runLevelHooks g hook' rounds kind) := by
  unfold Session.runLevelHooks
  refine .ite (fun _ => .some hs) fun _ => ?_
  split
  · exact h.runHooksFrom hs
  · exact h.runHooksFrom hs
  · exact h.runHooksFrom (h.aside hs ((Uncounted.toSignificant g s).trans (.abort ..)))

theorem leaveSimple {m : Marker} {result : Bool} (hs : I s) :
    Concur I (s.leaveSimple g hook rounds m kind result) (s.leaveSimple g hook' rounds m kind result) := by
  rw [Session.leaveSimple_eq, Session.leaveSimple_eq]
  have hclose := h.aside hs (Unrecorded.closeMarker m kind result s).uncounted
  exact (h.runLevelHooks hclose).bind fun y _ hy => .some (h.aside hy (.of_eq rfl rfl rfl))

end HookRunner.Concurs

end Descent
