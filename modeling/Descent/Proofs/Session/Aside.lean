import Descent.Proofs.Session.Unrecorded

/-!
# What leaves sections and hooks alone

Sections are opened by entering them, and hooks are added by leaving them to a section. Whatever else is done to
a session leaves the open sections and the hooks as they are: work on markers, reports, tests, what recovery and
chunks do by themselves, and so every step that opens no section (`Primitive.adds_run`) and every expression made
of such steps (`Grammar.adds_eval`). What recovery adds comes from the rules that it runs
(`Session.settleErrors_keeps`).
-/

namespace Descent

open Session (Calm Steady Surroundings)

namespace Session

/-- From `s` to `s'` the same sections stay open, and `bodies` are left to the innermost one as hooks, the
latest first. -/
structure Adds (bodies : List Expr) (s s' : Session) : Prop where
  level : s'.level = s.level
  levels : s'.frames.map Frame.level = s.frames.map Frame.level
  hooks : s'.hooks = bodies.map (Hook.mk s.level) ++ s.hooks

namespace Adds

variable {s s₁ s' : Session} {bodies later : List Expr}

theorem refl (s : Session) : s.Adds [] s := ⟨rfl, rfl, rfl⟩

theorem trans (h : s.Adds bodies s₁) (h' : s₁.Adds later s') : s.Adds (later ++ bodies) s' where
  level := h'.level.trans h.level
  levels := h'.levels.trans h.levels
  hooks := by rw [h'.hooks, h.hooks, h.level, List.map_append, List.append_assoc]

theorem addHook (body : Expr) (s : Session) : s.Adds [body] (s.addHook body) := ⟨rfl, rfl, rfl⟩

/-- No hook is left to a section that is not open. -/
theorem hooksOpen (h : s.Adds bodies s') (hs : s.HooksOpen) : s'.HooksOpen := by
  intro x hx
  rw [h.hooks] at hx
  rw [h.level]
  rcases List.mem_append.1 hx with hx | hx
  · obtain ⟨body, -, rfl⟩ := List.mem_map.1 hx
    exact Nat.le_refl _
  · exact hs x hx

/-! ### What leaves the sections and hooks alone -/

theorem of_surroundings (h : Surroundings (fun _ => true) s s') : s.Adds [] s' where
  level := h.level
  levels := by
    have hframes := h.frames.imp fun f f' hf => (hf.level : f'.level = f.level)
    generalize s.frames = fs at hframes
    generalize s'.frames = fs' at hframes
    induction hframes with
    | nil => rfl
    | cons hlevel _ ih => rw [List.map_cons, List.map_cons, hlevel, ih]
  hooks := h.hooks

theorem of_work {g : Setup} {first : Option Marker} (h : Work (fun _ => true) g first s s') :
    s.Adds [] s' :=
  of_surroundings h.surroundings

theorem steady (h : Steady s s') : s.Adds [] s' :=
  of_surroundings (.of_eq h.level h.hooks h.quiet h.frames h.lookahead)

theorem calm (h : Calm s s') : s.Adds [] s' := steady (.calm h)

theorem of_unrecorded (h : s.Unrecorded s') : s.Adds [] s' := ⟨h.level, h.levels, h.hooks⟩

theorem openMarker (g : Setup) (s : Session) : s.Adds [] (s.openMarker g).2 := of_unrecorded (.openMarker ..)

theorem drop (m : Marker) (s : Session) : s.Adds [] (s.drop m) := of_unrecorded (.drop ..)

theorem commitAs (m : Marker) (kind : Kind) (s : Session) : s.Adds [] (s.commitAs m kind) :=
  of_unrecorded (.commitAs ..)

theorem wrap (m : Marker) (s : Session) : s.Adds [] (s.wrap m).2 := of_unrecorded (.wrap ..)

theorem rollback (m : Marker) (s : Session) : s.Adds [] (s.rollback m) := of_unrecorded (.rollback ..)

end Adds

/-! ## What the rules of a runner keep -/

section
variable {g : Setup} {run : Runner} {I : Session → Prop}
  (haside : ∀ {t t' : Session}, I t → t.Adds [] t' → I t')
  (hrun : ∀ {rule : RuleRef} {level : Nat} {t : Session} {b : Bool} {t' : Session}, I t →
    run rule level t = some (b, t') → I t')
  {rounds level initial lastError : Nat} {frame frame' : Frame} {kind : Option Kind}
  {result pinned b : Bool} {rule : RuleRef} {s s' : Session} (hs : I s)
include haside hrun hs

/-- What is kept by the rules, and wherever the sections and hooks are left alone, is kept by a group. -/
theorem groupRun_keeps {chunk : Kind} {minds : Bool} {item eatMore : RuleRef}
    (h : s.groupRun g run rounds level chunk minds item eatMore = some (b, s')) : I s' := by
  refine MarkerInvariant.groupRun (Q := fun _ => True) (K := fun _ => True) ?_
    (fun _ _ _ _ _ _ => hrun) hs h trivial
  exact ⟨fun h hc => haside h (.calm hc), fun h => ⟨haside h (.openMarker ..), trivial⟩,
    fun _ h _ _ => haside h (.commitAs ..), fun h _ => haside h (.drop ..),
    fun h _ => ⟨haside h (.wrap ..), trivial⟩⟩

theorem reportSwallowingFor_keeps
    (h : s.reportSwallowingFor g run frame = some (b, frame', s')) : I s' := by
  obtain ⟨⟨p, t⟩, ht, h⟩ := Option.bind_eq_some_iff.1 h
  have hreport : I t := by
    unfold reportSwallowing at ht
    split at ht
    · cases ht
      exact hs
    · obtain ⟨⟨c, u⟩, hu, ht⟩ := Option.bind_eq_some_iff.1 ht
      cases ht
      let error := (s.toSignificant g).errorHere g ((s.toSignificant g).expectedHere g)
      have hnoted := haside hs (.calm ((Calm.toSignificant g s).trans
        (.note _ (.errorReported (s.toSignificant g).position error true false))))
      have hran := hrun (haside hnoted (.openMarker g _)) hu
      refine haside ?_ (.calm (.toSignificant g _))
      exact haside hran (.of_unrecorded (.commit ..))
  cases p <;> cases h <;> exact hreport

theorem recover_keeps
    (h : s.recover g run rounds frame kind result pinned rule initial lastError = some (frame', s')) :
    I s' := by
  obtain ⟨eatsFirst, t, starts, more, u, reported, frame₁, v, last, ht, hu, hv, -, hend⟩ :=
    exists_stages h
  have hquiet : I ({ s with quiet := true }.toSignificant g) :=
    haside hs { Adds.refl s with }
  have hfirst : I t := by
    rcases ht with ⟨-, rfl⟩ | ht
    · exact hquiet
    · exact hrun hquiet ht
  have hskip : I u := skipRun_keeps (fun _ _ _ _ _ _ => hrun) (fun _ _ h hc => haside h (.calm hc)) hfirst hu
  have hnoted := haside hskip (.calm (.note u (.skipped u.position lastError more)))
  have hreport : I v := by
    refine reportSkipped_keeps (fun _ _ _ _ _ _ => hrun) (fun _ _ _ => ?_) (fun _ _ _ ht hg => ?_)
      (fun inner force => ?_) hnoted hv
    · exact reportSwallowingFor_keeps haside hrun hnoted
    · exact groupRun_keeps haside hrun ht hg
    · exact haside hnoted (.of_work (.reportFor ..))
  have hwiden : I { v.widenOver last frame₁.position with quiet := false } :=
    haside (haside hreport (.of_unrecorded (.widenOver v last frame₁.position))) { Adds.refl _ with }
  rcases hend with heq | heq
  · cases heq
    exact hwiden
  · have hclear := Work.steady_clearAttempts frame₁ { v.widenOver last frame₁.position with quiet := false }
    rw [← heq] at hclear
    exact haside hwiden (.steady hclear)

/-- So is it kept when the errors of a section are settled. -/
theorem settleErrors_keeps {eatMore : Option RuleRef}
    (h : s.settleErrors g run rounds frame kind result pinned eatMore = some s') : I s' := by
  have hname := haside hs (.calm (Work.calm_attemptsByName (g := g) s frame kind (result || pinned)))
  obtain ⟨frame₁, t, rfl, hcases⟩ := settleErrors_cases h
  have hframe : I t := by
    obtain ⟨rule, -, -, hrecover⟩ | ⟨-, -, rfl⟩ | ⟨-, rfl⟩ := hcases
    · exact recover_keeps haside hrun hname hrecover
    · exact haside hname (.of_work (Work.reportPinned ..))
    · exact hname
  exact haside hframe (.steady (.modifyFrame t fun f => Work.core_absorb f frame₁))

end

end Session

/-- Running the hook leaves the sections and hooks alone. -/
def HookRunner.KeepsAside (hook : HookRunner) (body : Expr) : Prop :=
  ∀ m? t m?' t', hook body m? t = some (m?', t') → t.Adds [] t'

variable {g : Setup} {s s' : Session}

/-! ## Steps and expressions -/

/-- Whether a step opens a section. -/
def Primitive.opensSection : Primitive → Bool
  | enter .. | enterSimple .. => true
  | _ => false

/-- Whatever a step does to markers, if it opens no section it leaves sections and hooks alone. -/
theorem Primitive.adds_run {p : Primitive} (h : p.opensSection = false) (g : Setup) (level : Nat)
    (vars : Vars) (s : Session) : s.Adds [] (p.run g level vars s).session := by
  have hsequence (silent : Bool) (pin : Pin) (kinds : List Kind) (t : Session) :
      t.Adds [] (t.consumeKinds g silent pin kinds).2 :=
    Session.related_consumeKinds silent (fun _ _ => .calm) (fun _ _ _ => .trans)
      (fun t => .of_work (.reportHere t)) pin kinds t
  have htry (silent : Bool) (pin : Pin) (kinds : List Kind) :
      s.Adds [] (s.tryKinds g silent pin kinds).2 := by
    have hrun := (Session.Adds.openMarker g s).trans (hsequence silent pin kinds _)
    unfold Session.tryKinds
    dsimp only
    split
    · next hk =>
      rw [hk] at hrun
      exact hrun.trans (.drop ..)
    · next hk =>
      rw [hk] at hrun
      exact hrun.trans (.rollback ..)
  have hmarker (m : String) {f : Marker → Session → Session} (hf : ∀ x, s.Adds [] (f x s)) :
      s.Adds [] (withMarker vars m f s).session := by
    unfold withMarker
    split
    · exact hf _
    · exact .refl s
  cases hsingle : p.isSingle with
  | true => exact .calm (calm_of_isSingle hsingle g level vars s)
  | false =>
    cases p with
    | enter | enterSimple => cases h
    | sequence pin kinds => exact hsequence ..
    | trySequence pin kinds => exact htry ..
    | trySequenceSilent pin kinds => exact htry ..
    | openMarker => exact .openMarker g s
    | wrap =>
      simp only [run]
      split
      · exact .wrap ..
      · exact .refl s
    | lastCommitted =>
      simp only [run]
      split <;> exact .refl s
    | commit m kind => exact hmarker m fun x => .commitAs x kind s
    | rollback m => exact hmarker m fun x => .rollback x s
    | drop m => exact hmarker m fun x => .drop x s
    | foreign => exact .refl s
    | _ => cases hsingle

/-- Whether the expression neither opens nor leaves a section, leaves no hook and calls no rule. -/
def Expr.keepsAside : Expr → Bool
  | const _ | flag _ | has _ => true
  | prim p => !p.opensSection
  | seq a b | and a b | or a b => a.keepsAside && b.keepsAside
  | not a | set _ a | loop a | guarded _ a | reporting a => a.keepsAside
  | ite c t f => c.keepsAside && t.keepsAside && f.keepsAside
  | call _ | leave .. | leaveSimple .. | groupRun .. | hook _ => false

theorem Expr.keepsAside_of_mem_parts {e a : Expr} (ha : a ∈ e.parts) (he : e.keepsAside = true) :
    a.keepsAside = true := by
  cases e <;> grind [parts, keepsAside]

namespace Grammar

theorem evalLaws_adds (g : Setup) :
    EvalLaws (Session.Adds []) (fun e => e.keepsAside = true) g where
  refl := .refl
  trans h h' := h.trans h'
  record step value s := .calm (.recordCall s step value)
  part := Expr.keepsAside_of_mem_parts
  guarded he := he
  guardLevel level rule s := .calm (.guardLevel g s level rule)
  prim he := Primitive.adds_run (by simpa [Expr.keepsAside] using he) g
  hook he := by cases he
  report _ s := .of_work (.reportHere s)
  call _ he := by cases he
  leave _ he := by cases he
  leaveSimple _ he := by cases he
  group _ he := by cases he

/-- Such an expression leaves the sections and hooks alone. -/
theorem adds_eval {e : Expr} (he : e.keepsAside = true) {fuel level : Nat} {vars vars' : Vars} {b : Bool}
    (h : eval g fuel level vars e s = some (b, vars', s')) : s.Adds [] s' :=
  (evalLaws_adds g).related fuel he h

/-- So a hook does that is such an expression. -/
theorem keepsAside_runHook (g : Setup) (fuel : Nat) {body : Expr} (hbody : body.keepsAside = true) :
    (runHook (eval g fuel)).KeepsAside body := by
  intro m? t m?' t' h
  obtain ⟨⟨b, vars, u⟩, hu, h⟩ := Option.bind_eq_some_iff.1 h
  cases h
  exact (Session.Adds.calm (.recordCall t .hookRun _)).trans (adds_eval hbody hu)

end Grammar

end Descent
