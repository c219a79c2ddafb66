import Descent.Proofs.Grammar.Visits
import Descent.Proofs.Session.TidySections

/-!
# Errors are reported once

A parse puts no two errors at one position (`Session.errorsApart_parse`), if its grammar enters no section
where an error starts or where the section around has marked one further ahead, and asks no rules but
those that test tokens. If a section is entered at an error, it does not know of the mark of the section
around, and the error is reported again.
-/

namespace Descent

open Session (Calm Silent StaysTidy)
open Grammar (eval runRef runHook)

/-! ## Rules that test tokens -/

/-- Whether an expression does no more than test single tokens. -/
def Expr.tests : Expr → Bool
  | const _ | flag _ | has _ => true
  | prim p => p.isSingle
  | seq a b | and a b | or a b => a.tests && b.tests
  | ite c t f => c.tests && (t.tests && f.tests)
  | not a | set _ a | loop a | guarded _ a => a.tests
  | _ => false

theorem Expr.tests_of_mem_parts {e a : Expr} (ha : a ∈ e.parts) (he : e.tests = true) :
    a.tests = true := by
  cases e <;> grind [parts, tests]

namespace Grammar

variable {g : Setup} {fuel level : Nat} {vars vars' : Vars} {e : Expr} {s s' : Session} {b : Bool}

/-- Whether a rule does no more than test single tokens. -/
def tests (grammar : Grammar) : RuleRef → Bool
  | .named name => (grammar.body name).tests
  | _ => true

theorem evalLaws_calm (g : Setup) : EvalLaws Calm (fun e => e.tests = true) g where
  refl := .refl
  trans := .trans
  record step value s := .recordCall s step value
  part := Expr.tests_of_mem_parts
  guarded he := he
  guardLevel level rule s := .guardLevel g s level rule
  prim he := Primitive.calm_of_isSingle he g
  hook he := by cases he
  report he := by cases he
  call _ he := by cases he
  leave _ he := by cases he
  leaveSimple _ he := by cases he
  group _ he := by cases he

theorem calm_eval (he : e.tests = true) (h : eval g fuel level vars e s = some (b, vars', s')) :
    Calm s s' :=
  (evalLaws_calm g).related fuel he h

theorem tests_runRef {rule : RuleRef} (h : g.grammar.tests rule = true) (fuel : Nat) :
    Runner.Tests (runRef g (eval g fuel)) rule := by
  intro level s b s' hr
  cases rule with
  | always =>
    cases hr
    exact .refl s
  | advance =>
    have hstep : (s.stepOver g).2 = s' := congrArg Prod.snd (Option.some.inj hr)
    exact hstep ▸ .stepOver g s
  | named name =>
    obtain ⟨⟨x, vars, t⟩, heval, hr⟩ := Option.bind_eq_some_iff.1 hr
    cases hr
    exact calm_eval h heval

end Grammar

/-! ## Tidy runs -/

namespace Session

variable {g : Setup} {fuel : Nat} {s s₁ s₂ : Session}

/-- From a state of a parse that is tidy, work was done that leads to one. -/
def RunsTidy (g : Setup) (s s' : Session) : Prop :=
  s.Regular → s.frames ≠ [] → s.Tidy s.mark →
    Work (fun _ => true) g none s s' ∧ StaysTidy s s'

namespace RunsTidy

theorem silent (hwork : Work (fun _ => true) g none s s₁) (h : Silent s s₁) : RunsTidy g s s₁ :=
  fun _ _ htidy => ⟨hwork, .silent htidy h⟩

theorem calm (h : Calm s s₁) : RunsTidy g s s₁ := silent (.calm h) (.calm h)

theorem trans (h : RunsTidy g s s₁) (h' : RunsTidy g s₁ s₂) : RunsTidy g s s₂ := by
  intro hs hframes htidy
  obtain ⟨hwork, hstays⟩ := h hs hframes htidy
  have hframes' : s₁.frames ≠ [] := fun hnil => hframes <| by
    have hlength := hwork.surroundings.frames.length_eq
    rw [hnil] at hlength
    exact List.length_eq_zero_iff.1 hlength
  obtain ⟨hwork', hstays'⟩ := h' (hs.work hwork) hframes' hstays.tidy
  exact ⟨hwork.trans hwork', hstays.trans hstays'⟩

theorem report (s : Session) : RunsTidy g s (s.reportHere g) :=
  fun _ hframes htidy => ⟨.reportHere s, staysTidy_reportHere htidy hframes⟩

/-- An optional sequence is kept or given back. If it reports, no error may start where it is tried. -/
theorem tryKinds (silent : Bool) (pin : Pin) (kinds : List Kind) (s : Session)
    (hok : pin = .report → s.isAborted = false → s.Clear g) :
    RunsTidy g s (s.tryKinds g silent pin kinds).2 := by
  intro hs hframes htidy
  have hopen : Silent s (s.openMarker g).2 := .openMarker g s
  have hbody : RunsTidy g (s.openMarker g).2
      ((s.openMarker g).2.consumeKinds g silent pin kinds).2 :=
    related_consumeKinds silent (fun _ _ => calm) (fun _ _ _ => trans) report pin kinds _
  have htidy' := StaysTidy.silent htidy hopen
  obtain ⟨hwork, hstays⟩ := hbody hs.openMarker hframes htidy'.tidy
  have hcalm (hpin : pin ≠ .report)
      (hfailed : ((s.openMarker g).2.consumeKinds g silent pin kinds).1 = false) :
      Calm (s.openMarker g).2 ((s.openMarker g).2.consumeKinds g silent pin kinds).2 :=
    calm_of_consumeKinds_failed hpin hfailed
  unfold Session.tryKinds
  dsimp only
  generalize (s.openMarker g).2.consumeKinds g silent pin kinds = x at *
  obtain ⟨_ | _, t⟩ := x
  · refine ⟨hwork.undone, ?_⟩
    have hin := hwork.continues (hs.log.openAt _)
    by_cases hpin : pin = .report
    · have h := htidy'.trans hstays
      refine ⟨?_, fun haborted => ?_, ?_, tidy_rollback hs.log htidy
        (fun hs' => (hok hpin hs').past) h.aborted hin _⟩
      · exact Nat.le_trans hopen.position
          (Nat.le_of_eq (givesBack_rollback hs.log hin).position.symm)
      · rw [isAborted_rollback]
        exact h.aborted haborted
      · rw [marks_rollback]
        exact h.outer
    · exact .silent htidy (.rollback hs.log hin (.calm (hcalm hpin rfl)))
  · have h := htidy'.trans hstays
    exact ⟨hwork.bare, h.trans (.silent h.tidy (.drop _ t))⟩

theorem frames_enter_ne_nil (level : Nat) (modifiers : Modifiers) (early : Option Kind)
    (name : Option String) (s : Session) :
    (s.enter g level modifiers early name).2.frames ≠ [] := by
  obtain ⟨t, frame, henter, -, -⟩ := exists_enter (g := g) level modifiers early name s
  rw [henter]
  exact List.cons_ne_nil _ _

/-- If sections are entered where that is clear, and the rules that are asked do no more than test
tokens, then all runs are tidy. -/
theorem laws (hg : g.grammar.Balanced fun _ => true) (hadvance : g.grammar.tests g.advancer = true)
    (fuel : Nat) : RunLaws (RunsTidy g) (fun s => s.isAborted = false → s.Clear g)
      (fun rule => g.grammar.tests rule = true) (fun _ => true) g fuel where
  refl s := calm (.refl s)
  trans := trans
  record step value s := calm (.recordCall s step value)
  report := report
  test {p level vars s} ht hok := by
    cases hp : p.isSingle with
    | true => exact calm (Primitive.calm_of_isSingle hp g level vars s)
    | false =>
      cases p with
      | sequence pin kinds =>
        exact related_consumeKinds false (fun _ _ => calm) (fun _ _ _ => trans) report pin kinds s
      | trySequence pin kinds =>
        exact tryKinds false pin kinds s fun hpin => hok (beq_iff_eq.2 hpin)
      | trySequenceSilent pin kinds =>
        exact tryKinds true pin kinds s fun hpin => hok (beq_iff_eq.2 hpin)
      | _ => simp_all [Primitive.isSingle, Primitive.isTest]
  group {_ _ _ item eatMore _ s s'} hitem hmore hr := by
    intro hs hframes htidy
    have hwork := Work.groupRun (Grammar.balanced hg fuel).works hs.hooks hr
    refine ⟨hwork, .silent htidy ?_⟩
    refine (Silent.invariant g s).groupRun (fun rule hrule level t b t' ht hrun => ?_) (.refl s) hr
      trivial
    have htests : g.grammar.tests rule = true := by
      rcases hrule with rfl | rfl | rfl
      · exact hitem
      · exact hmore
      · exact hadvance
    exact ht.trans (.calm (Grammar.tests_runRef htests fuel _ _ _ _ hrun))
  simple {_ _ s s₁ s₂} hok hbody hleave := by
    intro hs hframes htidy
    have henter : Silent s (s.enterSimple g).2 := (silent_entering hok).trans (.openMarker g _)
    have hentered := StaysTidy.silent htidy henter
    have hentering : (s.entering g).Regular := .entering hs
    obtain ⟨hwork, hstays⟩ :=
      hbody hentering.openMarker (henter.toOnward.frames_ne_nil hframes) hentered.tidy
    exact ⟨.leaveSimple hs.hooks hwork hleave, .leaveSimple hok hs htidy hwork hstays hleave⟩
  framed hallows hok hasks hbody hleave := by
    intro hs hframes htidy
    obtain ⟨hwork, hstays⟩ := hbody hs.enter (frames_enter_ne_nil _ _ _ _ _) (tidy_enter hok htidy)
    have hrun := (Grammar.balanced hg fuel).works
    have htests (rule : RuleRef) (hrule : _ = some rule) :=
      And.intro (Grammar.tests_runRef hadvance fuel) (Grammar.tests_runRef (hasks rule hrule) fuel)
    exact ⟨.leave hallows hrun hs.hooks hwork hleave,
      .leave hok hs hframes htidy hallows hrun htests hwork hstays hleave⟩

end RunsTidy

/-- No two errors start at one position in the end, if whenever a section is entered (or an optional
sequence that reports is tried) no error starts at the next token and none is marked ahead, and the
rules that are asked do no more than test tokens. -/
theorem errorsApart_parse {limits : Limits} {caret : Option Nat} {root : Kind} {rule : RuleRef}
    {o : Output} (hg : g.grammar.Balanced fun _ => true)
    (hadvance : g.grammar.tests g.advancer = true)
    (hasks : g.grammar.AsksOnly fun rule => g.grammar.tests rule = true)
    (hclear : ∀ name, rule = .named name →
      ∀ t ∈ Grammar.entered g fuel 1 {} (g.grammar.body name) (enterRoot g limits caret).2,
        t.isAborted = false → t.Clear g)
    (h : (start limits caret).parse g fuel root rule = some o) : o.session.log.ErrorsApart := by
  obtain ⟨result, s, s', hrun, hleave, hsteady⟩ := session_of_parse h
  let first := (start limits caret).note (.parseStarted g.source.size)
  have hno (m : Marker) : ¬ first.log.IsError m := fun hm => by cases hm.1
  have hpast : first.PastErrors := fun m hm => absurd hm (hno m)
  have htidy : first.Tidy first.mark := hpast.tidy (fun m _ hm => absurd hm (hno m)) _
  have hfirst : first.isAborted = false → first.Clear g :=
    fun _ => ⟨fun m hm => absurd hm (hno m), fun p hp => by cases hp⟩
  have hregular : first.Regular := ⟨.empty, fun _ h => (by cases h), fun _ => rfl⟩
  have hbody : RunsTidy g (enterRoot g limits caret).2 s :=
    Grammar.related_runRef hg hasks (fun s => .calm (.refl s)) (fun s => .calm (.stepOver g s))
      (Grammar.keepsInside_of_laws hg hasks fuel fun n _ => RunsTidy.laws hg hadvance n) hclear hrun
  obtain ⟨hwork, hstays⟩ :=
    hbody hregular.enter (RunsTidy.frames_enter_ne_nil _ _ _ _ _) (tidy_enter hfirst htidy)
  have htests (rule : RuleRef) (hrule : some RuleRef.always = some rule) :
      Runner.Tests (runRef g (eval g fuel)) g.advancer ∧
        Runner.Tests (runRef g (eval g fuel)) rule := by
    obtain rfl := Option.some.inj hrule
    exact ⟨Grammar.tests_runRef hadvance fuel, Grammar.tests_runRef rfl fuel⟩
  obtain ⟨frame, w, -, hw, hend⟩ := exists_settled hfirst hregular htidy rfl
    (Grammar.balanced hg fuel).works htests hwork hstays hleave
  rw [hsteady.log]
  exact hw.apart.of_errorsFrom hend.errors

/-- A statement that is skipped up to its end, and a section behind it. -/
def skipping : Setup where
  source := { text := "ab;c", tokens :=
    [⟨⟨3⟩, ⟨0, 1⟩⟩, ⟨⟨3⟩, ⟨1, 2⟩⟩, ⟨⟨10⟩, ⟨2, 3⟩⟩, ⟨⟨3⟩, ⟨3, 4⟩⟩] }
  language := (LanguageTable.toBareLanguage {})
  grammar := [
    ("statements",
      .seq (.prim (.enter "statement" {} (some ⟨21⟩) none 0)) <|
      .seq (.prim (.consume ⟨3⟩)) <|
      .seq (.leave "statement" none (.prim (.consume ⟨10⟩)) (.const true) (some (.named "inside"))
        0) <|
      .seq (.prim (.consume ⟨10⟩)) <|
      .seq (.prim (.enter "sum" {} (some ⟨23⟩) none 0)) <|
      .leave "sum" none (.prim (.consume ⟨6⟩)) (.const true) none 0),
    ("inside", .not (.prim (.peek ⟨10⟩)))]

theorem errorsApart_parse_skipping :
    skipping.grammar.Balanced (fun _ => true) ∧ skipping.grammar.tests skipping.advancer = true ∧
      skipping.grammar.AsksOnly (fun rule => skipping.grammar.tests rule = true) ∧
      (∀ t ∈ Grammar.entered skipping 12 1 {} (skipping.grammar.body "statements")
        (enterRoot skipping {} none).2, t.isAborted = false → t.Clear skipping) ∧
      ∃ o, (start {} none).parse skipping 12 ⟨20⟩ (.named "statements") = some o ∧
        o.tree.errors.length = 2 ∧ o.session.log.ErrorsApart := by
  have hg : skipping.grammar.Balanced fun _ => true := by decide
  have hadvance : skipping.grammar.tests skipping.advancer = true := rfl
  have hasks : skipping.grammar.AsksOnly fun rule => skipping.grammar.tests rule = true := by
    unfold Grammar.AsksOnly
    decide
  have hclear : ∀ t ∈ Grammar.entered skipping 12 1 {} (skipping.grammar.body "statements")
      (enterRoot skipping {} none).2, t.isAborted = false → t.Clear skipping := by decide +kernel
  have hrun : ((start {} none).parse skipping 12 ⟨20⟩ (.named "statements")).map
      (fun o => o.tree.errors.length) = some 2 := by decide +kernel
  obtain ⟨o, ho, hlength⟩ := Option.map_eq_some_iff.1 hrun
  refine ⟨hg, hadvance, hasks, hclear, o, ho, hlength,
    errorsApart_parse hg hadvance hasks (fun name hname => ?_) ho⟩
  obtain rfl := RuleRef.named.inj hname
  exact hclear

/-- An error in front of a section, and the same error inside. -/
def repeating : Setup where
  source := { text := "a", tokens := [⟨⟨3⟩, ⟨0, 1⟩⟩] }
  language := (LanguageTable.toBareLanguage {})
  grammar := [("statement",
    .seq (.reporting (.prim (.consume ⟨6⟩))) <|
    .seq (.prim (.enter "statement" {} (some ⟨21⟩) none 0)) <|
    .seq (.reporting (.prim (.consume ⟨6⟩))) <|
    .seq (.prim (.consume ⟨3⟩)) <|
    .leave "statement" none (.const true) (.const false) none 0)]

/-- A section that is entered at an error reports it again. -/
theorem not_errorsApart_parse_repeating :
    repeating.grammar.Balanced (fun _ => true) ∧
      ∃ o, (start {} none).parse repeating 12 ⟨20⟩ (.named "statement") = some o ∧
        o.fatal = none ∧ o.tree.errors.length = 2 ∧ ¬ o.session.log.ErrorsApart := by
  have hrun : ((start {} none).parse repeating 12 ⟨20⟩ (.named "statement")).map
      (fun o => (o.fatal, o.tree.errors.length, decide (o.session.log.IsError ⟨1⟩ ∧
        o.session.log.IsError ⟨3⟩ ∧ o.session.log.start ⟨1⟩ = o.session.log.start ⟨3⟩))) =
      some (none, 2, true) := by decide +kernel
  obtain ⟨o, ho, heq⟩ := Option.map_eq_some_iff.1 hrun
  simp only [Prod.mk.injEq, decide_eq_true_eq] at heq
  obtain ⟨hfatal, hlength, hfirst, hsecond, hstart⟩ := heq
  refine ⟨by decide, o, ho, hfatal, hlength, fun h => ?_⟩
  cases h _ _ hfirst hsecond hstart

end Session

end Descent
