import Descent.Proofs.Grammar.Visits
import Descent.Proofs.Session.SectionActs

/-!
# Sequences of calls

A session is driven from outside by calls: the steps a grammar is made of, the leaving of sections,
grouped runs, reports and hooks, in whatever order, with whatever arguments, and with runners and hooks
that do nothing but make calls themselves (`Session.Calls`). On the way it is handed to these runners
and hooks, too, and calls may go on from there (`Session.Passes`). Evaluation of any expression is a
sequence of calls, and so is a parse (`Grammar.calls_eval`, `Session.calls_parse`).

Whatever state calls pass through, acts lead there (`Session.Passes.acts`). So an invariant of all calls
needs to be shown for acts only.
-/

namespace Descent

open Session (Acts Still)

/-- What is done with hooks depends on what they return for the body, given the marker, in the
state. -/
def Consults {α : Type} (f : HookRunner → α) (hook : HookRunner) (body : Expr) (m? : Option Marker)
    (s : Session) : Prop :=
  ∃ hook' : HookRunner, (∀ body' n? s', (body', n?, s') ≠ (body, m?, s) →
    hook' body' n? s' = hook body' n? s') ∧ f hook' ≠ f hook

namespace Session

/-- A section can be left at the level without a mismatch. -/
def Matches (level : Nat) (s : Session) : Prop :=
  ∃ frame frames, s.frames = frame :: frames ∧ frame.level = level

/-- A sequence of calls leads from one state to another. If it is `paired`, sections are left at the
levels at which they were entered. -/
inductive Calls (g : Setup) (paired : Bool) : Session → Session → Prop
  | none (s : Session) : Calls g paired s s
  | trans {s s₁ s₂ : Session} (h : Calls g paired s s₁) (h' : Calls g paired s₁ s₂) :
    Calls g paired s s₂
  | step (p : Primitive) (level : Nat) (vars : Vars) (s : Session) :
    Calls g paired s (p.run g level vars s).session
  | note (e : Event) (s : Session) (h : e.isNeutral = true) : Calls g paired s (s.note e)
  | record (step : Step) (value : Value) (s : Session) : Calls g paired s (s.recordCall step value)
  | report (s : Session) : Calls g paired s (s.reportHere g)
  | hook (body : Expr) (s : Session) : Calls g paired s (s.addHook body)
  | group {run : Runner} {rounds level : Nat} {kind : Kind} {minds b : Bool}
    {item eatMore : RuleRef} {s s' : Session}
    (hrun : ∀ rule level t b t', run rule level t = some (b, t') → Calls g paired t t')
    (h : s.groupRun g run rounds level kind minds item eatMore = some (b, s')) :
    Calls g paired s s'
  | leave {run : Runner} {hook : HookRunner} {rounds level : Nat} {m : Marker} {kind : Option Kind}
    {result pinned : Bool} {eatMore : Option RuleRef} {s s' : Session}
    (hrun : ∀ rule level t b t', run rule level t = some (b, t') → Calls g paired t t')
    (hhook : ∀ body m? t m?' t', hook body m? t = some (m?', t') → Calls g paired t t')
    (hlevel : paired = true → s.Matches level)
    (h : s.leave g run hook rounds level m kind result pinned eatMore = some s') :
    Calls g paired s s'
  | leaveSimple {hook : HookRunner} {rounds : Nat} {m : Marker} {kind : Option Kind}
    {result : Bool} {s s' : Session}
    (hhook : ∀ body m? t m?' t', hook body m? t = some (m?', t') → Calls g paired t t')
    (h : s.leaveSimple g hook rounds m kind result = some s') : Calls g paired s s'

end Session

/-- Whatever rule is run, calls lead to its end. -/
def Runner.Calls (g : Setup) (paired : Bool) (run : Runner) : Prop :=
  ∀ rule level t b t', run rule level t = some (b, t') → t.Calls g paired t'

/-- Whatever hook is run, calls lead to its end. -/
def HookRunner.Calls (g : Setup) (paired : Bool) (hook : HookRunner) : Prop :=
  ∀ body m? t m?' t', hook body m? t = some (m?', t') → t.Calls g paired t'

namespace Session

/-- Calls that are made in `s` lead to `t`, or to a state in which a rule or a hook is run meanwhile,
and so on. -/
inductive Passes (g : Setup) (paired : Bool) : Session → Session → Prop
  | calls {s t : Session} (h : s.Calls g paired t) : Passes g paired s t
  | trans {s t u : Session} (h : Passes g paired s t) (h' : Passes g paired t u) :
    Passes g paired s u
  /-- A rule is run for a grouped run. -/
  | grouping {run : Runner} {rounds level at' : Nat} {kind : Kind} {minds : Bool}
    {item eatMore rule : RuleRef} {s t : Session} (hrun : run.Calls g paired)
    (h : Asks (fun run => s.groupRun g run rounds level kind minds item eatMore) run rule at' t) :
    Passes g paired s t
  /-- A rule is run when a section is left. -/
  | leaving {run : Runner} {hook : HookRunner} {rounds level at' : Nat} {m : Marker}
    {kind : Option Kind} {result pinned : Bool} {eatMore : Option RuleRef} {rule : RuleRef}
    {s t : Session} (hrun : run.Calls g paired) (hhook : hook.Calls g paired)
    (hlevel : paired = true → s.Matches level)
    (h : Asks (fun run => s.leave g run hook rounds level m kind result pinned eatMore) run
      rule at' t) : Passes g paired s t
  /-- A hook is run when a section is left. -/
  | hooking {run : Runner} {hook : HookRunner} {rounds level : Nat} {m : Marker}
    {kind : Option Kind} {result pinned : Bool} {eatMore : Option RuleRef} {body : Expr}
    {m? : Option Marker} {s t : Session} (hrun : run.Calls g paired) (hhook : hook.Calls g paired)
    (hlevel : paired = true → s.Matches level)
    (h : Consults (fun hook => s.leave g run hook rounds level m kind result pinned eatMore) hook
      body m? t) : Passes g paired s t
  | hookingSimple {hook : HookRunner} {rounds : Nat} {m : Marker} {kind : Option Kind}
    {result : Bool} {body : Expr} {m? : Option Marker} {s t : Session}
    (hhook : hook.Calls g paired)
    (h : Consults (fun hook => s.leaveSimple g hook rounds m kind result) hook body m? t) :
    Passes g paired s t

end Session

variable {g : Setup} {paired : Bool} {s s' t : Session}

/-! ## Calls are acts -/

namespace Session.Acts

theorem consumeKinds (silent : Bool) (pin : Pin) (kinds : List Kind) (s : Session) :
    s.Acts g paired (s.consumeKinds g silent pin kinds).2 := by
  have hone (first : Bool) (kind : Kind) (t : Session) :
      t.Acts g paired (if first then t.take g kind else t.consume g kind).2 := by
    split
    · exact .still (.take t kind)
    · exact .still (.consume t kind)
  exact related_consumeKinds_of_one silent refl hone (fun _ _ _ => trans) (fun t => reportHere g t) pin
    (fun text t => .still (.offerIfPositive t text)) (fun _ _ => .still (.completion ..)) kinds s

theorem tryKinds (silent : Bool) (pin : Pin) (kinds : List Kind) (s : Session) :
    s.Acts g paired (s.tryKinds g silent pin kinds).2 := by
  have h : s.Acts g paired ((s.openMarker g).2.consumeKinds g silent pin kinds).2 :=
    .trans (.openMarker s) (consumeKinds silent pin kinds _)
  rw [session_tryKinds]
  dsimp only
  split
  · exact h.trans (.drop ..)
  · exact h.trans (.rollback ..)

end Session.Acts

/-- Every step of a grammar is made of acts. -/
theorem Primitive.acts_run (p : Primitive) (level : Nat) (vars : Vars) (s : Session) :
    s.Acts g paired (p.run g level vars s).session := by
  cases p with
  | guardLevel => exact .guardLevel ..
  | enter => exact .enter ..
  | enterSimple => exact .enterSimple ..
  | consume => exact .still (.consume ..)
  | take => exact .still (.take ..)
  | takeOffered => exact .still (.takeOffered ..)
  | consumeLiteral => exact .still (.consumeLiteral ..)
  | nextLiteral => exact .still (.nextLiteral ..)
  | next => exact .still (.next ..)
  | peek => exact .still (.peekAny ..)
  | nextAny => exact .still (.nextAny ..)
  | peekAny => exact .still (.peekAny ..)
  | sequence => exact .consumeKinds ..
  | trySequence => exact .tryKinds ..
  | trySequenceSilent => exact .tryKinds ..
  | announce => exact .still (.announce ..)
  | advance => exact .still (.stepOver ..)
  | isAtEnd | textHere | offset => exact .seek g s
  | isAborted | remember | recursionCeiling | foreign => exact .refl s
  | guardProgress => exact .guardProgress ..
  | kindHere =>
    simp only [run, Outcome.session_find]
    exact .seek g s
  | kindOf =>
    simp only [run, Outcome.session_find]
    exact .refl s
  | openMarker => exact .openMarker s
  | wrap =>
    simp only [run]
    split
    · exact .wrap ..
    · exact .refl s
  | lastCommitted =>
    simp only [run]
    split
    · exact .refl s
    · exact .refl s
  | commit =>
    simp only [run, withMarker]
    split
    · exact .commitAs ..
    · exact .refl s
  | rollback =>
    simp only [run, withMarker]
    split
    · exact .rollback ..
    · exact .refl s
  | drop =>
    simp only [run, withMarker]
    split
    · exact .drop ..
    · exact .refl s

namespace Session

theorem Calls.acts (h : s.Calls g paired t) (hs : s.InBounds g) : s.Acts g paired t := by
  induction h with
  | none s => exact .refl s
  | trans _ _ ih ih' =>
    have h := ih hs
    exact h.trans (ih' (h.inBounds hs))
  | step p level vars s => exact p.acts_run level vars s
  | note e s he => exact .still (.note s he)
  | record step value s => exact .still (.recordCall s step value)
  | report s => exact .reportHere g s
  | hook body s => exact .still ((Still.note s rfl).trans (.hooks _ _))
  | group _ h ih =>
    exact (Acts.groupRun hs (fun _ _ _ _ _ ht hr => ih _ _ _ _ _ hr ht) (fun _ _ _ _ => rfl)
      (.refl _)).holds _ h
  | leave _ _ hlevel h ih ih' =>
    exact (Acts.leave hs (fun _ _ _ _ _ ht hr => ih' _ _ _ _ _ hr ht) (fun _ _ _ _ => rfl)
      (fun _ _ _ _ _ ht hr => ih _ _ _ _ _ hr ht) (fun _ _ _ _ => rfl) hlevel (.refl _)).holds _ h
  | leaveSimple _ h ih =>
    exact (Acts.leaveSimple hs (fun _ _ _ _ _ ht hr => ih _ _ _ _ _ hr ht) (fun _ _ _ _ => rfl)
      (.refl _)).holds _ h

end Session

theorem Runner.Calls.acts {run : Runner} (h : run.Calls g paired) : run.Acts g paired :=
  fun _ _ _ _ _ ht hr => (h _ _ _ _ _ hr).acts ht

theorem HookRunner.Calls.acts {hook : HookRunner} (h : hook.Calls g paired) :
    hook.Acts g paired :=
  fun _ _ _ _ _ ht hr => (h _ _ _ _ _ hr).acts ht

/-- A rule is run in a state that acts lead to if runners that agree on all of these cannot be told
apart. -/
theorem Asks.acts {α : Type} {f : Runner → α} {run : Runner} {rule : RuleRef} {level : Nat}
    (h : Asks f run rule level t)
    (hf : ∀ run' : Runner, (∀ rule level u, s.Acts g paired u → run' rule level u = run rule level u) →
      f run' = f run) : s.Acts g paired t :=
  h.of_congr hf

/-- Hooks are run where a property holds if what they return elsewhere does not matter. -/
theorem Consults.of_congr {α : Type} {f : HookRunner → α} {hook : HookRunner} {body : Expr}
    {m? : Option Marker} {P : Session → Prop} (h : Consults f hook body m? t)
    (hf : ∀ hook' : HookRunner, (∀ body m? u, P u → hook' body m? u = hook body m? u) →
      f hook' = f hook) : P t := by
  obtain ⟨hook', helse, hne⟩ := h
  by_contra hnot
  refine hne (hf hook' fun body' n? u hu => helse _ _ _ fun heq => hnot ?_)
  obtain ⟨-, -, rfl⟩ : body' = body ∧ n? = m? ∧ u = t := by simpa using heq
  exact hu

theorem Consults.acts {α : Type} {f : HookRunner → α} {hook : HookRunner} {body : Expr}
    {m? : Option Marker} (h : Consults f hook body m? t)
    (hf : ∀ hook' : HookRunner, (∀ body m? u, s.Acts g paired u → hook' body m? u = hook body m? u) →
      f hook' = f hook) : s.Acts g paired t :=
  h.of_congr hf

namespace Session

/-- Acts lead to every state that calls pass through. -/
theorem Passes.acts (h : s.Passes g paired t) (hs : s.InBounds g) : s.Acts g paired t := by
  induction h with
  | calls h => exact h.acts hs
  | trans _ _ ih ih' =>
    have h := ih hs
    exact h.trans (ih' (h.inBounds hs))
  | grouping hrun h =>
    exact h.acts fun run' hsame => (Acts.groupRun hs hrun.acts hsame (.refl _)).same
  | leaving hrun hhook hlevel h =>
    exact h.acts fun run' hsame =>
      (Acts.leave hs hhook.acts (fun _ _ _ _ => rfl) hrun.acts hsame hlevel (.refl _)).same
  | hooking hrun hhook hlevel h =>
    exact h.acts fun hook' hagree =>
      (Acts.leave hs hhook.acts hagree hrun.acts (fun _ _ _ _ => rfl) hlevel (.refl _)).same
  | hookingSimple hhook h =>
    exact h.acts fun hook' hagree => (Acts.leaveSimple hs hhook.acts hagree (.refl _)).same

theorem inBounds_start (g : Setup) (limits : Limits) (caret : Option Nat) :
    (start limits caret).InBounds g :=
  ⟨Nat.zero_le _, .empty, fun _ h => nomatch h⟩

end Session

/-! ## Evaluation is made of calls -/

namespace Grammar

variable {fuel level : Nat} {vars vars' : Vars} {e : Expr} {b : Bool}

/-- What is to be shown of evaluation, for all expressions with some fuel. -/
def EvalCalls (g : Setup) (fuel : Nat) : Prop :=
  ∀ {level vars e s b vars' s'}, eval g fuel level vars e s = some (b, vars', s') →
    s.Calls g false s'

theorem calls_runRef (ih : EvalCalls g fuel) : (runRef g (eval g fuel)).Calls g false := by
  intro rule level s b s' h
  cases rule with
  | always =>
    cases h
    exact .none s
  | advance =>
    obtain ⟨-, rfl⟩ := Prod.mk.inj (Option.some.inj h)
    exact .step .advance level {} s
  | named name =>
    obtain ⟨⟨b, vars, t⟩, heval, h⟩ := Option.bind_eq_some_iff.1 h
    cases h
    exact ih heval

theorem calls_runHook (ih : EvalCalls g fuel) : (runHook (eval g fuel)).Calls g false := by
  intro body m? s m?' s' h
  obtain ⟨⟨b, vars, t⟩, heval, h⟩ := Option.bind_eq_some_iff.1 h
  cases h
  exact .trans (.record ..) (ih heval)

theorem evalCalls_of_relates (h : Relates (Session.Calls g false) (fun _ => True) g fuel) :
    EvalCalls g fuel := fun heval => h trivial heval

theorem evalLaws_calls (g : Setup) : EvalLaws (Session.Calls g false) (fun _ => True) g where
  refl := .none
  trans := .trans
  record step value s := .record step value s
  part _ _ := trivial
  guarded _ := trivial
  guardLevel level rule s := .step (.guardLevel rule 0) level {} s
  prim _ level vars s := .step _ level vars s
  hook _ s := .hook _ s
  report _ := .report
  call ih _ hr := calls_runRef (evalCalls_of_relates ih) _ _ _ _ _ hr
  leave ih _ h :=
    .leave (calls_runRef (evalCalls_of_relates ih)) (calls_runHook (evalCalls_of_relates ih)) nofun h
  leaveSimple ih _ h := .leaveSimple (calls_runHook (evalCalls_of_relates ih)) h
  group ih _ h := .group (calls_runRef (evalCalls_of_relates ih)) h

/-- Every expression makes calls. -/
theorem calls_eval (fuel : Nat) : EvalCalls g fuel :=
  evalCalls_of_relates ((evalLaws_calls g).related fuel)

end Grammar

namespace Session

variable {fuel : Nat} {root : Kind} {rule : RuleRef} {o : Output}

/-- So does a parse. -/
theorem calls_parse (h : s.parse g fuel root rule = some o) : s.Calls g false o.session := by
  have ih : Grammar.EvalCalls g fuel := Grammar.calls_eval fuel
  obtain ⟨⟨result, s₁⟩, hrun, h⟩ := Option.bind_eq_some_iff.1 h
  obtain ⟨s₂, hleave, h⟩ := Option.bind_eq_some_iff.1 h
  cases h
  have hbegin : s.Calls g false (s.note (.parseStarted g.source.size)) := .note _ s rfl
  have henter := hbegin.trans (.step (.enter "root" { collapse := true } none none 0) 0 {} _)
  have hroot := henter.trans (Grammar.calls_runRef ih _ _ _ _ _ hrun)
  have hleft := hroot.trans
    (.leave (Grammar.calls_runRef ih) (Grammar.calls_runHook ih) nofun hleave)
  exact hleft.trans (.note _ _ rfl)

end Session

end Descent
