import Descent.Grammar.Eval

/-!
# The parts of an expression

An expression with parts evaluates one of them first (`Expr.first?`), perhaps another one then
(`Expr.next?`), and finishes with what they have come to (`Grammar.eval_of_first?`). Every other
expression does one thing.

So a relation between states that holds for the one thing, and for what finishes the others, holds
between the states before and after each evaluation (`EvalLaws.related`). It may be restricted to
expressions of some form, if their parts are of this form too.
-/

namespace Descent

open Grammar (eval runRef runHook)

namespace Expr

/-- The part of an expression that is evaluated first. -/
def first? : Expr → Option Expr
  | seq a _ | and a _ | or a _ | not a | ite a _ _ | set _ a | loop a | reporting a
  | leave _ _ a _ _ _ | leaveSimple _ _ a => some a
  | _ => none

/-- What is evaluated next, given the answer of the part that was evaluated first. -/
def next? : Expr → Bool → Option Expr
  | seq _ b, _ | and _ b, true | or _ b, false | leave _ _ _ b _ _, _ => some b
  | ite _ t f, x => some (if x then t else f)
  | loop a, true => some (loop a)
  | _, _ => none

/-- All that may be evaluated first or next. -/
def parts : Expr → List Expr
  | seq a b | and a b | or a b | leave _ _ a b _ _ => [a, b]
  | not a | set _ a | reporting a | leaveSimple _ _ a => [a]
  | ite c t f => [c, t, f]
  | loop a => [a, loop a]
  | _ => []

variable {e a c : Expr} {x : Bool}

theorem mem_parts_of_first? (h : e.first? = some a) : a ∈ e.parts := by
  cases e with
  | const | flag | call | has | prim | guarded | groupRun | hook => cases h
  | _ =>
    cases h
    simp [parts]

theorem mem_parts_of_next? (h : e.next? x = some c) : c ∈ e.parts := by
  cases e with
  | const | flag | call | has | prim | guarded | groupRun | hook | not | set | reporting | leaveSimple =>
    cases h
  | seq | leave =>
    cases h
    simp [parts]
  | ite =>
    cases h
    cases x <;> simp [parts]
  | and | or | loop =>
    cases x <;> cases h
    simp [parts]

end Expr

namespace Grammar

/-- The expression of a rule; a rule that is not there fails. -/
def body (grammar : Grammar) (name : String) : Expr := (grammar.lookup name).getD (.const false)

theorem body_of_rules {grammar : Grammar} {P : Expr → Prop} (hfails : P (.const false))
    (hrules : ∀ rule ∈ grammar, P rule.2) (name : String) : P (grammar.body name) := by
  unfold body
  cases hl : grammar.lookup name with
  | none => exact hfails
  | some e =>
    obtain ⟨l, r, hlr, -⟩ := List.lookup_eq_some_iff.1 hl
    exact hrules (name, e) (by simp [hlr])

/-! ## First, next and last -/

variable {g : Setup} {fuel level : Nat} {vars vars' : Vars} {e a : Expr} {s s' : Session}

/-- What is evaluated next goes on from what the first part has come to, and stands in for it. -/
def evalNext (g : Setup) (fuel level : Nat) (next? : Option Expr) (x : Bool × Vars × Session) :
    Option (Bool × Vars × Session) :=
  match next? with
  | some c => eval g fuel level x.2.1 c x.2.2
  | none => some x

/-- An expression finishes: the first of its parts has answered `x`, and the last has come to `y`. -/
def finish (g : Setup) (fuel level : Nat) (e : Expr) (x : Bool) (y : Bool × Vars × Session) :
    Option (Bool × Vars × Session) :=
  match e with
  | .not _ => some (!y.1, y.2)
  | .set name _ => some (y.1, y.2.1.setFlag name y.1, y.2.2)
  | .loop _ => some (!x || y.1, y.2)
  | .leave m kind _ _ eatMore deeper => do
    let s ← match y.2.1.marker? m with
      | some marker =>
        y.2.2.leave g (runRef g (eval g fuel)) (runHook (eval g fuel)) fuel (level + deeper) marker
          kind x y.1 eatMore
      | none => some y.2.2
    some (true, y.2.1, s.recordCall .leave .unit)
  | .leaveSimple m kind _ => do
    let s ← match y.2.1.marker? m with
      | some marker => y.2.2.leaveSimple g (runHook (eval g fuel)) fuel marker kind y.1
      | none => some y.2.2
    some (true, y.2.1, s.recordCall .leaveSimple .unit)
  | .reporting _ =>
    let s := if y.1 then y.2.2 else y.2.2.reportHere g
    some (y.1, y.2.1, s.recordCall .reporting (.bool y.1))
  | _ => some y

theorem eval_of_first? (ha : e.first? = some a) (g : Setup) (fuel level : Nat) (vars : Vars)
    (s : Session) :
    eval g (fuel + 1) level vars e s = (eval g fuel level vars a s).bind fun x =>
      (evalNext g fuel level (e.next? x.1) x).bind (finish g fuel level e x.1) := by
  cases e with
  | const | flag | call | has | prim | guarded | groupRun | hook => cases ha
  | not | set | leave | leaveSimple | reporting =>
    cases ha
    rfl
  | seq =>
    cases ha
    exact Option.bind_congr fun x _ => (Option.bind_fun_some _).symm
  | and | or | ite | loop =>
    cases ha
    refine Option.bind_congr fun ⟨x, vars, s⟩ _ => ?_
    cases x <;> first | rfl | exact (Option.bind_fun_some _).symm

/-- An expression with parts is over when it has finished. -/
theorem exists_finish (ha : e.first? = some a) {z : Bool × Vars × Session}
    (h : eval g (fuel + 1) level vars e s = some z) :
    ∃ x y, eval g fuel level vars a s = some x ∧ evalNext g fuel level (e.next? x.1) x = some y ∧
      finish g fuel level e x.1 y = some z := by
  rw [eval_of_first? ha] at h
  obtain ⟨x, hx, h⟩ := Option.bind_eq_some_iff.1 h
  obtain ⟨y, hy, h⟩ := Option.bind_eq_some_iff.1 h
  exact ⟨x, y, hx, hy, h⟩

/-! ## Relations between states -/

/-- With so much fuel the evaluation of the expressions that fit relates the states before and after. -/
def Relates (R : Session → Session → Prop) (fits : Expr → Prop) (g : Setup) (fuel : Nat) : Prop :=
  ∀ {level vars e s b vars' s'}, fits e → eval g fuel level vars e s = some (b, vars', s') → R s s'

/-- What has to be fulfilled by a relation between states for it to hold along the evaluation of the
expressions that fit. Of what asks rules or runs hooks it may be shown with evaluation at less fuel. -/
structure EvalLaws (R : Session → Session → Prop) (fits : Expr → Prop) (g : Setup) : Prop where
  refl (s : Session) : R s s
  trans {s s₁ s₂ : Session} : R s s₁ → R s₁ s₂ → R s s₂
  record (step : Step) (value : Value) (s : Session) : R s (s.recordCall step value)
  part {e a : Expr} : a ∈ e.parts → fits e → fits a
  guarded {rule : String} {a : Expr} : fits (.guarded rule a) → fits a
  guardLevel (level : Nat) (rule : String) (s : Session) : R s (s.guardLevel g level rule).2
  prim {p : Primitive} : fits (.prim p) → ∀ level vars s, R s (p.run g level vars s).session
  hook {body : Expr} : fits (.hook body) → ∀ s : Session, R s (s.addHook body)
  report {a : Expr} : fits (.reporting a) → ∀ s : Session, R s (s.reportHere g)
  call {fuel level : Nat} {rule : RuleRef} {b : Bool} {s s' : Session} : Relates R fits g fuel →
    fits (.call rule) → runRef g (eval g fuel) rule level s = some (b, s') → R s s'
  leave {fuel level deeper : Nat} {m : String} {marker : Marker} {kind : Option Kind}
    {result pinned : Expr} {x y : Bool} {eatMore : Option RuleRef} {s s' : Session} :
    Relates R fits g fuel → fits (.leave m kind result pinned eatMore deeper) →
    s.leave g (runRef g (eval g fuel)) (runHook (eval g fuel)) fuel level marker kind x y eatMore =
      some s' → R s s'
  leaveSimple {fuel : Nat} {m : String} {marker : Marker} {kind : Option Kind} {result : Expr}
    {x : Bool} {s s' : Session} : Relates R fits g fuel → fits (.leaveSimple m kind result) →
    s.leaveSimple g (runHook (eval g fuel)) fuel marker kind x = some s' → R s s'
  group {fuel level : Nat} {chunk : Kind} {minds b : Bool} {item eatMore : RuleRef} {s s' : Session} :
    Relates R fits g fuel → fits (.groupRun chunk minds item eatMore) →
    s.groupRun g (runRef g (eval g fuel)) fuel level chunk minds item eatMore = some (b, s') → R s s'

namespace EvalLaws

variable {R : Session → Session → Prop} {fits : Expr → Prop} {b : Bool}

theorem next (laws : EvalLaws R fits g) (ih : Relates R fits g fuel) (he : fits e) {x y : Bool}
    (h : evalNext g fuel level (e.next? x) (x, vars, s) = some (y, vars', s')) : R s s' := by
  cases hnext : e.next? x with
  | some c =>
    rw [hnext] at h
    exact ih (laws.part (e.mem_parts_of_next? hnext) he) h
  | none =>
    rw [hnext] at h
    cases h
    exact laws.refl s

theorem finish (laws : EvalLaws R fits g) (ih : Relates R fits g fuel) (he : fits e) {x y : Bool}
    (h : finish g fuel level e x (y, vars, s) = some (b, vars', s')) : R s s' := by
  cases e with
  | leave m kind result pinned eatMore deeper =>
    simp only [Grammar.finish] at h
    split at h
    · obtain ⟨t, ht, h⟩ := Option.bind_eq_some_iff.1 h
      cases h
      exact laws.trans (laws.leave ih he ht) (laws.record ..)
    · cases h
      exact laws.record ..
  | leaveSimple m kind result =>
    simp only [Grammar.finish] at h
    split at h
    · obtain ⟨t, ht, h⟩ := Option.bind_eq_some_iff.1 h
      cases h
      exact laws.trans (laws.leaveSimple ih he ht) (laws.record ..)
    · cases h
      exact laws.record ..
  | reporting a =>
    have hreport : R s (if y then s else s.reportHere g) := by
      split
      · exact laws.refl s
      · exact laws.report he s
    cases h
    exact laws.trans hreport (laws.record ..)
  | _ =>
    cases h
    exact laws.refl s

theorem related (laws : EvalLaws R fits g) (fuel : Nat) : Relates R fits g fuel := by
  induction fuel with
  | zero =>
    intro _ _ _ _ _ _ _ _ h
    cases h
  | succ fuel ih =>
    intro level vars e s b vars' s' he h
    cases hfirst : e.first? with
    | some a =>
      obtain ⟨⟨x, vars₁, s₁⟩, ⟨y, vars₂, s₂⟩, hx, hy, h⟩ := exists_finish hfirst h
      have hpart := laws.part (e.mem_parts_of_first? hfirst) he
      have hrest := laws.trans (laws.next ih he hy) (laws.finish ih he h)
      exact laws.trans (ih hpart hx) hrest
    | none =>
      cases e with
      | const | flag | has =>
        cases h
        exact laws.refl s
      | prim p =>
        cases h
        exact laws.trans (laws.prim he ..) (laws.record ..)
      | call rule =>
        obtain ⟨⟨x, t⟩, hr, h⟩ := Option.bind_eq_some_iff.1 h
        cases h
        exact laws.call ih he hr
      | guarded rule a =>
        have hguard := laws.guardLevel level rule s
        simp only [eval] at h
        split at h
        · next ht =>
          rw [ht] at hguard
          cases h
          exact laws.trans hguard (laws.record ..)
        · next ht =>
          rw [ht] at hguard
          obtain ⟨⟨x, vars₁, s₁⟩, ha, h⟩ := Option.bind_eq_some_iff.1 h
          cases h
          exact laws.trans hguard (laws.trans (ih (laws.guarded he) ha) (laws.record ..))
      | groupRun chunk minds item eatMore =>
        obtain ⟨⟨x, t⟩, hgroup, h⟩ := Option.bind_eq_some_iff.1 h
        cases h
        exact laws.trans (laws.group ih he hgroup) (laws.record ..)
      | hook body =>
        cases h
        exact laws.trans (laws.hook he s) (laws.record ..)
      | _ => cases hfirst

end EvalLaws

end Grammar

end Descent
