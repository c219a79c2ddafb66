import Descent.Proofs.Session.AbreastSections

/-!
# Parses abreast

If the steps that a grammar takes do in twins the same as far as they are compared, then so do its
expressions (`Grammar.abreast_eval`), and so do parses (`Session.Twins.parse`).
-/

namespace Descent

open Comparable (state Alike)

/-- All steps that the rules of the grammar take are allowed. -/
def Grammar.All (allows : Primitive → Bool) (grammar : Grammar) : Prop :=
  ∀ rule ∈ grammar, rule.2.all allows = true

instance (allows : Primitive → Bool) (grammar : Grammar) : Decidable (grammar.All allows) :=
  inferInstanceAs (Decidable (∀ rule ∈ grammar, rule.2.all allows = true))

theorem Expr.all_eq_true (e : Expr) : e.all (fun _ => true) = true := by
  induction e <;> simp_all [Expr.all]

theorem Expr.all_of_mem_parts {allows : Primitive → Bool} {e a : Expr} (ha : a ∈ e.parts)
    (he : e.all allows = true) : a.all allows = true := by
  cases e <;> grind [parts, all]

/-! ## Steps -/

instance : Comparable Primitive.Outcome where
  state o := o.session
  Alike k o o' := o'.value = o.value ∧ o'.answer = o.answer ∧ o'.vars = o.vars ∧
    o.session.Twins k o'.session

/-- The steps that are allowed do in twins the same as far as they are compared. -/
def Comparison.Steps {g : Setup} (k : Comparison g) : Prop :=
  ∀ p, k.allows p = true → ∀ (level : Nat) (vars : Vars) (s t : Session), s.Twins k t →
    s.Abreast k (some (p.run g level vars s)) (some (p.run k.other level vars t))

namespace Primitive

/-- Whether a step does the same with candidates and without wherever it begins. -/
def offersInPassing : Primitive → Bool
  | takeOffered _ | nextLiteral _ | next _ | nextAny .. | sequence .. | trySequence ..
  | trySequenceSilent .. => false
  | _ => true

variable {g : Setup} {k : Comparison g} {s t : Session} {vars : Vars}

section Outcomes
open Outcome

theorem alike_test {x y : Bool × Session} (h : Alike k x y) : Alike k (test vars x) (test vars y) :=
  ⟨congrArg Value.bool h.1, h.1, rfl, h.2⟩

theorem alike_unit (h : s.Twins k t) : Alike k (Outcome.unit vars s) (Outcome.unit vars t) :=
  ⟨rfl, rfl, rfl, h⟩

theorem alike_bind (name : String) {x y : Marker × Session} (h : Alike k x y) :
    Alike k (bind vars name x) (bind vars name y) :=
  ⟨congrArg (fun m : Marker => Value.nat m.number) h.1, rfl, congrArg (vars.setMarker name) h.1, h.2⟩

theorem alike_find (n : Option Nat) (h : s.Twins k t) :
    Alike k (find vars n s) (find vars n t) := by
  cases n <;> exact ⟨rfl, rfl, rfl, h⟩

theorem alike_withMarker (name : String) {change : Marker → Session → Session}
    (hchange : ∀ m, (change m s).Twins k (change m t)) (h : s.Twins k t) :
    Alike k (withMarker vars name change s) (withMarker vars name change t) := by
  unfold withMarker
  cases vars.marker? name with
  | none => exact alike_unit h
  | some m => exact alike_unit (hchange m)

end Outcomes

theorem twins_run (h : s.Twins k t) {p : Primitive} (hp : p.offersInPassing = true) (level : Nat)
    (vars : Vars) : Alike k (p.run g level vars s) (p.run k.other level vars t) := by
  have h' := h.toSignificant
  cases p with
  | guardLevel rule deeper => exact alike_test (h.guardLevel _ rule)
  | enter m modifiers kind name deeper => exact alike_bind m (h.enter _ modifiers kind name)
  | enterSimple m => exact alike_bind m h.enterSimple
  | consume kind => exact alike_test (h.consume kind)
  | take kind => exact alike_test (h.take kind)
  | consumeLiteral literal => exact alike_test (h.consumeLiteral literal)
  | peek kind => exact alike_test (h.peekAny [kind])
  | peekAny kinds => exact alike_test (h.peekAny kinds)
  | takeOffered | nextLiteral | next | nextAny | sequence | trySequence | trySequenceSilent =>
    cases hp
  | announce phrase => exact alike_unit (h.announce (.text phrase))
  | advance => exact alike_unit h.stepOver.2
  | isAtEnd => exact alike_test ⟨h'.isAtEnd, h'⟩
  | isAborted => exact alike_test ⟨h.isAborted, h⟩
  | remember place => exact ⟨rfl, rfl, congrArg (vars.setPlace place) h.position, h⟩
  | guardProgress rule place => exact alike_test (h.guardProgress rule (vars.place place))
  | kindHere =>
    dsimp only [run]
    rw [h'.kindHere?]
    exact alike_find _ h'
  | textHere =>
    have htext : k.other.source.textAt (t.toSignificant k.other).position =
        g.source.textAt (s.toSignificant g).position := by
      rw [h'.position]
      rfl
    dsimp only [run]
    rw [htext]
    exact ⟨rfl, rfl, rfl, h'⟩
  | offset => exact ⟨congrArg Value.nat h'.offset, rfl, rfl, h'⟩
  | recursionCeiling => exact ⟨rfl, rfl, rfl, h⟩
  | openMarker m => exact alike_bind m h.openMarker
  | wrap outer m =>
    dsimp only [run]
    cases vars.marker? m with
    | none => exact alike_unit h
    | some marker => exact alike_bind outer (h.wrap marker)
  | lastCommitted m =>
    dsimp only [run]
    rw [h.lastCommitted?]
    cases s.log.lastCommitted? with
    | none => exact alike_find none h
    | some marker => exact alike_bind m (.pair h)
  | kindOf m =>
    have hkind : (vars.marker? m).bind t.log.kind? = (vars.marker? m).bind s.log.kind? :=
      congrArg ((vars.marker? m).bind ·) (funext h.kind?)
    dsimp only [run]
    rw [hkind]
    exact alike_find _ h
  | commit m kind => exact alike_withMarker m (fun marker => h.commitAs marker kind) h
  | rollback m => exact alike_withMarker m (fun marker => h.rollback marker) h
  | drop m => exact alike_withMarker m (fun marker => h.drop marker) h
  | foreign m number => exact alike_bind m (.pair h)

/-- Where both runs collect candidates or neither does, every step does the same. -/
theorem twins_run_collects (hk : k.Collects) (h : s.Twins k t) (p : Primitive) (level : Nat)
    (vars : Vars) : Alike k (p.run g level vars s) (p.run k.other level vars t) := by
  have hkinds (silent : Bool) (pin : Pin) (kinds : List Kind) {u v : Session} (huv : u.Twins k v) :
      Alike k (u.consumeKinds g silent pin kinds) (v.consumeKinds k.other silent pin kinds) :=
    Session.Twins.consumeKinds_of_offered (huv.offerAlways hk _) silent pin rfl
  have htry (silent : Bool) (pin : Pin) (kinds : List Kind) :
      Alike k (s.tryKinds g silent pin kinds) (t.tryKinds k.other silent pin kinds) :=
    h.tryKinds_of_consumed silent pin fun huv _ => hkinds silent pin kinds huv
  cases hp : p.offersInPassing with
  | true => exact twins_run h hp level vars
  | false =>
    cases p with
    | takeOffered kind => exact alike_test (h.takeOffered hk kind)
    | nextLiteral literal => exact alike_test (h.nextLiteral hk literal)
    | next kind => exact alike_test (h.next hk kind)
    | nextAny name kinds => exact alike_test (h.nextAny hk name kinds)
    | sequence pin kinds => exact alike_test (hkinds false pin kinds h)
    | trySequence pin kinds => exact alike_test (htry false pin kinds)
    | trySequenceSilent pin kinds => exact alike_test (htry true pin kinds)
    | _ => cases hp

end Primitive

theorem Comparison.Collects.steps {g : Setup} {k : Comparison g} (hk : k.Collects) : k.Steps :=
  fun p _ level vars s _ h =>
    .acts (p.twins_run_collects hk h level vars) (p.acts_run level vars s)

namespace Grammar

variable {g : Setup} {k : Comparison g} {s t : Session}

/-- Two ways to evaluate expressions do the same in twins if the steps are allowed. -/
def EvalAbreast (k : Comparison g)
    (eval eval' : Nat → Vars → Expr → Session → Option (Bool × Vars × Session)) : Prop :=
  ∀ {e : Expr} {s t : Session}, e.all k.allows = true → s.Twins k t → ∀ level vars,
    s.Abreast k (eval level vars e s) (eval' level vars e t)

/-- What follows on an evaluation may take its answers and variables to be the same. -/
theorem EvalAbreast.bind {γ : Type} [Comparable γ] {e : Expr} {level : Nat} {vars : Vars}
    {eval eval' : Nat → Vars → Expr → Session → Option (Bool × Vars × Session)}
    {f f' : Bool × Vars × Session → Option γ} (heval : EvalAbreast k eval eval')
    (he : e.all k.allows = true) (h : s.Twins k t)
    (hf : ∀ answer vars (s t : Session), s.Twins k t →
      s.Abreast k (f (answer, vars, s)) (f' (answer, vars, t))) :
    s.Abreast k ((eval level vars e s).bind f) ((eval' level vars e t).bind f') := by
  refine (heval he h level vars).bind ?_
  rintro ⟨_, _, s⟩ ⟨answer, vars, t⟩ ⟨rfl, rfl, h⟩
  exact hf answer vars s t h

/-- What is left of a step once it is recorded. -/
def record (p : Primitive) (o : Primitive.Outcome) : Bool × Vars × Session :=
  (o.answer, o.vars, o.session.recordCall (.primitive p) o.value)

/-- A step that is over is recorded. -/
theorem abreast_recordCall {answer : Bool} {vars : Vars} (h : s.Twins k t) (step : Step)
    (value : Value) : s.Abreast k (some (answer, vars, s.recordCall step value))
      (some (answer, vars, t.recordCall step value)) :=
  .same (.pair (.pair (h.recordCall step value))) rfl

theorem all_body (hg : g.grammar.All k.allows) (name : String) :
    ((g.grammar.lookup name).getD (.const false)).all k.allows = true :=
  body_of_rules (P := fun e => e.all k.allows = true) rfl hg name

section
variable {eval eval' : Nat → Vars → Expr → Session → Option (Bool × Vars × Session)}
  (heval : EvalAbreast k eval eval')
include heval

theorem abreast_runHook : HookRunner.Abreast k (runHook eval) (runHook eval') := by
  intro body m? s t hbody h
  have hrun (vars : Vars) (value : Value) : s.Abreast k
      ((eval 0 vars body (s.recordCall .hookRun value)).bind fun x =>
        some (if x.1 then x.2.1.marker? "m" else none, x.2.2))
      ((eval' 0 vars body (t.recordCall .hookRun value)).bind fun x =>
        some (if x.1 then x.2.1.marker? "m" else none, x.2.2)) := by
    refine .behind (.still (.recordCall ..)) (heval.bind hbody (h.recordCall _ value) ?_)
    exact fun answer vars s t h => .some (.pair h) id
  cases m? with
  | none => exact hrun {} .unit
  | some m => exact hrun (Vars.setMarker {} "m" m) (.nat m.number)

theorem abreast_runRef (hg : g.grammar.All k.allows) :
    Runner.Abreast k (runRef g eval) (runRef k.other eval') := by
  intro rule level s t h
  cases rule with
  | named name =>
    refine heval.bind (all_body hg name) h fun answer vars s t h => ?_
    exact .some (.pair h) id
  | advance => exact .acts h.stepOver (.still (.stepOver s))
  | always => exact .some (.pair h) id

end

section
variable {fuel level : Nat} (heval : EvalAbreast k (eval g fuel) (eval k.other fuel))
include heval

theorem abreast_evalNext {next? : Option Expr} (hnext : ∀ c, next? = some c → c.all k.allows = true)
    (x : Bool) (vars : Vars) (h : s.Twins k t) :
    s.Abreast k (evalNext g fuel level next? (x, vars, s))
      (evalNext k.other fuel level next? (x, vars, t)) := by
  cases next? with
  | some c => exact heval (hnext c rfl) h level vars
  | none => exact .some (.pair (.pair h)) id

theorem abreast_finish (hg : g.grammar.All k.allows) (e : Expr) (x y : Bool) (vars : Vars)
    (h : s.Twins k t) : s.Abreast k (finish g fuel level e x (y, vars, s))
      (finish k.other fuel level e x (y, vars, t)) := by
  have hrun := abreast_runRef heval hg
  have hhook := abreast_runHook heval
  cases e with
  | leave m kind result pinned eatMore deeper =>
    simp only [finish]
    cases vars.marker? m with
    | none => exact abreast_recordCall h ..
    | some marker =>
      refine .bind (h.leave hrun hhook ..) fun u v huv => ?_
      exact abreast_recordCall huv ..
  | leaveSimple m kind result =>
    simp only [finish]
    cases vars.marker? m with
    | none => exact abreast_recordCall h ..
    | some marker =>
      refine .bind (h.leaveSimple hhook ..) fun u v huv => ?_
      exact abreast_recordCall huv ..
  | reporting a =>
    cases y with
    | true => exact abreast_recordCall h ..
    | false => exact .behind (.reportHere g s) (abreast_recordCall h.reportHere ..)
  | _ => exact .some (.pair (.pair h)) id

end

/-- With the same fuel, an expression comes to the same in twins. -/
theorem abreast_eval (hsteps : k.Steps) (hg : g.grammar.All k.allows) (fuel : Nat) :
    EvalAbreast k (eval g fuel) (eval k.other fuel) := by
  -- rules and hooks are run with less fuel, so they answer alike by the hypothesis of the induction
  induction fuel with
  | zero => exact fun _ _ _ _ => .none
  | succ fuel ih =>
    intro e s t he h level vars
    have hrun := abreast_runRef ih hg
    cases hfirst : e.first? with
    | some a =>
      have hpart (c : Expr) (hc : c ∈ e.parts) : c.all k.allows = true := Expr.all_of_mem_parts hc he
      rw [eval_of_first? hfirst, eval_of_first? hfirst]
      refine ih.bind (hpart a (e.mem_parts_of_first? hfirst)) h fun x vars s t h => ?_
      refine .bind (abreast_evalNext ih (fun c hc => hpart c (e.mem_parts_of_next? hc)) x vars h) ?_
      rintro ⟨_, _, s⟩ ⟨y, vars, t⟩ ⟨rfl, rfl, h⟩
      exact abreast_finish ih hg e x y vars h
    | none =>
      cases e with
      | const | flag | has => exact .some (.pair (.pair h)) id
      | call rule =>
        refine .bind (hrun rule (level + 1) _ _ h) ?_
        rintro ⟨_, s⟩ ⟨answer, t⟩ ⟨rfl, h⟩
        exact .some (.pair (.pair h)) id
      | prim p =>
        have hrecord (o o' : Primitive.Outcome) (ho : Alike k o o') :
            Alike k (record p o) (record p o') := by
          obtain ⟨hvalue, hanswer, hvars, ho⟩ := ho
          refine ⟨hanswer, hvars, ?_⟩
          show (o.session.recordCall (.primitive p) o.value).Twins k
            (o'.session.recordCall (.primitive p) o'.value)
          rw [hvalue]
          exact ho.recordCall ..
        exact (hsteps p he level vars s t h).map hrecord fun _ => rfl
      | guarded rule a =>
        have hacts : s.Acts g false (s.guardLevel g level rule).2 := .guardLevel level rule s
        obtain ⟨answer, u, v, hu, hv, huv⟩ := (h.guardLevel level rule).exists_eq
        rw [hu] at hacts
        simp only [eval, hu, hv]
        refine .behind hacts ?_
        cases answer with
        | false => exact abreast_recordCall huv ..
        | true =>
          refine ih.bind (e := a) he huv fun answer vars s t h => ?_
          exact abreast_recordCall h ..
      | groupRun chunk minds item eatMore =>
        refine .bind (h.groupRun hrun fuel level chunk minds item eatMore) ?_
        rintro ⟨_, s⟩ ⟨answer, t⟩ ⟨rfl, h⟩
        exact abreast_recordCall h ..
      | hook body =>
        have hadded : (s.addHook body).Twins k (t.addHook body) := by
          have hhooks : (⟨t.level, body⟩ :: t.hooks : List Hook) = ⟨s.level, body⟩ :: s.hooks := by
            rw [h.level, h.hooks]
          have hnoted : (s.note (.hookRegistered s.level)).Twins k
              (t.note (.hookRegistered t.level)) := by
            rw [h.level]
            exact h.note _
          exact { hnoted with
            hooks := hhooks, allowed := List.forall_mem_cons.2 ⟨he, h.allowed⟩ }
        exact .same (.pair (.pair (hadded.recordCall _ _))) rfl
      | _ => cases hfirst

end Grammar

/-! ## Parses -/

namespace Session

variable {g : Setup} {k : Comparison g} {s t : Session}

/-- The state in which a parse ends, before its output is put together. -/
def parsed (g : Setup) (fuel : Nat) (root : Kind) (rule : RuleRef) (s : Session) : Option Session :=
  let x := (s.note (.parseStarted g.source.size)).enter g 0 { collapse := true } none none
  (Grammar.runRef g (Grammar.eval g fuel) rule 1 x.2).bind fun y =>
    y.2.leave g (Grammar.runRef g (Grammar.eval g fuel)) (Grammar.runHook (Grammar.eval g fuel)) fuel
      0 x.1 (some root) y.1 true (some .always)

theorem parse_eq_map (g : Setup) (fuel : Nat) (root : Kind) (rule : RuleRef) (s : Session) :
    s.parse g fuel root rule = (s.parsed g fuel root rule).map (·.output g root) := by
  unfold parsed
  rw [Option.map_eq_bind, Option.bind_assoc]
  rfl

/-- In twins a parse ends in twins, unless a fatal error is behind it after which nothing is
compared. -/
theorem Twins.parsed (h : s.Twins k t) (hsteps : k.Steps) (hg : g.grammar.All k.allows) (fuel : Nat)
    (root : Kind) (rule : RuleRef) :
    s.Abreast k (s.parsed g fuel root rule) (t.parsed k.other fuel root rule) := by
  have heval : Grammar.EvalAbreast k (Grammar.eval g fuel) (Grammar.eval k.other fuel) :=
    Grammar.abreast_eval hsteps hg fuel
  have hrun := Grammar.abreast_runRef heval hg
  have hhook := Grammar.abreast_runHook heval
  have hacts : s.Acts g false
      ((s.note (.parseStarted g.source.size)).enter g 0 { collapse := true } none none).2 :=
    .trans (.still (.note s rfl)) (.enter ..)
  obtain ⟨m, u, v, hu, hv, huv⟩ := ((h.note (.parseStarted g.source.size)).enter 0
    { collapse := true } none none).exists_eq
  have hv : (t.note (.parseStarted k.other.source.size)).enter k.other 0 { collapse := true } none
    none = (m, v) := hv
  rw [hu] at hacts
  simp only [Session.parsed, hu, hv]
  refine .behind hacts (.bind (hrun _ _ _ _ huv) ?_)
  rintro ⟨_, u⟩ ⟨result, v⟩ ⟨rfl, huv⟩
  exact huv.leave hrun hhook ..

end Session

end Descent
