import Descent.Proofs.Grammar.Parts
import Descent.Proofs.Session.MirrorSections

/-!
# Grammars in mirrored states

A grammar without literals does in mirrored states the same, step by step: with the same fuel its
expressions end in both or in neither, with the same answers and in mirrored states
(`Grammar.mirrors_eval`).
-/

namespace Descent

/-- No rule of the grammar looks for literals. -/
def Grammar.LiteralFree (grammar : Grammar) : Prop := ∀ rule ∈ grammar, rule.2.literalFree = true

instance (grammar : Grammar) : Decidable grammar.LiteralFree :=
  inferInstanceAs (Decidable (∀ rule ∈ grammar, rule.2.literalFree = true))

theorem Expr.literalFree_of_mem_parts {e a : Expr} (ha : a ∈ e.parts) (he : e.literalFree = true) :
    a.literalFree = true := by
  cases e <;> grind [parts, literalFree]

namespace Vars

variable (f : Nat → Nat) (vars : Vars)

/-- The variables with the places moved. -/
def move : Vars := { vars with places := vars.places.map fun x => (x.1, f x.2) }

theorem place_move {f : Nat → Nat} (hzero : f 0 = 0) (name : String) :
    (vars.move f).place name = f (vars.place name) := by
  have hlookup (places : List (String × Nat)) :
      ((places.map fun x => (x.1, f x.2)).lookup name).getD 0 = f ((places.lookup name).getD 0) := by
    induction places with
    | nil => exact hzero.symm
    | cons x places ih =>
      obtain ⟨key, position⟩ := x
      simp only [List.map_cons, List.lookup_cons]
      cases name == key with
      | true => rfl
      | false => exact ih
  exact hlookup vars.places

end Vars

open Session (Mirrors Mirrored)

variable {g : Setup} {b : Source} {f : Nat → Nat} {s t : Session}

namespace Primitive

/-- Two steps end with the same answer, in mirrored states, and with the places moved. -/
structure Outcome.Mirrors (b : Source) (f : Nat → Nat) (o o' : Outcome) : Prop where
  answer : o'.answer = o.answer
  vars : o'.vars = o.vars.move f
  session : o.session.Mirrors b f o'.session

namespace Outcome.Mirrors

variable {vars : Vars}

theorem test {x y : Bool × Session} (h : Mirrored b f x y) :
    Outcome.Mirrors b f (.test vars x) (.test (vars.move f) y) :=
  ⟨h.1, rfl, h.2⟩

theorem unit (h : s.Mirrors b f t) : Outcome.Mirrors b f (.unit vars s) (.unit (vars.move f) t) :=
  ⟨rfl, rfl, h⟩

theorem bind (name : String) {x y : Marker × Session} (h : Mirrored b f x y) :
    Outcome.Mirrors b f (.bind vars name x) (.bind (vars.move f) name y) :=
  ⟨rfl, congrArg (fun m => (vars.move f).setMarker name m) h.1, h.2⟩

theorem find (n : Option Nat) (h : s.Mirrors b f t) :
    Outcome.Mirrors b f (.find vars n s) (.find (vars.move f) n t) := by
  cases n <;> exact ⟨rfl, rfl, h⟩

theorem withMarker (name : String) {change : Marker → Session → Session}
    (hchange : ∀ m, (change m s).Mirrors b f (change m t)) (h : s.Mirrors b f t) :
    Outcome.Mirrors b f (withMarker vars name change s)
      (withMarker (vars.move f) name change t) := by
  have hmarker : (vars.move f).marker? name = vars.marker? name := rfl
  unfold Primitive.withMarker
  rw [hmarker]
  cases vars.marker? name with
  | none => exact unit h
  | some m => exact unit (hchange m)

end Outcome.Mirrors

/-- A step without literals does the same in mirrored states. -/
theorem mirrors_run (hb : Stretches f (g.source.glimpses g.language) (b.glimpses g.language))
    (h : s.Mirrors b f t) {p : Primitive} (hp : p.literalFree = true) (level : Nat) (vars : Vars) :
    (p.run g level vars s).Mirrors b f (p.run (g.on b) level (vars.move f) t) := by
  have h' := h.toSignificant hb
  have hs := (g.significant_spec s.position).1
  cases p with
  | guardLevel rule deeper => exact .test (h.guardLevel hb _ rule)
  | enter m modifiers kind name deeper => exact .bind m (h.enter hb _ modifiers kind name)
  | enterSimple m => exact .bind m (h.enterSimple hb)
  | consume kind => exact .test (h.consume hb kind)
  | take kind => exact .test (h.take hb kind)
  | takeOffered kind => exact .test (h.takeOffered hb kind)
  | consumeLiteral | nextLiteral => cases hp
  | next kind => exact .test (h.next hb kind)
  | peek kind => exact .test (h.peekAny hb [kind])
  | nextAny name kinds => exact .test (h.nextAny hb name kinds)
  | peekAny kinds => exact .test (h.peekAny hb kinds)
  | sequence pin kinds => exact .test (h.consumeKinds hb false pin kinds)
  | trySequence pin kinds => exact .test (h.tryKinds hb false pin kinds)
  | trySequenceSilent pin kinds => exact .test (h.tryKinds hb true pin kinds)
  | announce phrase => exact .unit (h.announce hb (.text phrase))
  | advance => exact .unit (h.stepOver hb).2
  | isAtEnd => exact .test ⟨h'.isAtEnd hb hs, h'⟩
  | isAborted => exact .test ⟨h.isAborted, h⟩
  | remember place =>
    refine ⟨rfl, ?_, h⟩
    show (vars.move f).setPlace place t.position = _
    rw [h.position]
    rfl
  | guardProgress rule place =>
    have hguard := h.guardProgress hb rule (vars.place place)
    rw [← vars.place_move hb.zero] at hguard
    exact .test hguard
  | kindHere =>
    dsimp only [run]
    rw [h'.kindHere? hb hs]
    exact .find _ h'
  | textHere =>
    have htext : b.textAt (t.toSignificant (g.on b)).position =
        g.source.textAt (s.toSignificant g).position := by
      rw [h'.position]
      exact hb.textAt hs
    dsimp only [run]
    rw [htext]
    exact ⟨rfl, rfl, h'⟩
  | offset => exact ⟨rfl, rfl, h'⟩
  | recursionCeiling => exact ⟨rfl, rfl, h⟩
  | openMarker m => exact .bind m (h.openMarker hb)
  | wrap outer m =>
    have hmarker : (vars.move f).marker? m = vars.marker? m := rfl
    dsimp only [run]
    rw [hmarker]
    cases vars.marker? m with
    | none => exact .unit h
    | some marker => exact .bind outer (h.wrap hb marker)
  | lastCommitted m =>
    dsimp only [run]
    rw [h.log, MarkerLog.lastCommitted?_move]
    cases s.log.lastCommitted? with
    | none => exact .find none h
    | some marker => exact .bind m (.mk h)
  | kindOf m =>
    have hkind : ((vars.move f).marker? m).bind t.log.kind? = (vars.marker? m).bind s.log.kind? := by
      rw [h.log]
      exact congrArg ((vars.marker? m).bind ·) (funext fun marker => MarkerLog.kind?_move ..)
    dsimp only [run]
    rw [hkind]
    exact .find _ h
  | commit m kind => exact .withMarker m (fun marker => h.commitAs hb marker kind) h
  | rollback m => exact .withMarker m (fun marker => h.rollback marker) h
  | drop m => exact .withMarker m (fun marker => h.drop marker) h
  | foreign m number => exact .bind m (.mk h)

end Primitive

namespace Grammar

/-- The answers are the same, the places are moved, and the states mirror each other. -/
def MirroredVars (b : Source) (f : Nat → Nat) (x y : Bool × Vars × Session) : Prop :=
  y.1 = x.1 ∧ y.2.1 = x.2.1.move f ∧ x.2.2.Mirrors b f y.2.2

theorem MirroredVars.mk {answer : Bool} {vars : Vars} (h : s.Mirrors b f t) :
    MirroredVars b f (answer, vars, s) (answer, vars.move f, t) := ⟨rfl, rfl, h⟩

theorem MirroredVars.exists_eq {x y : Bool × Vars × Session} (h : MirroredVars b f x y) :
    ∃ answer vars s t, x = (answer, vars, s) ∧ y = (answer, vars.move f, t) ∧ s.Mirrors b f t :=
  ⟨x.1, x.2.1, x.2.2, y.2.2, rfl, Prod.ext h.1 (Prod.ext h.2.1 rfl), h.2.2⟩

/-- Two ways to evaluate expressions without literals do the same in mirrored states. -/
def EvalMirrors (b : Source) (f : Nat → Nat)
    (eval eval' : Nat → Vars → Expr → Session → Option (Bool × Vars × Session)) : Prop :=
  ∀ {e : Expr} {s t : Session}, e.literalFree = true → s.Mirrors b f t → ∀ level vars,
    Option.Rel (MirroredVars b f) (eval level vars e s) (eval' level (vars.move f) e t)

/-- What follows on an evaluation may take its answers to be the same and its states mirrored. -/
theorem EvalMirrors.bind {γ δ : Type} {S : γ → δ → Prop} {e : Expr} {level : Nat} {vars : Vars}
    {eval eval' : Nat → Vars → Expr → Session → Option (Bool × Vars × Session)}
    {k : Bool × Vars × Session → Option γ} {k' : Bool × Vars × Session → Option δ}
    (heval : EvalMirrors b f eval eval') (he : e.literalFree = true) (h : s.Mirrors b f t)
    (hk : ∀ answer vars s t, s.Mirrors b f t →
      Option.Rel S (k (answer, vars, s)) (k' (answer, vars.move f, t))) :
    Option.Rel S ((eval level vars e s).bind k) ((eval' level (vars.move f) e t).bind k') := by
  refine rel_bind (heval he h level vars) fun x y hxy => ?_
  obtain ⟨answer, vars, s, t, rfl, rfl, h⟩ := hxy.exists_eq
  exact hk answer vars s t h

theorem literalFree_body (hg : g.grammar.LiteralFree) (name : String) :
    ((g.grammar.lookup name).getD (.const false)).literalFree = true :=
  body_of_rules (P := fun e => e.literalFree = true) rfl hg name

section
variable (hb : Stretches f (g.source.glimpses g.language) (b.glimpses g.language))
  (hg : g.grammar.LiteralFree)
  {eval eval' : Nat → Vars → Expr → Session → Option (Bool × Vars × Session)}
  (heval : EvalMirrors b f eval eval')
include heval

theorem mirrors_runHook : HookRunner.Mirrors b f (runHook eval) (runHook eval') := by
  intro body m? s t hbody h
  have hrun (vars : Vars) (v w : Value) : Option.Rel (Mirrored b f)
      ((eval 0 vars body (s.recordCall .hookRun v)).bind fun x =>
        some (if x.1 then x.2.1.marker? "m" else none, x.2.2))
      ((eval' 0 (vars.move f) body (t.recordCall .hookRun w)).bind fun x =>
        some (if x.1 then x.2.1.marker? "m" else none, x.2.2)) := by
    exact heval.bind hbody (h.recordCall _ v w) fun answer vars s t h => .some (.mk h)
  cases m? with
  | none => exact hrun {} .unit .unit
  | some m => exact hrun (Vars.setMarker {} "m" m) (.nat m.number) (.nat m.number)

include hb hg

theorem mirrors_runRef : Runner.Mirrors b f (runRef g eval) (runRef (g.on b) eval') := by
  intro rule level s t h
  cases rule with
  | named name =>
    refine rel_bind (heval (literalFree_body hg name) h level {}) fun x y hxy => ?_
    exact .some ⟨hxy.1, hxy.2.2⟩
  | advance => exact .some (h.stepOver hb)
  | always => exact .some (.mk h)

end

section
variable (hb : Stretches f (g.source.glimpses g.language) (b.glimpses g.language)) {fuel level : Nat}
  (heval : EvalMirrors b f (eval g fuel) (eval (g.on b) fuel))
include heval

theorem mirrors_evalNext {next? : Option Expr} (hnext : ∀ c, next? = some c → c.literalFree = true)
    (x : Bool) (vars : Vars) (h : s.Mirrors b f t) :
    Option.Rel (MirroredVars b f) (evalNext g fuel level next? (x, vars, s))
      (evalNext (g.on b) fuel level next? (x, vars.move f, t)) := by
  cases next? with
  | some c => exact heval (hnext c rfl) h level vars
  | none => exact .some (.mk h)

include hb

theorem mirrors_finish (hg : g.grammar.LiteralFree) (e : Expr) (x y : Bool) (vars : Vars)
    (h : s.Mirrors b f t) : Option.Rel (MirroredVars b f) (finish g fuel level e x (y, vars, s))
      (finish (g.on b) fuel level e x (y, vars.move f, t)) := by
  have hrun := mirrors_runRef hb hg heval
  have hhook := mirrors_runHook heval
  have hmarker (m : String) : (vars.move f).marker? m = vars.marker? m := rfl
  cases e with
  | set name a => exact .some ⟨rfl, rfl, h⟩
  | leave m kind result pinned eatMore deeper =>
    simp only [finish, hmarker]
    cases vars.marker? m with
    | none => exact .some (.mk (h.recordCall _ _ _))
    | some marker =>
      refine rel_bind (h.leave hb hhook hrun ..) fun u v huv => ?_
      exact .some (.mk (huv.recordCall _ _ _))
  | leaveSimple m kind result =>
    simp only [finish, hmarker]
    cases vars.marker? m with
    | none => exact .some (.mk (h.recordCall _ _ _))
    | some marker =>
      refine rel_bind (h.leaveSimple hb hhook ..) fun u v huv => ?_
      exact .some (.mk (huv.recordCall _ _ _))
  | reporting a =>
    cases y with
    | true => exact .some (.mk (h.recordCall _ _ _))
    | false => exact .some (.mk ((h.reportHere hb).recordCall _ _ _))
  | _ => exact .some (.mk h)

end

/-- With the same fuel, an expression without literals ends in mirrored states or in neither. -/
theorem mirrors_eval (hb : Stretches f (g.source.glimpses g.language) (b.glimpses g.language))
    (hg : g.grammar.LiteralFree) (fuel : Nat) :
    EvalMirrors b f (eval g fuel) (eval (g.on b) fuel) := by
  -- rules and hooks are run with less fuel, so they answer alike by the hypothesis of the induction
  induction fuel with
  | zero => exact fun _ _ _ _ => .none
  | succ fuel ih =>
    intro e s t he h level vars
    have hrun := mirrors_runRef hb hg ih
    cases hfirst : e.first? with
    | some a =>
      have hpart (c : Expr) (hc : c ∈ e.parts) : c.literalFree = true :=
        Expr.literalFree_of_mem_parts hc he
      rw [eval_of_first? hfirst, eval_of_first? hfirst]
      refine ih.bind (hpart a (e.mem_parts_of_first? hfirst)) h fun x vars s t h => ?_
      refine rel_bind
        (mirrors_evalNext ih (fun c hc => hpart c (e.mem_parts_of_next? hc)) x vars h) fun u v huv => ?_
      obtain ⟨y, vars, s, t, rfl, rfl, h⟩ := huv.exists_eq
      exact mirrors_finish hb ih hg e x y vars h
    | none =>
      cases e with
      | const | flag | has => exact .some (.mk h)
      | call rule =>
        refine rel_bind (hrun rule (level + 1) _ _ h) ?_
        rintro ⟨_, s⟩ ⟨answer, t⟩ ⟨rfl, h⟩
        exact .some (.mk h)
      | prim p =>
        have hstep := Primitive.mirrors_run hb h he level vars
        exact .some ⟨hstep.answer, hstep.vars, hstep.session.recordCall _ _ _⟩
      | guarded rule a =>
        obtain ⟨answer, u, v, hu, hv, huv⟩ := (h.guardLevel hb level rule).exists_eq
        simp only [eval, hu, hv]
        cases answer with
        | false => exact .some (.mk (huv.recordCall _ _ _))
        | true =>
          refine ih.bind (e := a) he huv fun answer vars s t h => ?_
          exact .some (.mk (h.recordCall _ _ _))
      | groupRun chunk minds item eatMore =>
        refine rel_bind (h.groupRun hb hrun fuel level chunk minds item eatMore) ?_
        rintro ⟨_, s⟩ ⟨answer, t⟩ ⟨rfl, h⟩
        exact .some (.mk (h.recordCall _ _ _))
      | hook body =>
        refine .some (.mk (Mirrors.recordCall ?_ _ _ _))
        have hhooks : (⟨t.level, body⟩ :: t.hooks : List Hook) = ⟨s.level, body⟩ :: s.hooks := by
          rw [h.level, h.hooks]
        exact { h with hooks := hhooks, literalFree := List.forall_mem_cons.2 ⟨he, h.literalFree⟩ }
      | _ => cases hfirst

end Grammar

end Descent
