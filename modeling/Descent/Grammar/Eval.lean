import Descent.Session.Section

/-!
# Running grammars

Expressions are run on a session at a level, with variables. Primitives do one step. Everything
that may run a rule is clocked: with `fuel` at zero a run has no answer, and a run that has an
answer has the same one with more fuel. Every step that is not mere control flow is recorded when
it is over; a hook is recorded when it begins.
-/

namespace Descent

/-- The variables of one run of a rule, the latest bindings first. -/
structure Vars where
  flags : List (String × Bool) := []
  markers : List (String × Marker) := []
  places : List (String × Nat) := []
  deriving DecidableEq, Repr

namespace Vars

/-- The value of a flag; a flag that was never set is down. -/
def flag (v : Vars) (name : String) : Bool := (v.flags.lookup name).getD false

def marker? (v : Vars) (name : String) : Option Marker := v.markers.lookup name

/-- A remembered position; the first one if none was remembered. -/
def place (v : Vars) (name : String) : Nat := (v.places.lookup name).getD 0

def setFlag (v : Vars) (name : String) (b : Bool) : Vars := { v with flags := (name, b) :: v.flags }

def setMarker (v : Vars) (name : String) (m : Marker) : Vars :=
  { v with markers := (name, m) :: v.markers }

def setPlace (v : Vars) (name : String) (position : Nat) : Vars :=
  { v with places := (name, position) :: v.places }

end Vars

namespace Primitive

/-- What a step gives: its value, the answer of the expression, and the new variables and state. -/
structure Outcome where
  value : Value
  answer : Bool
  vars : Vars
  session : Session

namespace Outcome

/-- A test, which leaves the variables as they are. -/
def test (vars : Vars) (x : Bool × Session) : Outcome := ⟨.bool x.1, x.1, vars, x.2⟩

/-- A step without a value, which always succeeds. -/
def unit (vars : Vars) (s : Session) : Outcome := ⟨.unit, true, vars, s⟩

/-- A step that binds a new marker. -/
def bind (vars : Vars) (name : String) (x : Marker × Session) : Outcome :=
  ⟨.nat x.1.number, true, vars.setMarker name x.1, x.2⟩

/-- A step that finds a number or nothing. -/
def find (vars : Vars) (n : Option Nat) (s : Session) : Outcome :=
  match n with
  | some n => ⟨.nat n, true, vars, s⟩
  | none => ⟨.unit, false, vars, s⟩

end Outcome

/-- Does the step for a marker variable, and nothing if the variable is not bound. -/
def withMarker (vars : Vars) (name : String) (f : Marker → Session → Session) (s : Session) :
    Outcome :=
  match vars.marker? name with
  | some m => .unit vars (f m s)
  | none => .unit vars s

/-- Runs a step at a level. -/
def run (g : Setup) (level : Nat) (vars : Vars) (s : Session) : Primitive → Outcome
  | guardLevel rule deeper => .test vars (s.guardLevel g (level + deeper) rule)
  | enter m modifiers kind name deeper =>
    .bind vars m (s.enter g (level + deeper) modifiers kind name)
  | enterSimple m => .bind vars m (s.enterSimple g)
  | consume kind => .test vars (s.consume g kind)
  | take kind => .test vars (s.take g kind)
  | takeOffered kind => .test vars (s.takeOffered g kind)
  | consumeLiteral literal => .test vars (s.consumeLiteral g literal)
  | nextLiteral literal => .test vars (s.nextLiteral g literal)
  | next kind => .test vars (s.next g kind)
  | peek kind => .test vars (s.peek g kind)
  | nextAny name kinds => .test vars (s.nextAny g name kinds)
  | peekAny kinds => .test vars (s.peekAny g kinds)
  | sequence pin kinds => .test vars (s.consumeKinds g false pin kinds)
  | trySequence pin kinds => .test vars (s.tryKinds g false pin kinds)
  | trySequenceSilent pin kinds => .test vars (s.tryKinds g true pin kinds)
  | announce phrase => .unit vars (s.announce g (.text phrase))
  | advance => .unit vars (s.stepOver g).2
  | isAtEnd =>
    let s := s.toSignificant g
    .test vars (s.isAtEnd g, s)
  | isAborted => .test vars (s.isAborted, s)
  | remember place => .unit (vars.setPlace place s.position) s
  | guardProgress rule place => .test vars (s.guardProgress g rule (vars.place place))
  | kindHere =>
    let s := s.toSignificant g
    .find vars ((s.kindHere? g).map (·.toNat)) s
  | textHere =>
    let s := s.toSignificant g
    let text := g.source.textAt s.position
    ⟨.text text, !text.isEmpty, vars, s⟩
  | offset =>
    let s := s.toSignificant g
    ⟨.nat (s.offset g), true, vars, s⟩
  | recursionCeiling => ⟨.nat g.limits.recursionCeiling, true, vars, s⟩
  | openMarker m => .bind vars m (s.openMarker g)
  | wrap outer m =>
    match vars.marker? m with
    | some marker => .bind vars outer (s.wrap marker)
    | none => .unit vars s
  | lastCommitted m =>
    match s.log.lastCommitted? with
    | some marker => .bind vars m (marker, s)
    | none => .find vars none s
  | kindOf m => .find vars (((vars.marker? m).bind s.log.kind?).map (·.toNat)) s
  | commit m kind => withMarker vars m (fun marker => Session.commitAs marker kind) s
  | rollback m => withMarker vars m Session.rollback s
  | drop m => withMarker vars m Session.drop s
  | foreign m number => .bind vars m (⟨number⟩, s)

end Primitive

namespace Grammar

/-- Runs the rule of a grammar, or one that every grammar has. -/
def runRef (g : Setup) (eval : Nat → Vars → Expr → Session → Option (Bool × Vars × Session)) :
    Runner
  | .named name, level, s => do
    let (b, _, s) ← eval level {} ((g.grammar.lookup name).getD (.const false)) s
    some (b, s)
  | .advance, _, s => some (s.stepOver g)
  | .always, _, s => some (true, s)

/-- Runs the body of a hook. The marker it is given is bound to `m`, and what is bound to `m` at
the end is what it returns, unless it fails. -/
def runHook (eval : Nat → Vars → Expr → Session → Option (Bool × Vars × Session)) : HookRunner :=
  fun body m? s => do
    let s := s.recordCall .hookRun (match m? with
      | some m => .nat m.number
      | none => .unit)
    let vars : Vars := match m? with
      | some m => Vars.setMarker {} "m" m
      | none => {}
    let (b, vars, s) ← eval 0 vars body s
    some (if b then vars.marker? "m" else none, s)

/-- Runs an expression at a level. -/
def eval (g : Setup) :
    (fuel : Nat) → (level : Nat) → Vars → Expr → Session → Option (Bool × Vars × Session)
  | 0, _, _, _, _ => none
  | fuel + 1, level, vars, e, s =>
    match e with
    | .const b => some (b, vars, s)
    | .flag name => some (vars.flag name, vars, s)
    | .seq a b => do
      let (_, vars, s) ← eval g fuel level vars a s
      eval g fuel level vars b s
    | .and a b => do
      let (x, vars, s) ← eval g fuel level vars a s
      if x then eval g fuel level vars b s else some (false, vars, s)
    | .or a b => do
      let (x, vars, s) ← eval g fuel level vars a s
      if x then some (true, vars, s) else eval g fuel level vars b s
    | .not a => do
      let (x, vars, s) ← eval g fuel level vars a s
      some (!x, vars, s)
    | .ite c t f => do
      let (x, vars, s) ← eval g fuel level vars c s
      if x then eval g fuel level vars t s else eval g fuel level vars f s
    | .set name a => do
      let (x, vars, s) ← eval g fuel level vars a s
      some (x, vars.setFlag name x, s)
    | .loop a => do
      let (x, vars, s) ← eval g fuel level vars a s
      if x then eval g fuel level vars (.loop a) s else some (true, vars, s)
    | .call rule => do
      let (x, s) ← runRef g (eval g fuel) rule (level + 1) s
      some (x, vars, s)
    | .has m => some ((vars.marker? m).isSome, vars, s)
    | .prim p =>
      let o := p.run g level vars s
      some (o.answer, o.vars, o.session.recordCall (.primitive p) o.value)
    | .guarded rule a =>
      match s.guardLevel g level rule with
      | (false, s) => some (false, vars, s.recordCall (.guarded rule) (.bool false))
      | (true, s) => do
        let (x, vars, s) ← eval g fuel level vars a s
        some (x, vars, s.recordCall (.guarded rule) (.bool x))
    | .leave m kind result pinned eatMore deeper => do
      let (result, vars, s) ← eval g fuel level vars result s
      let (pinned, vars, s) ← eval g fuel level vars pinned s
      let s ← match vars.marker? m with
        | some marker =>
          s.leave g (runRef g (eval g fuel)) (runHook (eval g fuel)) fuel (level + deeper) marker
            kind result pinned eatMore
        | none => some s
      some (true, vars, s.recordCall .leave .unit)
    | .leaveSimple m kind result => do
      let (result, vars, s) ← eval g fuel level vars result s
      let s ← match vars.marker? m with
        | some marker => s.leaveSimple g (runHook (eval g fuel)) fuel marker kind result
        | none => some s
      some (true, vars, s.recordCall .leaveSimple .unit)
    | .reporting a => do
      let (x, vars, s) ← eval g fuel level vars a s
      let s := if x then s else s.reportHere g
      some (x, vars, s.recordCall .reporting (.bool x))
    | .groupRun chunk checkDelimiters item eatMore => do
      let (x, s) ←
        s.groupRun g (runRef g (eval g fuel)) fuel level chunk checkDelimiters item eatMore
      some (x, vars, s.recordCall .groupRun (.bool x))
    | .hook body =>
      some (true, vars, (s.addHook body).recordCall .hook .unit)

end Grammar

end Descent
