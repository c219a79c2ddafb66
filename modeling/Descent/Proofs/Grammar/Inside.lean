import Descent.Proofs.Grammar.Parts
import Descent.Proofs.Session.Calm

/-!
# Balanced grammars

Whether a grammar is balanced can be read off its expressions. `Expr.after` follows the sections that
are open, and a rule of a balanced grammar ends with the sections it began with (`Grammar.Balanced`).

So what relates the states before and after each step and each section of such a grammar relates those
before and after each of its rules (`Grammar.keepsInside_of_laws`). What such a relation has to fulfil are its
`RunLaws`. They may be restricted to the states in which sections are entered (`Grammar.entered`) and to
the rules that are asked (`Expr.asked`).
-/

namespace Descent

open Session (Calm)
open Grammar (eval runRef runHook)

variable {allows : Modifiers → Bool} {g : Setup}

/-! ## Tests -/

namespace Primitive

@[simp] theorem Outcome.session_find (vars : Vars) (n : Option Nat) (s : Session) :
    (Outcome.find vars n s).session = s := by
  cases n <;> rfl

@[simp] theorem Outcome.vars_find (vars : Vars) (n : Option Nat) (s : Session) :
    (Outcome.find vars n s).vars = vars := by
  cases n <;> rfl

/-- Whether a step neither opens a section nor changes a marker. -/
def isTest : Primitive → Bool
  | enter .. | enterSimple .. | openMarker .. | wrap .. | lastCommitted .. | commit ..
  | rollback .. | drop .. | foreign .. => false
  | _ => true

/-- Whether a test is of a single token, and not of a sequence of tokens, which may report errors. -/
def isSingle : Primitive → Bool
  | sequence .. | trySequence .. | trySequenceSilent .. => false
  | p => p.isTest

theorem calm_of_isSingle {p : Primitive} (h : p.isSingle = true) (g : Setup) (level : Nat)
    (vars : Vars) (s : Session) : Calm s (p.run g level vars s).session := by
  cases p with
  | enter | enterSimple | openMarker | wrap | lastCommitted | commit | rollback | drop | foreign
  | sequence | trySequence | trySequenceSilent =>
    cases h
  | guardLevel => exact .guardLevel ..
  | consume => exact .consume ..
  | take => exact .take ..
  | takeOffered => exact .takeOffered ..
  | consumeLiteral => exact .consumeLiteral ..
  | nextLiteral => exact .nextLiteral ..
  | next => exact .next ..
  | peek => exact .peekAny ..
  | nextAny => exact .nextAny ..
  | peekAny => exact .peekAny ..
  | announce => exact .announce ..
  | advance => exact .stepOver ..
  | isAtEnd => exact .toSignificant ..
  | isAborted | remember | recursionCeiling => exact .refl s
  | guardProgress => exact .guardProgress ..
  | kindHere =>
    simp only [run, Outcome.session_find]
    exact .toSignificant ..
  | textHere => exact .toSignificant ..
  | offset => exact .toSignificant ..
  | kindOf =>
    simp only [run, Outcome.session_find]
    exact .refl s

/-- A test binds no marker. -/
theorem markers_of_isTest {p : Primitive} (h : p.isTest = true) (g : Setup) (level : Nat)
    (vars : Vars) (s : Session) : (p.run g level vars s).vars.markers = vars.markers := by
  cases p with
  | enter | enterSimple | openMarker | wrap | lastCommitted | commit | rollback | drop | foreign =>
    cases h
  | kindHere | kindOf => simp only [run, Outcome.vars_find]
  | _ => rfl

end Primitive

/-! ## Balanced expressions -/

/-- A section that an expression has opened, by the variable its marker is bound to. -/
structure OpenSection where
  marker : String
  /-- How much deeper than the rule it is, for a section with a frame. -/
  deeper : Option Nat
  deriving DecidableEq, Repr

/-- Opens a section unless its variable is in use. -/
def pushSection (o : OpenSection) (os : List OpenSection) : Option (List OpenSection) :=
  if os.all (·.marker ≠ o.marker) then some (o :: os) else none

/-- Closes the innermost section if it is the given one. -/
def popSection (o : OpenSection) : List OpenSection → Option (List OpenSection)
  | [] => none
  | o' :: os => if o' = o then some os else none

/-- The sections that are open after a step. There are none if the step is not allowed. -/
def Primitive.after (allows : Modifiers → Bool) (os : List OpenSection) :
    Primitive → Option (List OpenSection)
  | enter m modifiers _ _ deeper =>
    if allows modifiers then pushSection ⟨m, some deeper⟩ os else none
  | enterSimple m => pushSection ⟨m, none⟩ os
  | p => if p.isTest then some os else none

/-- The sections that are open after an expression, whatever it answers. There are none if it does
not open and close sections in the order of brackets. -/
def Expr.after (allows : Modifiers → Bool) :
    Expr → List OpenSection → Option (List OpenSection)
  | const _, os | flag _, os | has _, os | call _, os | groupRun .., os =>
    some os
  | prim p, os => p.after allows os
  | seq a b, os => (a.after allows os).bind (b.after allows)
  | and a b, os | or a b, os =>
    (a.after allows os).filter fun os => b.after allows os = some os
  | not a, os | set _ a, os | reporting a, os => a.after allows os
  | ite c t f, os =>
    (c.after allows os).bind fun os =>
      if f.after allows os = t.after allows os then t.after allows os else none
  | loop a, os | guarded _ a, os =>
    if a.after allows os = some os then some os else none
  | leave m _ result pinned _ deeper, os =>
    ((result.after allows os).bind (pinned.after allows)).bind (popSection ⟨m, some deeper⟩)
  | leaveSimple m _ result, os => (result.after allows os).bind (popSection ⟨m, none⟩)
  | hook _, _ => none

/-- The sections that are open when an expression has finished whose parts have left `os` open. -/
def Expr.closed (os : List OpenSection) : Expr → Option (List OpenSection)
  | leave m _ _ _ _ deeper => popSection ⟨m, some deeper⟩ os
  | leaveSimple m _ _ => popSection ⟨m, none⟩ os
  | _ => some os

/-- Every rule closes the sections that it opens. -/
def Grammar.Balanced (allows : Modifiers → Bool) (grammar : Grammar) : Prop :=
  ∀ rule ∈ grammar, rule.2.after allows [] = some []

instance (grammar : Grammar) : Decidable (grammar.Balanced allows) :=
  inferInstanceAs (Decidable (∀ rule ∈ grammar, rule.2.after allows [] = some []))

/-! ## What is entered and asked -/

namespace Expr

/-- The rules that are asked for items, or asked what to skip when a section is left. -/
def asked : Expr → List RuleRef
  | seq a b | and a b | or a b => a.asked ++ b.asked
  | ite c t f => c.asked ++ (t.asked ++ f.asked)
  | not a | set _ a | loop a | guarded _ a | reporting a | leaveSimple _ _ a => a.asked
  | leave _ _ result pinned eatMore _ => result.asked ++ (pinned.asked ++ eatMore.toList)
  | groupRun _ _ item eatMore => [item, eatMore]
  | _ => []

theorem asked_of_mem_parts {e a : Expr} {r : RuleRef} (ha : a ∈ e.parts) (hr : r ∈ a.asked) :
    r ∈ e.asked := by
  cases e <;> grind [parts, asked]

end Expr

/-- Whether a step begins something that may be given back together with errors reported in it: a
section, or a sequence that stays optional although it reports. -/
def Primitive.enters : Primitive → Bool
  | enter .. | enterSimple .. => true
  | trySequence pin _ | trySequenceSilent pin _ => pin == .report
  | _ => false

namespace Grammar

/-- The states in which sections are entered while an expression is evaluated, but for sections of rules
that are asked. -/
def entered (g : Setup) : (fuel level : Nat) → Vars → Expr → Session → List Session
  | 0, _, _, _, _ => []
  | fuel + 1, level, vars, e, s =>
    (match e with
      | .prim p => if p.enters then [s] else []
      | .guarded rule a =>
        match s.guardLevel g level rule with
        | (true, s) => entered g fuel level vars a s
        | (false, _) => []
      | .call (.named name) => entered g fuel (level + 1) {} (g.grammar.body name) s
      | _ => []) ++
    match e.first? with
    | none => []
    | some a => entered g fuel level vars a s ++
      match eval g fuel level vars a s with
      | none => []
      | some (x, vars, s) =>
        match e.next? x with
        | none => []
        | some b => entered g fuel level vars b s

section
variable {g : Setup} {fuel level : Nat} {vars vars' : Vars} {e a b : Expr} {s s' t : Session}

theorem mem_entered_prim {p : Primitive} (hp : p.enters = true) :
    s ∈ entered g (fuel + 1) level vars (.prim p) s := by
  simp [entered, hp]

theorem mem_entered_first (ha : e.first? = some a) (h : t ∈ entered g fuel level vars a s) :
    t ∈ entered g (fuel + 1) level vars e s := by
  simp [entered, ha, h]

theorem mem_entered_next {x : Bool} (ha : e.first? = some a)
    (heval : eval g fuel level vars a s = some (x, vars', s')) (hb : e.next? x = some b)
    (h : t ∈ entered g fuel level vars' b s') : t ∈ entered g (fuel + 1) level vars e s := by
  simp [entered, ha, heval, hb, h]

theorem mem_entered_guarded {rule : String} (hguard : s.guardLevel g level rule = (true, s'))
    (h : t ∈ entered g fuel level vars a s') :
    t ∈ entered g (fuel + 1) level vars (.guarded rule a) s := by
  simp [entered, hguard, h]

theorem mem_entered_call {name : String}
    (h : t ∈ entered g fuel (level + 1) {} (g.grammar.body name) s) :
    t ∈ entered g (fuel + 1) level vars (.call (.named name)) s := by
  simp [entered, h]

end

end Grammar

/-! ## Laws of runs -/

/-- What has to be fulfilled by a relation between states for it to hold along runs with so much fuel,
if sections are entered only in states that are `ok` and no rules are asked but those of `asks`. -/
structure RunLaws (R : Session → Session → Prop) (ok : Session → Prop) (asks : RuleRef → Prop)
    (allows : Modifiers → Bool) (g : Setup) (fuel : Nat) : Prop where
  refl (s : Session) : R s s
  trans {s s₁ s₂ : Session} : R s s₁ → R s₁ s₂ → R s s₂
  record (step : Step) (value : Value) (s : Session) : R s (s.recordCall step value)
  report (s : Session) : R s (s.reportHere g)
  test {p : Primitive} {level : Nat} {vars : Vars} {s : Session} :
    p.isTest = true → (p.enters = true → ok s) → R s (p.run g level vars s).session
  group {level : Nat} {chunk : Kind} {minds : Bool} {item eatMore : RuleRef} {b : Bool}
    {s s' : Session} : asks item → asks eatMore →
    s.groupRun g (runRef g (eval g fuel)) fuel level chunk minds item eatMore = some (b, s') →
    R s s'
  simple {kind : Option Kind} {result : Bool} {s s₁ s₂ : Session} :
    ok s → R (s.enterSimple g).2 s₁ →
    s₁.leaveSimple g (runHook (eval g fuel)) fuel (s.enterSimple g).1 kind result = some s₂ →
    R s s₂
  framed {level : Nat} {modifiers : Modifiers} {early kind : Option Kind} {name : Option String}
    {result pinned : Bool} {eatMore : Option RuleRef} {s s₁ s₂ : Session} :
    allows modifiers = true → ok s → (∀ rule, eatMore = some rule → asks rule) →
    R (s.enter g level modifiers early name).2 s₁ →
    s₁.leave g (runRef g (eval g fuel)) (runHook (eval g fuel)) fuel level
      (s.enter g level modifiers early name).1 kind result pinned eatMore = some s₂ →
    R s s₂

namespace RunLaws

variable {R : Session → Session → Prop} {ok : Session → Prop} {asks : RuleRef → Prop} {fuel : Nat}

theorem stepOver (laws : RunLaws R ok asks allows g fuel) (s : Session) : R s (s.stepOver g).2 :=
  show R s (Primitive.advance.run g 0 {} s).session from laws.test rfl nofun

theorem guardLevel (laws : RunLaws R ok asks allows g fuel) (level : Nat) (rule : String) (s : Session) :
    R s (s.guardLevel g level rule).2 :=
  show R s ((Primitive.guardLevel rule 0).run g level {} s).session from laws.test rfl nofun

end RunLaws

/-- From `s₀` a rule at a level has come to `s`, with its variables at `vars`, and the sections `os` are
open. Between them the states are related. -/
inductive Inside (R : Session → Session → Prop) (ok : Session → Prop) (allows : Modifiers → Bool)
    (g : Setup) (level : Nat) (vars : Vars) (s₀ : Session) : List OpenSection → Session → Prop where
  | none {s : Session} (h : R s₀ s) : Inside R ok allows g level vars s₀ [] s
  | simple {os : List OpenSection} {s s' : Session} {x : String}
    (h : Inside R ok allows g level vars s₀ os s) (hok : ok s)
    (hx : vars.marker? x = some (s.enterSimple g).1) (hrun : R (s.enterSimple g).2 s') :
    Inside R ok allows g level vars s₀ (⟨x, Option.none⟩ :: os) s'
  | framed {os : List OpenSection} {s s' : Session} {x : String} {deeper : Nat}
    {modifiers : Modifiers} {kind : Option Kind} {name : Option String}
    (h : Inside R ok allows g level vars s₀ os s) (hallows : allows modifiers = true) (hok : ok s)
    (hx : vars.marker? x = some (s.enter g (level + deeper) modifiers kind name).1)
    (hrun : R (s.enter g (level + deeper) modifiers kind name).2 s') :
    Inside R ok allows g level vars s₀ (⟨x, some deeper⟩ :: os) s'

variable {R : Session → Session → Prop} {ok : Session → Prop} {asks : RuleRef → Prop}
  {fuel : Nat}

namespace Inside

variable {level : Nat} {vars vars' : Vars} {s₀ s s' : Session} {os os' : List OpenSection}

theorem run (laws : RunLaws R ok asks allows g fuel) (h : Inside R ok allows g level vars s₀ os s)
    (hrun : R s s') : Inside R ok allows g level vars s₀ os s' := by
  cases h with
  | none h => exact .none (laws.trans h hrun)
  | simple h hok hx h' => exact .simple h hok hx (laws.trans h' hrun)
  | framed h hallows hok hx h' => exact .framed h hallows hok hx (laws.trans h' hrun)

/-- Only the variables of the open sections matter. -/
theorem rebind (h : Inside R ok allows g level vars s₀ os s)
    (hv : ∀ o ∈ os, vars'.marker? o.marker = vars.marker? o.marker) :
    Inside R ok allows g level vars' s₀ os s := by
  induction h with
  | none h => exact .none h
  | simple _ hok hx hrun ih =>
    obtain ⟨hx', hv⟩ := List.forall_mem_cons.1 hv
    exact .simple (ih hv) hok (hx'.trans hx) hrun
  | framed _ hallows hok hx hrun ih =>
    obtain ⟨hx', hv⟩ := List.forall_mem_cons.1 hv
    exact .framed (ih hv) hallows hok (hx'.trans hx) hrun

theorem congr (h : Inside R ok allows g level vars s₀ os s) (hv : vars'.markers = vars.markers) :
    Inside R ok allows g level vars' s₀ os s :=
  h.rebind fun o _ => by rw [Vars.marker?, Vars.marker?, hv]

theorem marker?_setMarker (vars : Vars) (x y : String) (m : Marker) :
    (vars.setMarker x m).marker? y = if y = x then some m else vars.marker? y := by
  unfold Vars.setMarker Vars.marker?
  rw [List.lookup_cons]
  by_cases h : y = x
  · simp [h]
  · have hne : (y == x) = false := beq_eq_false_iff_ne.2 h
    simp [h, hne]

theorem setMarker (h : Inside R ok allows g level vars s₀ os s) {x : String}
    (hx : ∀ o ∈ os, o.marker ≠ x) (m : Marker) :
    Inside R ok allows g level (vars.setMarker x m) s₀ os s :=
  h.rebind fun o ho => by rw [marker?_setMarker, if_neg (hx o ho)]

theorem pushSection_eq_some {o : OpenSection} (h : pushSection o os = some os') :
    os' = o :: os ∧ ∀ o' ∈ os, o'.marker ≠ o.marker := by
  unfold pushSection at h
  split at h
  · next hall => exact ⟨(Option.some.inj h).symm, by simpa using hall⟩
  · cases h

theorem popSection_eq_some {o : OpenSection} (h : popSection o os = some os') : os = o :: os' := by
  cases os with
  | nil => cases h
  | cons o' os =>
    simp only [popSection] at h
    split at h
    · next ho => rw [ho, Option.some.inj h]
    · cases h

/-- A step goes on from where it is, or opens a section there. -/
theorem prim (laws : RunLaws R ok asks allows g fuel) {p : Primitive}
    (h : Inside R ok allows g level vars s₀ os s) (hok : p.enters = true → ok s)
    (hp : p.after allows os = some os') :
    Inside R ok allows g level (p.run g level vars s).vars s₀ os'
      (p.run g level vars s).session := by
  have hbind (x : String) (m : Marker) : (vars.setMarker x m).marker? x = some m := by
    rw [marker?_setMarker, if_pos rfl]
  have htest (ht : p.isTest = true) (hos : os = os') :
      Inside R ok allows g level (p.run g level vars s).vars s₀ os'
        (p.run g level vars s).session :=
    hos ▸ (h.run laws (laws.test ht hok)).congr (p.markers_of_isTest ht g level vars s)
  cases p with
  | enter x modifiers kind name deeper =>
    simp only [Primitive.after] at hp
    split at hp
    · next hallows =>
      obtain ⟨rfl, hx⟩ := pushSection_eq_some hp
      exact .framed (h.setMarker hx _) hallows (hok rfl) (hbind x _) (laws.refl _)
    · cases hp
  | enterSimple x =>
    obtain ⟨rfl, hx⟩ := pushSection_eq_some hp
    exact .simple (h.setMarker hx _) (hok rfl) (hbind x _) (laws.refl _)
  | openMarker | wrap | lastCommitted | commit | rollback | drop | foreign => cases hp
  | _ => exact htest rfl (Option.some.inj hp)

/-- The marker of an open section is at hand. -/
theorem exists_marker {o : OpenSection} (h : Inside R ok allows g level vars s₀ (o :: os) s) :
    ∃ m, vars.marker? o.marker = some m := by
  cases h with
  | simple _ _ hx _ => exact ⟨_, hx⟩
  | framed _ _ _ hx _ => exact ⟨_, hx⟩

theorem leaveSimple (laws : RunLaws R ok asks allows g fuel) {x : String} {m : Marker}
    {kind : Option Kind} {result : Bool}
    (h : Inside R ok allows g level vars s₀ (⟨x, Option.none⟩ :: os) s)
    (hm : vars.marker? x = some m)
    (hleave : s.leaveSimple g (runHook (eval g fuel)) fuel m kind result = some s') :
    Inside R ok allows g level vars s₀ os s' := by
  cases h with
  | simple h hok hx hrun =>
    obtain rfl := Option.some.inj (hm.symm.trans hx)
    exact h.run laws (laws.simple hok hrun hleave)

theorem leave (laws : RunLaws R ok asks allows g fuel) {deeper : Nat} {x : String} {m : Marker}
    {kind : Option Kind} {result pinned : Bool} {eatMore : Option RuleRef}
    (h : Inside R ok allows g level vars s₀ (⟨x, some deeper⟩ :: os) s)
    (hasks : ∀ rule, eatMore = some rule → asks rule) (hm : vars.marker? x = some m)
    (hleave : s.leave g (runRef g (eval g fuel)) (runHook (eval g fuel)) fuel (level + deeper) m
      kind result pinned eatMore = some s') :
    Inside R ok allows g level vars s₀ os s' := by
  cases h with
  | framed h hallows hok hx hbody =>
    obtain rfl := Option.some.inj (hm.symm.trans hx)
    exact h.run laws (laws.framed hallows hok hasks hbody hleave)

/-- An expression finishes by closing sections. -/
theorem finish (laws : RunLaws R ok asks allows g fuel) {e : Expr} {x y b : Bool}
    (h : Inside R ok allows g level vars s₀ os s) (hasked : ∀ r ∈ e.asked, asks r)
    (hclosed : e.closed os = some os')
    (hfinish : Grammar.finish g fuel level e x (y, vars, s) = some (b, vars', s')) :
    Inside R ok allows g level vars' s₀ os' s' := by
  have hrecord (t : Session) (step : Step) (value : Value) : R t (t.recordCall step value) :=
    laws.record step value t
  cases e with
  | set name a =>
    cases hclosed
    cases hfinish
    exact h.congr rfl
  | leave m kind result pinned eatMore deeper =>
    obtain rfl := popSection_eq_some hclosed
    obtain ⟨marker, hm⟩ := h.exists_marker
    simp only [Grammar.finish, hm] at hfinish
    obtain ⟨t, hleave, hfinish⟩ := Option.bind_eq_some_iff.1 hfinish
    cases hfinish
    have heatMore (rule : RuleRef) (hrule : eatMore = some rule) : asks rule :=
      hasked rule (by simp [Expr.asked, hrule])
    exact (h.leave laws heatMore hm hleave).run laws (hrecord ..)
  | leaveSimple m kind result =>
    obtain rfl := popSection_eq_some hclosed
    obtain ⟨marker, hm⟩ := h.exists_marker
    simp only [Grammar.finish, hm] at hfinish
    obtain ⟨t, hleave, hfinish⟩ := Option.bind_eq_some_iff.1 hfinish
    cases hfinish
    exact (h.leaveSimple laws hm hleave).run laws (hrecord ..)
  | reporting a =>
    have hreport : R s (if y then s else s.reportHere g) := by
      split
      · exact laws.refl s
      · exact laws.report s
    cases hclosed
    cases hfinish
    exact (h.run laws hreport).run laws (hrecord ..)
  | _ =>
    cases hclosed
    cases hfinish
    exact h

end Inside

namespace Grammar

variable {level : Nat} {vars vars' : Vars} {s₀ s s' : Session} {os os' : List OpenSection}
  {e : Expr} {b : Bool}

theorem after_body (hg : g.grammar.Balanced allows) (name : String) :
    (g.grammar.body name).after allows [] = some [] :=
  body_of_rules (P := fun e => e.after allows [] = some []) rfl hg name

/-- No rules of the grammar ask others than those. -/
def AsksOnly (asks : RuleRef → Prop) (grammar : Grammar) : Prop :=
  ∀ rule ∈ grammar, ∀ r ∈ rule.2.asked, asks r

theorem asked_body (hasks : g.grammar.AsksOnly asks) (name : String) :
    ∀ r ∈ (g.grammar.body name).asked, asks r :=
  body_of_rules (P := fun e => ∀ r ∈ e.asked, asks r) nofun hasks name

theorem after_of_filter {o : Option (List OpenSection)} {e : Expr}
    (h : (o.filter fun os => e.after allows os = some os) = some os') :
    o = some os' ∧ e.after allows os' = some os' := by
  obtain ⟨ho, he⟩ := Option.filter_eq_some_iff.1 h
  exact ⟨ho, of_decide_eq_true he⟩

theorem after_of_ite {e : Expr}
    (h : (if e.after allows os = some os then some os else none) = some os') :
    os = os' ∧ e.after allows os = some os := by
  split at h
  · next he => exact ⟨Option.some.inj h, he⟩
  · cases h

/-- The parts of an expression that opens and closes sections in the order of brackets do so too, one
after the other. -/
theorem after_parts {a : Expr} (ha : e.first? = some a) (h : e.after allows os = some os') :
    ∃ os₁ os₂, a.after allows os = some os₁ ∧
      (∀ x c, e.next? x = some c → c.after allows os₁ = some os₂) ∧
      (∀ x, e.next? x = none → os₁ = os₂) ∧ e.closed os₂ = some os' := by
  cases e with
  | const | flag | call | has | prim | guarded | groupRun | hook => cases ha
  | seq a c =>
    cases ha
    obtain ⟨os₁, hos₁, hc⟩ := Option.bind_eq_some_iff.1 h
    refine ⟨os₁, os', hos₁, fun x d hd => ?_, nofun, rfl⟩
    cases hd
    exact hc
  | and a c | or a c =>
    cases ha
    obtain ⟨hos₁, hc⟩ := after_of_filter h
    refine ⟨os', os', hos₁, fun x d hd => ?_, fun _ _ => rfl, rfl⟩
    cases x <;> cases hd
    exact hc
  | not a | set name a | reporting a =>
    cases ha
    exact ⟨os', os', h, nofun, fun _ _ => rfl, rfl⟩
  | ite c t f =>
    cases ha
    obtain ⟨os₁, hos₁, hos'⟩ := Option.bind_eq_some_iff.1 h
    refine ⟨os₁, os', hos₁, fun x d hd => ?_, nofun, rfl⟩
    obtain rfl := Option.some.inj hd
    split at hos'
    · next heq =>
      cases x with
      | true => exact hos'
      | false => exact heq.trans hos'
    · cases hos'
  | loop a =>
    cases ha
    obtain ⟨rfl, hos₁⟩ := after_of_ite h
    refine ⟨os, os, hos₁, fun x d hd => ?_, fun _ _ => rfl, rfl⟩
    cases x <;> cases hd
    exact h
  | leave m kind result pinned eatMore deeper =>
    cases ha
    obtain ⟨os₂, hos₂, hpop⟩ := Option.bind_eq_some_iff.1 h
    obtain ⟨os₁, hos₁, hpinned⟩ := Option.bind_eq_some_iff.1 hos₂
    refine ⟨os₁, os₂, hos₁, fun x d hd => ?_, nofun, hpop⟩
    cases hd
    exact hpinned
  | leaveSimple m kind result =>
    cases ha
    obtain ⟨os₁, hos₁, hpop⟩ := Option.bind_eq_some_iff.1 h
    exact ⟨os₁, os₁, hos₁, nofun, fun _ _ => rfl, hpop⟩

/-- What evaluation is to be shown to keep, for all expressions with some fuel. -/
def KeepsInside (R : Session → Session → Prop) (ok : Session → Prop) (asks : RuleRef → Prop)
    (allows : Modifiers → Bool) (g : Setup) (fuel : Nat) : Prop :=
  ∀ {level vars e s b vars' s' s₀ os os'}, eval g fuel level vars e s = some (b, vars', s') →
    e.after allows os = some os' → (∀ r ∈ e.asked, asks r) →
    (∀ t ∈ entered g fuel level vars e s, ok t) → Inside R ok allows g level vars s₀ os s →
    Inside R ok allows g level vars' s₀ os' s'

/-- The states before and after the run of a rule are related. -/
theorem related_runRef (hg : g.grammar.Balanced allows) (hasks : g.grammar.AsksOnly asks)
    (hrefl : ∀ s, R s s) (hstep : ∀ s, R s (s.stepOver g).2) (ih : KeepsInside R ok asks allows g fuel)
    {rule : RuleRef} (hok : ∀ name, rule = .named name →
      ∀ t ∈ entered g fuel level {} (g.grammar.body name) s, ok t)
    (h : runRef g (eval g fuel) rule level s = some (b, s')) : R s s' := by
  cases rule with
  | always =>
    cases h
    exact hrefl s
  | advance =>
    have heq : (s.stepOver g).2 = s' := congrArg Prod.snd (Option.some.inj h)
    exact heq ▸ hstep s
  | named name =>
    simp only [runRef, Option.bind_eq_bind, Option.bind_eq_some_iff, Option.some.injEq,
      Prod.mk.injEq] at h
    obtain ⟨⟨b, vars, t⟩, heval, -, rfl⟩ := h
    cases ih heval (after_body hg name) (asked_body hasks name) (hok name rfl)
      (.none (hrefl s)) with
    | none hrun => exact hrun

/-- Evaluation opens and closes the sections that the expression says, and relates the states. -/
theorem keepsInside_of_laws (hg : g.grammar.Balanced allows) (hasks : g.grammar.AsksOnly asks) (fuel : Nat)
    (laws : ∀ n < fuel, RunLaws R ok asks allows g n) : KeepsInside R ok asks allows g fuel := by
  induction fuel with
  | zero =>
    intro _ _ _ _ _ _ _ _ _ _ h
    cases h
  | succ fuel ih =>
    have ih := @ih fun n hn => laws n (Nat.lt_succ_of_lt hn)
    have laws := laws fuel (Nat.lt_succ_self fuel)
    intro level vars e s b vars' s' s₀ os os' h hafter hasked hok hin
    have hrecord (t : Session) (step : Step) (value : Value) : R t (t.recordCall step value) :=
      laws.record step value t
    cases hfirst : e.first? with
    | some a =>
      obtain ⟨⟨x, vars₁, s₁⟩, ⟨y, vars₂, s₂⟩, ha, hc, h⟩ := exists_finish hfirst h
      obtain ⟨os₁, os₂, hos₁, hnext, hlast, hclosed⟩ := after_parts hfirst hafter
      have hpart {c : Expr} (hc : c ∈ e.parts) : ∀ r ∈ c.asked, asks r :=
        fun r hr => hasked r (Expr.asked_of_mem_parts hc hr)
      have hin₁ := ih ha hos₁ (hpart (e.mem_parts_of_first? hfirst))
        (fun t ht => hok t (mem_entered_first hfirst ht)) hin
      have hin₂ : Inside R ok allows g level vars₂ s₀ os₂ s₂ := by
        cases hx : e.next? x with
        | some c =>
          rw [hx] at hc
          exact ih hc (hnext x c hx) (hpart (e.mem_parts_of_next? hx))
            (fun t ht => hok t (mem_entered_next hfirst ha hx ht)) hin₁
        | none =>
          rw [hx] at hc
          cases hc
          exact hlast x hx ▸ hin₁
      exact hin₂.finish laws hasked hclosed h
    | none =>
      cases e with
      | const | flag | has =>
        cases h
        cases hafter
        exact hin
      | hook => cases hafter
      | call rule =>
        obtain ⟨⟨x, s₁⟩, hr, h⟩ := Option.bind_eq_some_iff.1 h
        cases h
        cases hafter
        refine hin.run laws (related_runRef hg hasks laws.refl laws.stepOver ih ?_ hr)
        rintro name rfl t ht
        exact hok t (mem_entered_call ht)
      | prim p =>
        cases h
        exact (hin.prim laws (fun hp => hok s (mem_entered_prim hp)) hafter).run laws (hrecord ..)
      | guarded rule a =>
        obtain ⟨rfl, hos⟩ := after_of_ite hafter
        have hguard : R s (s.guardLevel g level rule).2 := laws.guardLevel level rule s
        simp only [eval] at h
        split at h
        · next t ht =>
          rw [ht] at hguard
          cases h
          exact (hin.run laws hguard).run laws (hrecord ..)
        · next t ht =>
          rw [ht] at hguard
          obtain ⟨⟨x, vars₁, s₁⟩, ha, h⟩ := Option.bind_eq_some_iff.1 h
          cases h
          have hin₁ := ih ha hos hasked (fun u hu => hok u (mem_entered_guarded ht hu))
            (hin.run laws hguard)
          exact hin₁.run laws (hrecord ..)
      | groupRun chunk minds item eatMore =>
        obtain ⟨⟨x, s₁⟩, hgroup, h⟩ := Option.bind_eq_some_iff.1 h
        cases h
        cases hafter
        have hrun := laws.group (hasked item (by simp [Expr.asked]))
          (hasked eatMore (by simp [Expr.asked])) hgroup
        exact (hin.run laws hrun).run laws (hrecord ..)
      | _ => cases hfirst

end Grammar

end Descent
