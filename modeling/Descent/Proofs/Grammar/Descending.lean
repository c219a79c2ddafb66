import Descent.Proofs.Grammar.LeadsTo
import Descent.Proofs.Session.LeavingEnds
import Descent.Proofs.Session.RootSection

/-!
# Descending grammars

A grammar descends if each of its rules is guarded, repeats nothing by itself, works on no markers but
those of its sections, and runs other rules at higher levels only (`Setup.Descends`). Its rules may call
each other, and themselves, as they like. A guarded rule is not run above the recursion ceiling, and
below it a rule ends if all rules do that are run at higher levels (`Grammar.arrives_eval`). So every rule
ends, and so does every parse (`Session.arrives_parse`), with as much fuel as there are tokens and as
the deepest rule needs at each level up to the ceiling.
-/

namespace Descent

open Session (GoesOn Smooth)
open Grammar (eval runRef runHook)

/-! ## Grammars -/

/-- Whether a step works on markers but for those of the sections that it enters. -/
def Primitive.handlesMarkers : Primitive → Bool
  | enter .. | enterSimple .. => false
  | p => !p.isTest

def RuleRef.isNamed : RuleRef → Bool
  | named _ => true
  | advance | always => false

namespace Expr

def isGuarded : Expr → Bool
  | guarded .. => true
  | _ => false

/-- Whether an expression repeats nothing, works on no markers by itself, leaves no hooks, and runs rules at
higher levels only. A grouped run asks for items further in, but it steps over delimiters at its own
level. -/
def descends (g : Setup) : Expr → Bool
  | const _ | flag _ | call _ | has _ => true
  | prim p => !p.handlesMarkers
  | seq a b | and a b | or a b | leave _ _ a b _ _ => a.descends g && b.descends g
  | ite c t f => c.descends g && (t.descends g && f.descends g)
  | not a | set _ a | guarded _ a | reporting a | leaveSimple _ _ a => a.descends g
  | groupRun _ minds _ _ => !minds || g.language.delimiters.isEmpty || !g.advancer.isNamed
  | loop _ | hook _ => false

/-- How deep an expression is. -/
def depth : Expr → Nat
  | const _ | flag _ | call _ | has _ | prim _ | groupRun .. | hook _ => 1
  | seq a b | and a b | or a b | leave _ _ a b _ _ => max a.depth b.depth + 1
  | ite c t f => max c.depth (max t.depth f.depth) + 1
  | not a | set _ a | loop a | guarded _ a | reporting a | leaveSimple _ _ a => a.depth + 1

end Expr

/-- The depth of the deepest rule. -/
def Grammar.depth (grammar : Grammar) : Nat := (grammar.map (·.2.depth)).max?.getD 0

/-- Every rule is guarded and runs rules at higher levels only. -/
def Setup.Descends (g : Setup) : Prop :=
  ∀ rule ∈ g.grammar, rule.2.isGuarded = true ∧ rule.2.descends g = true

instance (g : Setup) : Decidable g.Descends :=
  inferInstanceAs (Decidable (∀ rule ∈ g.grammar, _))

variable {g : Setup} {s s₀ s' : Session} {p : Primitive} {vars : Vars} {level : Nat}

/-! ## Steps -/

namespace Primitive

theorem goesOn_of_isTest (hp : p.isTest = true) (level : Nat) (vars : Vars) (s : Session) :
    s.GoesOn g (p.run g level vars s).session := by
  have hkinds (silent : Bool) (pin : Pin) (kinds : List Kind) (t : Session) :
      t.GoesOn g (t.consumeKinds g silent pin kinds).2 := by
    have hpast : Session.Past t.position t.hooks (t.consumeKinds g silent pin kinds).2 :=
      Session.related_consumeKinds (R := fun u u' => Session.Past u.position u.hooks u') silent
        (fun _ _ h => ⟨h.position, h.hooks⟩)
        (fun _ _ _ h h' => ⟨Nat.le_trans h.position h'.position, h'.hooks.trans h.hooks⟩)
        (fun u => ⟨(Smooth.reportHere g u).position, (Smooth.reportHere g u).hooks⟩) pin kinds t
    exact ⟨.consumeKinds silent pin kinds t, hpast.position, hpast.hooks⟩
  have htry (silent : Bool) (pin : Pin) (kinds : List Kind) :
      s.GoesOn g (s.tryKinds g silent pin kinds).2 := by
    have hopen : s.GoesOn g (s.openMarker g).2 := (Smooth.openMarker g s).goesOn (.openMarker s)
    have hin := hkinds silent pin kinds (s.openMarker g).2
    have hm := hin.acts.leadsTo.openedFrom
      (Session.openedFrom_openMarker (g := g) (Nat.le_refl s.position))
    rw [Session.session_tryKinds]
    dsimp only
    split
    · exact (hopen.trans hin).trans ((Smooth.drop ..).goesOn (.drop ..))
    · exact (hopen.trans hin).rollback hm
  cases hsingle : p.isSingle with
  | true => exact .calm (calm_of_isSingle hsingle g level vars s) (p.acts_run level vars s)
  | false =>
    cases p with
    | sequence pin kinds => exact hkinds false pin kinds s
    | trySequence pin kinds => exact htry false pin kinds
    | trySequenceSilent pin kinds => exact htry true pin kinds
    | _ => simp_all [isSingle, isTest]

end Primitive

/-! ## Sections -/

theorem Session.goesOn_entering (g : Setup) (s : Session) : s.GoesOn g (s.entering g) :=
  (Smooth.entering g s).goesOn (.trans (.reportAgain g s) (.still (.level _ _)))

/-- A section is entered where its marker is opened. -/
theorem Session.goesOn_enter (g : Setup) (level : Nat) (modifiers : Modifiers) (kind : Option Kind)
    (name : Option String) (s : Session) :
    s.GoesOn g (s.enter g level modifiers kind name).2 ∧
      (s.enter g level modifiers kind name).2.log.OpenedFrom s.position
        (s.enter g level modifiers kind name).1 := by
  have hsteady := steady_enter g level modifiers kind name s
  have hentering := goesOn_entering g s
  have hopen := (Smooth.openMarker g (s.entering g)).position
  refine ⟨⟨.enter g level modifiers kind name s, ?_, hsteady.hooks.trans hentering.hooks⟩, ?_⟩
  · exact Nat.le_trans hentering.position (Nat.le_trans hopen hsteady.position)
  · rw [log_enter]
    exact openedFrom_openMarker hentering.position

/-- The session has gone on since `s₀`, and no marker that is bound was opened before. -/
structure Grammar.Since (g : Setup) (s₀ : Session) (vars : Vars) (s : Session) : Prop where
  goesOn : s₀.GoesOn g s
  markers : ∀ name m, vars.marker? name = some m → s.log.OpenedFrom s₀.position m

namespace Grammar.Since

theorem rebind (h : Since g s₀ vars s) {vars' : Vars} (hmarkers : vars'.markers = vars.markers) :
    Since g s₀ vars' s :=
  ⟨h.goesOn, fun name m hm => h.markers name m (by rwa [Vars.marker?, hmarkers] at hm)⟩

theorem leadsTo (h : Since g s₀ vars s) (hgoesOn : s₀.GoesOn g s') (hlead : s.LeadsTo s') :
    Since g s₀ vars s' :=
  ⟨hgoesOn, fun name m hm => hlead.openedFrom (h.markers name m hm)⟩

theorem step (h : Since g s₀ vars s) (hstep : s.GoesOn g s') : Since g s₀ vars s' :=
  h.leadsTo (h.goesOn.trans hstep) hstep.acts.leadsTo

theorem recordCall (h : Since g s₀ vars s) (step : Step) (value : Value) :
    Since g s₀ vars (s.recordCall step value) :=
  h.step (.calm (.recordCall s step value) (.still (.recordCall s step value)))

theorem bind (h : Since g s₀ vars s) {m : Marker} (hstep : s.GoesOn g s')
    (hm : s'.log.OpenedFrom s.position m) (name : String) :
    Since g s₀ (vars.setMarker name m) s' := by
  refine ⟨h.goesOn.trans hstep, fun name' m' hm' => ?_⟩
  rw [Inside.marker?_setMarker] at hm'
  split at hm'
  · obtain rfl := Option.some.inj hm'
    obtain ⟨info, hi, hle⟩ := hm
    exact ⟨info, hi, Nat.le_trans h.goesOn.position hle⟩
  · exact hstep.acts.leadsTo.openedFrom (h.markers name' m' hm')

/-- A step of an expression binds no marker but those of the sections that it enters. -/
theorem run (h : Since g s₀ vars s) (hp : p.handlesMarkers = false) (level : Nat) :
    Since g s₀ (p.run g level vars s).vars (p.run g level vars s).session := by
  cases htest : p.isTest with
  | true =>
    exact (h.step (Primitive.goesOn_of_isTest htest level vars s)).rebind
      (Primitive.markers_of_isTest htest g level vars s)
  | false =>
    cases p with
    | enter m modifiers kind name deeper =>
      obtain ⟨henter, hm⟩ := Session.goesOn_enter g (level + deeper) modifiers kind name s
      exact h.bind henter hm m
    | enterSimple m =>
      have hentering := Session.goesOn_entering g s
      have hopen : (s.entering g).GoesOn g ((s.entering g).openMarker g).2 :=
        (Smooth.openMarker g _).goesOn (.openMarker _)
      exact h.bind (hentering.trans hopen) (Session.openedFrom_openMarker hentering.position) m
    | _ => simp_all [Primitive.handlesMarkers]

end Grammar.Since

/-! ## Evaluation -/

theorem Expr.depth_pos (e : Expr) : 0 < e.depth := by cases e <;> simp [depth]

theorem Expr.descends_of_mem_parts {e a : Expr} (ha : a ∈ e.parts) (he : e.descends g = true) :
    a.descends g = true ∧ a.depth < e.depth := by
  cases e <;> grind [parts, descends, depth]

namespace Grammar

/-- The rules that every grammar has end at once. -/
theorem goesOn_runRef_of_not_isNamed {rule : RuleRef} (h : rule.isNamed = false)
    (eval : Nat → Vars → Expr → Session → Option (Bool × Vars × Session)) (level : Nat) :
    (runRef g eval).GoesOn g rule level := by
  intro s _ _
  cases rule with
  | named name => cases h
  | advance => exact .some ((Smooth.stepOver g s).goesOn (.still (.stepOver s)))
  | always => exact .some (.refl s)

section
variable {bound : Nat} (hs₀ : s₀.InBounds g) (hhooks : s₀.hooks = [])
  (hbound : g.source.size < bound)
  (hrun : ∀ fuel, bound ≤ fuel → ∀ rule level', level < level' →
    (runRef g (eval g fuel)).GoesOn g rule level')
include hs₀ hhooks hbound hrun

/-- An expression of which all parts end finishes. -/
theorem arrives_finish {e : Expr} {fuel : Nat} (henough : bound ≤ fuel) {x : Bool}
    {y : Bool × Vars × Session} (h : Since g s₀ y.2.1 y.2.2) :
    Arrives (fun z => Since g s₀ z.2.1 z.2.2) (finish g fuel level e x y) := by
  have hcalled := hrun fuel henough
  have hrounds : g.source.size < fuel := Nat.lt_of_lt_of_le hbound henough
  have hacts : (runRef g (eval g fuel)).Acts g false := (calls_runRef (calls_eval fuel)).acts
  cases e with
  | set => exact .some (h.rebind rfl)
  | leave m kind result pinned eatMore deeper =>
    dsimp only [finish]
    cases hm : y.2.1.marker? m with
    | none => exact .some (h.recordCall ..)
    | some marker =>
      have hleave := Session.arrives_leave hhooks hs₀ hacts
        (fun rule level' hlt => hcalled rule level' (Nat.lt_of_le_of_lt
          (Nat.le_add_right level deeper) hlt)) hrounds h.goesOn (h.markers _ _ hm)
        (runHook (eval g fuel)) kind x y.1 eatMore
      refine hleave.bind fun t ht hgoesOn => .some ?_
      exact (h.leadsTo hgoesOn (.leave (leads_runHook g fuel) (leads_runRef g fuel) ht)).recordCall ..
  | leaveSimple m kind result =>
    dsimp only [finish]
    cases hm : y.2.1.marker? m with
    | none => exact .some (h.recordCall ..)
    | some marker =>
      have hleave := Session.arrives_leaveSimple hhooks h.goesOn (h.markers _ _ hm)
        (runHook (eval g fuel)) fuel kind y.1
      refine hleave.bind fun t ht hgoesOn => .some ?_
      exact (h.leadsTo hgoesOn (.leaveSimple (leads_runHook g fuel) ht)).recordCall ..
  | reporting a =>
    refine .some (Since.recordCall ?_ ..)
    split
    · exact h
    · exact h.step ((Smooth.reportHere g _).goesOn (.reportHere g _))
  | _ => exact .some h

/-- An expression ends if the rules do that are run at higher levels. -/
theorem arrives_eval {e : Expr} (he : e.descends g = true) {fuel : Nat}
    (hfuel : bound + e.depth ≤ fuel) {vars : Vars} {s : Session} (h : Since g s₀ vars s) :
    Arrives (fun x => Since g s₀ x.2.1 x.2.2) (eval g fuel level vars e s) := by
  induction fuel generalizing e vars s with
  | zero => exact absurd e.depth_pos (by omega)
  | succ fuel ih =>
    have henough : bound ≤ fuel := by have := e.depth_pos; omega
    have hcalled := hrun fuel henough
    have hrounds : g.source.size < fuel := Nat.lt_of_lt_of_le hbound henough
    cases hfirst : e.first? with
    | some a =>
      have hpart {c : Expr} (hc : c ∈ e.parts) {vars : Vars} {s : Session} (h : Since g s₀ vars s) :
          Arrives (fun x => Since g s₀ x.2.1 x.2.2) (eval g fuel level vars c s) := by
        obtain ⟨hdescends, hdepth⟩ := Expr.descends_of_mem_parts hc he
        exact ih hdescends (by omega) h
      rw [eval_of_first? hfirst]
      refine (hpart (e.mem_parts_of_first? hfirst) h).bind fun x _ hx => ?_
      have hnext : Arrives (fun y => Since g s₀ y.2.1 y.2.2) (evalNext g fuel level (e.next? x.1) x) := by
        cases hc : e.next? x.1 with
        | some c => exact hpart (e.mem_parts_of_next? hc) hx
        | none => exact .some hx
      exact hnext.bind fun y _ hy => arrives_finish hs₀ hhooks hbound hrun henough hy
    | none =>
      cases e with
      | const | flag | has => exact .some h
      | hook => cases he
      | call rule =>
        have hanswer := hcalled rule (level + 1) (Nat.lt_succ_self level) s
          (h.goesOn.acts.inBounds hs₀) (h.goesOn.hooks.trans hhooks)
        exact hanswer.bind fun x _ hx => .some (h.step hx)
      | prim p =>
        have hp : p.handlesMarkers = false := by simpa [Expr.descends] using he
        exact .some ((h.run hp level).recordCall ..)
      | guarded rule a =>
        have hguard : s.GoesOn g (s.guardLevel g level rule).2 :=
          .calm (.guardLevel g s level rule) (.guardLevel level rule s)
        simp only [Expr.depth] at hfuel
        simp only [eval]
        split
        · next ht =>
          rw [ht] at hguard
          exact .some ((h.step hguard).recordCall ..)
        · next ht =>
          rw [ht] at hguard
          exact (ih (e := a) he (by omega) (h.step hguard)).bind fun x _ hx => .some (hx.recordCall ..)
      | groupRun chunk minds item eatMore =>
        have hlevel := Nat.lt_succ_self level
        have hgroup := Session.arrives_groupRun (.since hs₀) minds
          ((hcalled item _ hlevel).proceedsIn hs₀ hhooks)
          ((hcalled eatMore _ hlevel).proceedsIn hs₀ hhooks) (fun hminds hdelimiters => ?_) hrounds
          chunk h.goesOn
        · refine hgroup.bind fun x hx hgoesOn => .some ?_
          exact (h.leadsTo hgoesOn (.groupRun (leads_runRef g fuel) hx)).recordCall ..
        · refine (goesOn_runRef_of_not_isNamed ?_ _ level).proceedsIn hs₀ hhooks
          simpa [Expr.descends, hminds, hdelimiters] using he
      | _ => cases hfirst

end

/-- All rules end if the expressions of the grammar do. -/
theorem goesOn_runRef_of_rules {fuel : Nat} (hfuel : 0 < fuel)
    (h : ∀ rule ∈ g.grammar, rule.2.depth ≤ g.grammar.depth → ∀ s : Session, s.InBounds g →
      s.hooks = [] → Arrives (fun x => s.GoesOn g x.2.2) (eval g fuel level {} rule.2 s))
    (rule : RuleRef) : (runRef g (eval g fuel)).GoesOn g rule level := by
  intro s hs hhooks
  cases rule with
  | advance | always => exact goesOn_runRef_of_not_isNamed rfl _ level s hs hhooks
  | named name =>
    have heval : Arrives (fun x => s.GoesOn g x.2.2)
        (eval g fuel level {} (g.grammar.body name) s) := by
      refine body_of_rules (P := fun e => Arrives (fun x => s.GoesOn g x.2.2)
        (eval g fuel level {} e s)) ?_ (fun rule hrule => ?_) name
      · obtain ⟨fuel, rfl⟩ := Nat.exists_eq_add_one.2 hfuel
        exact .some (.refl s)
      · have hdepth : rule.2.depth ∈ g.grammar.map (·.2.depth) := List.mem_map_of_mem hrule
        exact h rule hrule (List.le_max?_getD_of_mem hdepth) s hs hhooks
    exact heval.bind fun x _ hx => .some hx

/-- A guarded expression fails above the recursion ceiling, and its body is not run. -/
theorem arrives_guarded {e : Expr} (he : e.isGuarded = true)
    (hlevel : g.limits.recursionCeiling < level) (fuel : Nat) (vars : Vars) (s : Session) :
    Arrives (fun x => s.GoesOn g x.2.2) (eval g (fuel + 1) level vars e s) := by
  cases e with
  | guarded rule a =>
    have hguard : s.GoesOn g (s.guardLevel g level rule).2 :=
      .calm (.guardLevel g s level rule) (.guardLevel level rule s)
    have hfails : (s.guardLevel g level rule).1 = false := by
      unfold Session.guardLevel
      rw [if_pos hlevel]
      split <;> rfl
    simp only [eval]
    generalize s.guardLevel g level rule = x at hguard hfails
    obtain ⟨_, t⟩ := x
    cases hfails
    exact .some (hguard.trans (.calm (.recordCall ..) (.still (.recordCall ..))))
  | _ => cases he

/-- With fuel for as many levels as there are up to the ceiling, all rules end. -/
theorem goesOn_runRef (hg : g.Descends) {n : Nat} (hlevel : g.limits.recursionCeiling < level + n)
    {fuel : Nat} (hfuel : g.source.size + n * g.grammar.depth < fuel) (rule : RuleRef) :
    (runRef g (eval g fuel)).GoesOn g rule level := by
  -- the induction is on the number of levels up to the ceiling
  induction n generalizing fuel level rule with
  | zero =>
    refine goesOn_runRef_of_rules (by omega) (fun rule hrule _ s _ _ => ?_) rule
    obtain ⟨fuel, rfl⟩ := Nat.exists_eq_succ_of_ne_zero (Nat.ne_zero_of_lt hfuel)
    exact arrives_guarded (hg rule hrule).1 hlevel fuel {} s
  | succ n ih =>
    refine goesOn_runRef_of_rules (by omega) (fun rule hrule hdepth s hs hhooks => ?_) rule
    have hbound : g.source.size < g.source.size + n * g.grammar.depth + 1 := by omega
    have hstart : Since g s {} s := ⟨.refl s, fun _ _ h => nomatch h⟩
    rw [Nat.add_one_mul] at hfuel
    have hends : Arrives (fun x => Since g s x.2.1 x.2.2) (eval g fuel level {} rule.2 s) :=
      arrives_eval hs hhooks hbound (fun fuel' hfuel' rule' level' hlt => ih (by omega) hfuel' rule')
        (hg rule hrule).2 (by omega) hstart
    exact hends.mono fun x hx => hx.goesOn

end Grammar

/-- Every parse of a descending grammar ends. -/
theorem Session.arrives_parse (hg : g.Descends) {fuel : Nat}
    (hfuel : g.source.size + g.limits.recursionCeiling * g.grammar.depth < fuel)
    (limits : Limits) (caret : Option Nat) (root : Kind) (rule : RuleRef) :
    ∃ o, (start limits caret).parse g fuel root rule = some o := by
  let first := (start limits caret).note (.parseStarted g.source.size)
  have hfirst : first.InBounds g :=
    (Acts.still (.note _ rfl) : (start limits caret).Acts g false first).inBounds
      (inBounds_start g limits caret)
  obtain ⟨henter, hm⟩ := goesOn_enter g 0 { collapse := true } none none first
  have hrules (rule : RuleRef) (level : Nat) (hlevel : 0 < level) :
      (runRef g (eval g fuel)).GoesOn g rule level :=
    Grammar.goesOn_runRef hg (by omega) hfuel rule
  have hbody := hrules rule 1 Nat.one_pos _ (henter.acts.inBounds hfirst) henter.hooks
  have hends : Arrives (fun _ => True) ((start limits caret).parse g fuel root rule) := by
    rw [parse_eq]
    refine hbody.bind fun x _ hx => ?_
    have hrounds : g.source.size < fuel := by omega
    have hleave := arrives_leave rfl hfirst (Grammar.calls_runRef (Grammar.calls_eval fuel)).acts hrules
      hrounds (henter.trans hx) (hx.acts.leadsTo.openedFrom hm) (runHook (eval g fuel)) (some root) x.1
      true (some .always)
    exact hleave.bind fun s _ _ => .some trivial
  obtain ⟨o, ho, -⟩ := hends
  exact ⟨o, ho⟩

end Descent
