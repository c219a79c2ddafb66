import Descent.Proofs.Grammar.Balanced
import Descent.Proofs.Session.Amid
import Descent.Proofs.Session.RootSection

/-!
# The states of a parse

An expression comes to a state when it begins or ends there, or when an expression does that is run
inside it, be it a part of it or the rule that is called, asked for items, or asked what to skip
(`Grammar.Visits`). The states of a parse are those that its root rule comes to, those of the rules
that the root section asks when it is left, and the last one (`Session.Visited`).

What the sections of a balanced grammar keep up, and the rules that are asked meanwhile, holds in all of
these states (`VisitLaws.visited`). So they are amid work that began with the parse
(`Session.Visited.amid`). Without delimiters, and without sections that take up the node before them, the
log of a parse is laminar all the time and its positions ascend up to the current one
(`Session.laminar_of_visited`).
-/

namespace Descent

/-- What is done with a runner depends on how it answers for the rule at the level in the state. -/
def Asks {α : Type} (f : Runner → α) (run : Runner) (rule : RuleRef) (level : Nat) (s : Session) :
    Prop :=
  ∃ run' : Runner, (∀ rule' level' s', (rule', level', s') ≠ (rule, level, s) →
    run' rule' level' s' = run rule' level' s') ∧ f run' ≠ f run

namespace Grammar

/-- `Visits g fuel level vars e s t`: while `e` is evaluated in `s`, an expression is evaluated in `t`
or has come to its end there. -/
inductive Visits (g : Setup) : (fuel level : Nat) → Vars → Expr → Session → Session → Prop
  | begins {fuel level : Nat} {vars : Vars} {e : Expr} {s : Session} :
    Visits g fuel level vars e s s
  | ends {fuel level : Nat} {vars vars' : Vars} {e : Expr} {b : Bool} {s s' : Session}
    (h : eval g fuel level vars e s = some (b, vars', s')) : Visits g fuel level vars e s s'
  | first {fuel level : Nat} {vars : Vars} {e a : Expr} {s t : Session}
    (ha : e.first? = some a) (h : Visits g fuel level vars a s t) :
    Visits g (fuel + 1) level vars e s t
  | next {fuel level : Nat} {vars vars' : Vars} {e a b : Expr} {x : Bool} {s s' t : Session}
    (ha : e.first? = some a) (heval : eval g fuel level vars a s = some (x, vars', s'))
    (hb : e.next? x = some b) (h : Visits g fuel level vars' b s' t) :
    Visits g (fuel + 1) level vars e s t
  | guarded {fuel level : Nat} {vars : Vars} {rule : String} {a : Expr} {s s' t : Session}
    (hguard : s.guardLevel g level rule = (true, s')) (h : Visits g fuel level vars a s' t) :
    Visits g (fuel + 1) level vars (.guarded rule a) s t
  | called {fuel level : Nat} {vars : Vars} {name : String} {s t : Session}
    (h : Visits g fuel (level + 1) {} (g.grammar.body name) s t) :
    Visits g (fuel + 1) level vars (.call (.named name)) s t
  /-- A rule is asked what to skip when a section is left. -/
  | leaving {fuel level at' deeper : Nat} {vars vars₁ vars₂ : Vars} {m name : String}
    {kind : Option Kind} {result pinned : Expr} {eatMore : Option RuleRef} {x y : Bool}
    {marker : Marker} {s s₁ s₂ t u : Session}
    (hresult : eval g fuel level vars result s = some (x, vars₁, s₁))
    (hpinned : eval g fuel level vars₁ pinned s₁ = some (y, vars₂, s₂))
    (hm : vars₂.marker? m = some marker)
    (hasks : Asks (fun run => s₂.leave g run (runHook (eval g fuel)) fuel (level + deeper) marker
      kind x y eatMore) (runRef g (eval g fuel)) (.named name) at' t)
    (h : Visits g fuel at' {} (g.grammar.body name) t u) :
    Visits g (fuel + 1) level vars (.leave m kind result pinned eatMore deeper) s u
  /-- A rule is asked for items. -/
  | grouping {fuel level at' : Nat} {vars : Vars} {name : String} {chunk : Kind} {minds : Bool}
    {item eatMore : RuleRef} {s t u : Session}
    (hasks : Asks (fun run => s.groupRun g run fuel level chunk minds item eatMore)
      (runRef g (eval g fuel)) (.named name) at' t)
    (h : Visits g fuel at' {} (g.grammar.body name) t u) :
    Visits g (fuel + 1) level vars (.groupRun chunk minds item eatMore) s u

end Grammar

open Grammar (Visits eval runRef runHook)

/-- A parse comes to a state. -/
inductive Session.Visited (g : Setup) (fuel : Nat) (root : Kind) (rule : RuleRef)
    (limits : Limits) (caret : Option Nat) : Session → Prop
  | inside {name : String} {t : Session} (hrule : rule = .named name)
    (h : Visits g fuel 1 {} (g.grammar.body name) (enterRoot g limits caret).2 t) :
    Visited g fuel root rule limits caret t
  /-- A rule is asked what to skip when the root section is left. -/
  | leaving {name : String} {level : Nat} {result : Bool} {s t u : Session}
    (hrun : runRef g (eval g fuel) rule 1 (enterRoot g limits caret).2 = some (result, s))
    (hasks : Asks (fun run => s.leave g run (runHook (eval g fuel)) fuel 0
      (enterRoot g limits caret).1 (some root) result true (some .always)) (runRef g (eval g fuel))
      (.named name) level t)
    (h : Visits g fuel level {} (g.grammar.body name) t u) :
    Visited g fuel root rule limits caret u
  | ends {o : Output} (h : (start limits caret).parse g fuel root rule = some o) :
    Visited g fuel root rule limits caret o.session

section
variable {allows : Modifiers → Bool} {g : Setup} {run : Runner} {level : Nat}
  {vars : Vars} {s₀ s t : Session} {os os' : List OpenSection}

/-- A runner that is asked is asked where a property holds if answers elsewhere do not matter. -/
theorem Asks.of_congr {α : Type} {f : Runner → α} {rule : RuleRef} {P : Session → Prop}
    (h : Asks f run rule level t)
    (hcongr : ∀ run' : Runner, (∀ rule level u, P u → run' rule level u = run rule level u) →
      f run' = f run) : P t := by
  obtain ⟨run', helsewhere, hne⟩ := h
  refine Classical.byContradiction fun hnot => hne (hcongr run' fun rule' level' u hu => ?_)
  refine helsewhere rule' level' u fun heq => hnot ?_
  obtain ⟨-, -, rfl⟩ : rule' = rule ∧ level' = level ∧ u = t := by simpa using heq
  exact hu

theorem Asks.amid {α : Type} {f : Runner → α} {rule : RuleRef} (h : Asks f run rule level t)
    (hcongr : ∀ run', run.AgreesFrom allows g run' s → f run' = f run) : Amid allows g s t :=
  h.of_congr hcongr

theorem Amid.hooksOpen (h : Amid allows g s t) (hs : s.HooksOpen) : t.HooksOpen := by
  induction h with
  | work h => exact h.hooksOpen hs
  | trans _ _ ih ih' => exact ih' (ih hs)
  | level s => exact fun h hh => Nat.le_succ_of_le (hs h hh)
  | openMarker | framed | hushed => exact hs

/-! ## Entering sections -/

theorem Amid.enterSimple (s : Session) : Amid allows g s (s.enterSimple g).2 :=
  .trans (.work (.reportAgain s)) (.trans (.level _) (.openMarker _))

theorem Amid.enter {modifiers : Modifiers} {kind : Option Kind} {name : Option String}
    (hallows : allows modifiers = true) (level : Nat) (s : Session) :
    Amid allows g s (s.enter g level modifiers kind name).2 := by
  have hframe : Amid allows g (s.enterSimple g).2 _ :=
    .framed (s.enteredFrame g level modifiers kind name) hallows (s.enterSimple g).2
  have hsteady : Work allows g none _ (s.enter g level modifiers kind name).2 :=
    .steady (Session.steady_enter g level modifiers kind name s)
  exact (enterSimple s).trans (hframe.trans (.work hsteady))

theorem Amid.balanced (h : Amid allows g s₀ s) (hs : s₀.HooksOpen) (hrun : BalancedRun allows g s t) :
    Amid allows g s₀ t :=
  h.trans (.work (hrun.work (h.hooksOpen hs)))

end

/-! ## What holds in all states of a parse -/

/-- What has to be fulfilled by a property of states for it to hold in all states of a parse, if the states before
and after each rule are related by `R`. -/
structure VisitLaws (R : Session → Session → Prop) (allows : Modifiers → Bool) (g : Setup)
    (P : Session → Prop) : Prop where
  runs (fuel : Nat) : RunLaws R (fun _ => True) (fun _ => True) allows g fuel
  note {s : Session} (e : Event) : P s → P (s.note e)
  run {s t : Session} : P s → R s t → P t
  simple {s : Session} : P s → P (s.enterSimple g).2
  framed {level : Nat} {modifiers : Modifiers} {kind : Option Kind} {name : Option String} {s : Session} :
    allows modifiers = true → P s → P (s.enter g level modifiers kind name).2
  leaving {fuel level at' : Nat} {modifiers : Modifiers} {early kind : Option Kind} {name : Option String}
    {result pinned : Bool} {eatMore : Option RuleRef} {rule : RuleRef} {s s₁ t : Session} :
    allows modifiers = true → P s → R (s.enter g level modifiers early name).2 s₁ →
    Asks (fun run => s₁.leave g run (runHook (eval g fuel)) fuel level
      (s.enter g level modifiers early name).1 kind result pinned eatMore) (runRef g (eval g fuel)) rule at' t →
    P t
  grouping {fuel level at' : Nat} {chunk : Kind} {minds : Bool} {item eatMore rule : RuleRef} {s t : Session} :
    P s → Asks (fun run => s.groupRun g run fuel level chunk minds item eatMore) (runRef g (eval g fuel)) rule
      at' t → P t

namespace VisitLaws

variable {R : Session → Session → Prop} {P : Session → Prop} {allows : Modifiers → Bool} {g : Setup}
  {fuel level : Nat} {vars vars' : Vars} {e : Expr} {b : Bool} {s₀ s s' t : Session} {os os' : List OpenSection}
  {root : Kind} {rule : RuleRef} {limits : Limits} {caret : Option Nat}

theorem inside (laws : VisitLaws R allows g P) (hs : P s₀)
    (h : Inside R (fun _ => True) allows g level vars s₀ os s) : P s := by
  induction h with
  | none h => exact laws.run hs h
  | simple _ _ _ hrun ih => exact laws.run (laws.simple ih) hrun
  | framed _ hallows _ _ hrun ih => exact laws.run (laws.framed hallows ih) hrun

theorem keepsInside (laws : VisitLaws R allows g P) (hg : g.grammar.Balanced allows)
    (h : eval g fuel level vars e s = some (b, vars', s')) (hafter : e.after allows os = some os')
    (hin : Inside R (fun _ => True) allows g level vars s₀ os s) :
    Inside R (fun _ => True) allows g level vars' s₀ os' s' :=
  Grammar.keepsInside_of_laws hg (Grammar.asksOnly_true _) fuel (fun n _ => laws.runs n) h hafter
    (fun _ _ => trivial) (fun _ _ => trivial) hin

theorem runRef (laws : VisitLaws R allows g P) (hg : g.grammar.Balanced allows) {rule : RuleRef}
    (h : runRef g (eval g fuel) rule level s = some (b, s')) : R s s' := by
  have hlaws := laws.runs fuel
  exact Grammar.related_runRef hg (Grammar.asksOnly_true _) hlaws.refl hlaws.stepOver
    (fun h hafter _ _ hin => laws.keepsInside hg h hafter hin) (fun _ _ _ _ => trivial) h

/-- It holds in whatever state an expression of a balanced grammar comes to. -/
theorem visits (laws : VisitLaws R allows g P) (hg : g.grammar.Balanced allows)
    (h : Visits g fuel level vars e s t) (hs : P s₀) (hafter : e.after allows os = some os')
    (hin : Inside R (fun _ => True) allows g level vars s₀ os s) : P t := by
  have hlaws := laws.runs 0
  induction h generalizing s₀ os os' with
  | begins => exact laws.inside hs hin
  | ends h => exact laws.inside hs (laws.keepsInside hg h hafter hin)
  | first ha _ ih =>
    obtain ⟨os₁, os₂, hos₁, -⟩ := Grammar.after_parts ha hafter
    exact ih hs hos₁ hin
  | next ha heval hb _ ih =>
    obtain ⟨os₁, os₂, hos₁, hnext, -⟩ := Grammar.after_parts ha hafter
    exact ih hs (hnext _ _ hb) (laws.keepsInside hg heval hos₁ hin)
  | @guarded _ level _ rule _ s _ _ hguard _ ih =>
    obtain ⟨rfl, hos⟩ := Grammar.after_of_ite hafter
    have hrun : R s (s.guardLevel g level rule).2 := hlaws.guardLevel level rule s
    rw [hguard] at hrun
    exact ih hs hos (hin.run hlaws hrun)
  | called _ ih => exact ih (laws.inside hs hin) (Grammar.after_body hg _) (.none (hlaws.refl _))
  | leaving hresult hpinned hm hasks _ ih =>
    obtain ⟨os₂, hos₂, hpop⟩ := Option.bind_eq_some_iff.1 hafter
    obtain ⟨os₁, hos₁, hos₂⟩ := Option.bind_eq_some_iff.1 hos₂
    have hin₂ := laws.keepsInside hg hpinned hos₂ (laws.keepsInside hg hresult hos₁ hin)
    rw [Inside.popSection_eq_some hpop] at hin₂
    cases hin₂ with
    | framed hin hallows _ hx hbody =>
      obtain rfl := Option.some.inj (hm.symm.trans hx)
      have hasked := laws.leaving hallows (laws.inside hs hin) hbody hasks
      exact ih hasked (Grammar.after_body hg _) (.none (hlaws.refl _))
  | grouping hasks _ ih =>
    have hasked := laws.grouping (laws.inside hs hin) hasks
    exact ih hasked (Grammar.after_body hg _) (.none (hlaws.refl _))

/-- So it holds in all states of a parse if it holds in the first one. -/
theorem visited (laws : VisitLaws R allows g P) (hg : g.grammar.Balanced allows)
    (hroot : allows { collapse := true } = true) (hstart : P (Session.start limits caret))
    (h : Session.Visited g fuel root rule limits caret s) : P s := by
  have hfirst := laws.note (.parseStarted g.source.size) hstart
  have henter : P (Session.enterRoot g limits caret).2 := laws.framed hroot hfirst
  have hrefl := (laws.runs fuel).refl
  cases h with
  | inside _ h => exact laws.visits hg h henter (Grammar.after_body hg _) (.none (hrefl _))
  | leaving hrun hasks h =>
    have hasked := laws.leaving hroot hfirst (laws.runRef hg hrun) hasks
    exact laws.visits hg h hasked (Grammar.after_body hg _) (.none (hrefl _))
  | ends h =>
    rw [Session.parse_eq] at h
    obtain ⟨⟨result, s₁⟩, hrun, h⟩ := Option.bind_eq_some_iff.1 h
    obtain ⟨s₂, hleave, h⟩ := Option.bind_eq_some_iff.1 h
    cases h
    have hleft := (laws.runs fuel).framed hroot trivial (fun _ _ => trivial) (laws.runRef hg hrun) hleave
    exact laws.note _ (laws.run hfirst hleft)

end VisitLaws

variable {allows : Modifiers → Bool} {g : Setup} {s₀ : Session}

/-- All that a balanced grammar does in a parse is amid work that began with it. -/
theorem Amid.visitLaws (hpairs : g.language.delimiters = []) (hg : g.grammar.Balanced allows)
    (hs : s₀.HooksOpen) : VisitLaws (BalancedRun allows g) allows g (Amid allows g s₀) where
  runs fuel := BalancedRun.laws (Grammar.balanced hg fuel)
  note e h := h.trans (.work (.steady (.note _ e)))
  run h hrun := h.balanced hs hrun
  simple h := h.trans (.enterSimple _)
  framed hallows h := h.trans (.enter hallows _ _)
  leaving hallows h hbody hasks := by
    have hopen := h.hooksOpen hs
    have hasked := hasks.amid fun run' hagree =>
      Session.leave_congr hpairs hallows (Grammar.balanced hg _).works hagree _ _ hopen
        (hbody.work (Work.hooksOpen_enter hopen))
    exact h.trans hasked
  grouping h hasks := by
    have hasked := hasks.amid fun run' hagree =>
      Session.groupRun_congr (Grammar.balanced hg _).works (h.hooksOpen hs) hagree hpairs
    exact h.trans hasked

namespace Session

variable {fuel : Nat} {root : Kind} {rule : RuleRef} {limits : Limits} {caret : Option Nat} {s : Session}

/-- The last state of a parse is what the root section leaves. -/
theorem session_of_parse {o : Output}
    (h : (start limits caret).parse g fuel root rule = some o) :
    ∃ result s s', runRef g (eval g fuel) rule 1 (enterRoot g limits caret).2 = some (result, s) ∧
      s.leave g (runRef g (eval g fuel)) (runHook (eval g fuel)) fuel 0
        (enterRoot g limits caret).1 (some root) result true (some .always) = some s' ∧
      Steady s' o.session := by
  rw [parse_eq] at h
  obtain ⟨⟨result, s⟩, hrun, h⟩ := Option.bind_eq_some_iff.1 h
  obtain ⟨s', hleave, h⟩ := Option.bind_eq_some_iff.1 h
  cases h
  exact ⟨result, s, s', hrun, hleave, .note s' _⟩

/-- Every state of a parse is amid work that began with it. -/
theorem Visited.amid (hpairs : g.language.delimiters = []) (hg : g.grammar.Balanced allows)
    (hroot : allows { collapse := true } = true) (h : Visited g fuel root rule limits caret s) :
    Amid allows g (start limits caret) s := by
  have hopen : (start limits caret).HooksOpen := fun _ hx => nomatch hx
  exact (Amid.visitLaws hpairs hg hopen).visited hg hroot (.work (.refl _)) h

/-- In every state of a parse the intervals of the nodes and of the open markers are nested or apart,
and the positions of the log ascend up to the current one, if the language has no delimiters and the
grammar is balanced and has no sections that take up the node before them. -/
theorem laminar_of_visited (hpairs : g.language.delimiters = [])
    (hg : g.grammar.Balanced fun modifiers => !modifiers.takesLeft)
    (h : Visited g fuel root rule limits caret s) :
    s.log.Sound ∧ s.log.Laminar ∧ s.Ascends := by
  have hamid := h.amid hpairs hg rfl
  have hregular := Regular.start limits caret
  have hempty : (start limits caret).Ascends := List.pairwise_singleton ..
  refine ⟨(hamid.regular hregular).log, ?_, hamid.ascends hregular hempty⟩
  exact hamid.laminar hpairs (fun modifiers hm => by simpa using hm) hregular .empty

/-- A rule with a node for the first token and a section behind it that is still to be left. -/
def sectionInSection : Setup where
  source := { text := "ab", tokens := [⟨⟨3⟩, ⟨0, 1⟩⟩, ⟨⟨3⟩, ⟨1, 2⟩⟩] }
  language := (LanguageTable.toBareLanguage {})
  limits := default
  grammar := [("statement",
    .seq
      (.seq (.prim (.enter "statement" {} none none 0)) <|
        .seq (.prim (.enterSimple "name")) <|
        .seq (.prim (.consume ⟨3⟩)) <|
        .seq (.leaveSimple "name" (some ⟨24⟩) (.const true)) <|
        .prim (.enter "rest" { upper := true } none none 0))
      (.seq (.prim (.consume ⟨3⟩)) <|
        .seq (.leave "rest" (some ⟨23⟩) (.const true) (.const false) none 0) <|
        .leave "statement" (some ⟨21⟩) (.const true) (.const false) none 0))]

theorem laminar_of_visited_sectionInSection :
    ∃ s, Visited sectionInSection 12 ⟨20⟩ (.named "statement") {} none s ∧
      s.log.stage? ⟨1⟩ = some .opened ∧ s.log.stage? ⟨2⟩ = some .committed ∧
      s.log.stage? ⟨3⟩ = some .opened ∧ s.log.commits ⟨2⟩ < s.log.opens ⟨3⟩ ∧ s.Ascends := by
  have heval : ∃ e rest vars s, sectionInSection.grammar.body "statement" = .seq e rest ∧
      eval sectionInSection 11 1 {} e (enterRoot sectionInSection {} none).2 =
        some (true, vars, s) ∧ s.log.stage? ⟨1⟩ = some .opened ∧
      s.log.stage? ⟨2⟩ = some .committed ∧ s.log.stage? ⟨3⟩ = some .opened ∧
      s.log.opens ⟨2⟩ < s.log.opens ⟨3⟩ := ⟨_, _, _, _, rfl, rfl, rfl, rfl, rfl, by decide⟩
  obtain ⟨e, rest, vars, s, hbody, heval, h₁, h₂, h₃, hlt⟩ := heval
  have hvisited : Visited sectionInSection 12 ⟨20⟩ (.named "statement") {} none s :=
    .inside rfl (hbody ▸ .first rfl (.ends heval))
  obtain ⟨-, hlaminar, hascends⟩ := laminar_of_visited (by rfl) (by decide) hvisited
  exact ⟨s, hvisited, h₁, h₂, h₃, hlaminar.across _ _ h₂ h₃ hlt, hascends⟩

end Session

end Descent
