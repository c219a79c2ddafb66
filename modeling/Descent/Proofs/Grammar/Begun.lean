import Descent.Proofs.Grammar.Abreast
import Descent.Proofs.Grammar.Onward

/-!
# What a parse begins

An expression is begun when it is evaluated: in a part of another expression, in the rule that is
called, in a rule that is asked for items or what to skip, or in a hook (`Grammar.Begins`). Whatever is
begun while an expression is evaluated that comes to its end comes to an end itself, and a fatal error
that it ends with stays until then (`Grammar.Begins.settles`). So it is with a whole parse
(`Session.Begun.settles`).

The loops of recovery do not show what becomes of the answers that are given while a section is left. So
the parse is compared with itself, up to the fatal error that an answer comes with
(`Comparison.same`): if the answer matters, the error is still there in the end (`settles_of_differs`).
-/

namespace Descent

open Comparable (state Alike)
open Grammar (eval runRef runHook)

/-! ## A parse and itself -/

section
variable {g : Setup}

theorem isEmpty_expectedHere_wording (s : Session) :
    (s.expectedHere (g.reword g.wording)).isEmpty = (s.expectedHere g).isEmpty := by
  rw [g.reword_wording]

theorem errorHere_wording (s : Session) :
    s.errorHere (g.reword g.wording) (s.expectedHere (g.reword g.wording)) =
      s.errorHere g (s.expectedHere g) := by
  rw [g.reword_wording]

theorem label_wording (fatal : Fatal) (span : Span) (position : Nat) :
    (⟨fatal, span, (g.reword g.wording).labelFor ((g.reword g.wording).quotedText position)⟩ :
      Aborted) = ⟨fatal, span, g.labelFor (g.quotedText position)⟩ := by
  rw [g.reword_wording]

end

/-- The comparison of a parse with itself, up to the fatal errors after which nothing is compared. -/
def Comparison.same (g : Setup) (ends : Aborted → Prop) : Comparison g where
  wording := g.wording
  error := id
  aborted := id
  completion := id
  ends := ends
  allows _ := true
  isEmpty_expectedHere := isEmpty_expectedHere_wording
  error_errorHere := errorHere_wording
  aborted_label := label_wording
  completion_offer h _ _ := by rw [id, id] at h; rw [h]

variable {g : Setup} {ends : Aborted → Prop} {s s' t : Session}

/-- Twins are the same state. -/
theorem Session.Twins.eq (h : s.Twins (.same g ends) t) : t = s := by
  have hlog : t.log.mapErrors id = s.log.mapErrors id := h.log
  have haborted : t.aborted.map id = s.aborted.map id := h.aborted
  have htrace : t.trace.map (·.mapError id) = s.trace.map (·.mapError id) := h.trace
  have hcompletion : t.completion = s.completion := h.completion
  have hevent (e : Event) : e.mapError id = e := by cases e <;> rfl
  simp only [MarkerLog.mapErrors_id, Option.map_id, id, hevent, List.map_id'] at hlog haborted htrace
  obtain ⟨hposition, -, hframes, hlookahead, hattempts, -, hhooks, -, hlevel, hquiet, -, -, hcalls⟩ := h
  cases s
  cases t
  simp_all

theorem Session.Twins.self (s : Session) : s.Twins (.same g ends) s :=
  .refl fun hook _ => hook.body.all_eq_true

namespace Grammar

theorem evalAbreast_same (g : Setup) (ends : Aborted → Prop) (fuel : Nat) :
    EvalAbreast (.same g ends) (eval g fuel) (eval g fuel) := by
  have hcollects : (Comparison.same g ends).Collects := fun h => congrArg Option.isSome h
  intro e s t he h
  exact abreast_eval hcollects.steps (fun rule _ => rule.2.all_eq_true) fuel he h

theorem abreast_runRef_same (g : Setup) (ends : Aborted → Prop) (fuel : Nat) :
    Runner.Abreast (.same g ends) (runRef g (eval g fuel)) (runRef g (eval g fuel)) :=
  abreast_runRef (evalAbreast_same g ends fuel) fun rule _ => rule.2.all_eq_true

theorem abreast_runHook_same (g : Setup) (ends : Aborted → Prop) (fuel : Nat) :
    HookRunner.Abreast (.same g ends) (runHook (eval g fuel)) (runHook (eval g fuel)) :=
  abreast_runHook (evalAbreast_same g ends fuel)

end Grammar

/-! ## Answers that matter -/

/-- A fatal error of `s` is the one of `s'`. -/
def Session.FatalStays (s s' : Session) : Prop := ∀ a, s.aborted = some a → s'.aborted = some a

/-- There is an answer, and the fatal error that it comes with is the one of `s`. -/
def Settles {γ : Type} [Comparable γ] (x : Option γ) (s : Session) : Prop :=
  Arrives (fun y => (state y).FatalStays s) x

namespace Settles

variable {γ δ : Type} [Comparable γ] [Comparable δ] {x : Option γ} {f : γ → Option δ}

theorem mono (h : Settles x s) (hs : s.FatalStays s') : Settles x s' :=
  Arrives.mono h fun _ hy a ha => hs a (hy a ha)

theorem of_bind (h : Settles (x.bind f) s)
    (hf : ∀ y z, x = some y → f y = some z → (state y).FatalStays (state z)) : Settles x s := by
  obtain ⟨z, hz, hstays⟩ := h
  obtain ⟨y, hy, hz⟩ := Option.bind_eq_some_iff.1 hz
  exact ⟨y, hy, fun a ha => hstays a (hf y z hy hz a ha)⟩

end Settles

/-- If the end depends on an answer, the answer is there, and the end has the fatal error that the answer
comes with. -/
theorem settles_of_differs {α β δ γ : Type} [Comparable γ]
    {f : (α → β → Session → Option (δ × Session)) → Option γ}
    {run run' : α → β → Session → Option (δ × Session)} {i : α} {j : β} {z : γ}
    (helse : ∀ i' j' t', (i', j', t') ≠ (i, j, t) → run' i' j' t' = run i' j' t')
    (hne : f run' ≠ f run) (hz : f run = some z)
    (hrun : ∀ ends i j (u v : Session), u.Twins (.same g ends) v →
      u.Abreast (.same g ends) (run i j u) (run i j v))
    (heq : ∀ ends w, Alike (.same g ends) z w → w = z)
    (hf : ∀ ends, (∀ i j (u v : Session), u.Twins (.same g ends) v →
      u.Abreast (.same g ends) (run i j u) (run' i j v)) → s.Abreast (.same g ends) (f run) (f run')) :
    Settles (run i j t) (state z) := by
  -- the other answers are the same, and nothing is compared after this one
  have hover (ends : Aborted → Prop)
      (hanswer : ∀ x, run i j t = some x → (Comparison.same g ends).Over x.2) :
      (Comparison.same g ends).Over (state z) := by
    have habreast (i' : α) (j' : β) (u v : Session) (huv : u.Twins (.same g ends) v) :
        u.Abreast (.same g ends) (run i' j' u) (run' i' j' v) := by
      obtain rfl := huv.eq
      by_cases hat : (i', j', v) = (i, j, t)
      · obtain ⟨rfl, rfl, rfl⟩ : i' = i ∧ j' = j ∧ v = t := by simpa using hat
        exact ⟨fun x hx => ⟨x, ⟨rfl, .self x.2⟩, .inl (hanswer x hx)⟩⟩
      · rw [helse _ _ _ hat]
        exact hrun ends _ _ _ _ huv
    obtain ⟨w, halike, hover | ⟨-, hw⟩⟩ := (hf ends habreast).exists_twin z hz
    · exact hover
    · exact absurd (hw.trans (heq ends w halike ▸ hz.symm)) hne
  cases hanswer : run i j t with
  | none =>
    obtain ⟨a, -, hfalse⟩ := hover (fun _ => False) fun x hx => by rw [hanswer] at hx; cases hx
    exact hfalse.elim
  | some x =>
    refine .some fun a ha => ?_
    obtain ⟨a', ha', rfl⟩ := hover (· = a) fun y hy => by
      rw [hanswer] at hy
      cases hy
      exact ⟨a, ha, rfl⟩
    exact ha'

theorem Asks.settles {γ : Type} [Comparable γ] {f : Runner → Option γ} {run : Runner}
    {rule : RuleRef} {level : Nat} {z : γ} (h : Asks f run rule level t) (hz : f run = some z)
    (hrun : ∀ ends, Runner.Abreast (.same g ends) run run)
    (heq : ∀ ends w, Alike (.same g ends) z w → w = z)
    (hf : ∀ ends run', Runner.Abreast (.same g ends) run run' →
      s.Abreast (.same g ends) (f run) (f run')) : Settles (run rule level t) (state z) := by
  obtain ⟨run', helse, hne⟩ := h
  exact settles_of_differs helse hne hz hrun heq fun ends => hf ends run'

theorem Consults.settles {f : HookRunner → Option Session} {hook : HookRunner} {body : Expr}
    {m? : Option Marker} (h : Consults f hook body m? t) (hz : f hook = some s')
    (hhook : ∀ ends, HookRunner.Abreast (.same g ends) hook hook)
    (hf : ∀ ends hook', HookRunner.Abreast (.same g ends) hook hook' →
      s.Abreast (.same g ends) (f hook) (f hook')) : Settles (hook body m? t) s' := by
  obtain ⟨hook', helse, hne⟩ := h
  exact settles_of_differs helse hne hz
    (fun ends body m? u v => hhook ends body m? u v body.all_eq_true) (fun _ _ h => h.eq)
    fun ends habreast => hf ends hook' fun body m? u v _ => habreast body m? u v

/-! ## Rules and hooks that are run -/

namespace Grammar

/-- The variables that a hook is run with. -/
def hookVars : Option Marker → Vars
  | some m => Vars.setMarker {} "m" m
  | none => {}

/-- The state in which the body of a hook is evaluated. -/
def hookStart (m? : Option Marker) (s : Session) : Session :=
  s.recordCall .hookRun (match m? with
    | some m => .nat m.number
    | none => .unit)

theorem acts_hookStart (m? : Option Marker) (s : Session) : s.Acts g false (hookStart m? s) :=
  .still (.recordCall ..)

variable {fuel level : Nat}

theorem settles_eval_of_runRef {name : String}
    (h : Settles (runRef g (eval g fuel) (.named name) level t) s) :
    Settles (eval g fuel level {} (g.grammar.body name) t) s := by
  obtain ⟨⟨b, u⟩, hrun, hstays⟩ := h
  obtain ⟨vars, heval⟩ := exists_eval_of_runRef hrun
  exact ⟨_, heval, hstays⟩

theorem settles_eval_of_runHook {body : Expr} {m? : Option Marker}
    (h : Settles (runHook (eval g fuel) body m? t) s) :
    Settles (eval g fuel 0 (hookVars m?) body (hookStart m? t)) s := by
  obtain ⟨⟨n?, u⟩, hrun, hstays⟩ := h
  obtain ⟨⟨b, vars, u'⟩, heval, hu⟩ := Option.bind_eq_some_iff.1 hrun
  cases hu
  cases m? with
  | none => exact ⟨_, heval, hstays⟩
  | some m => exact ⟨_, heval, hstays⟩

end Grammar

section
variable {fuel rounds level at' : Nat} {m : Marker} {kind : Option Kind} {x y : Bool}
  {eatMore : Option RuleRef} {name : String} {body : Expr} {m? : Option Marker} (hs : s.InBounds g)
include hs

/-- A rule that is asked what to skip answers. -/
theorem Asks.settles_leave
    (h : Asks (fun run => s.leave g run (runHook (eval g fuel)) rounds level m kind x y eatMore)
      (runRef g (eval g fuel)) (.named name) at' t)
    (hleave : s.leave g (runRef g (eval g fuel)) (runHook (eval g fuel)) rounds level m kind x y
      eatMore = some s') :
    s.Acts g false t ∧ Settles (eval g fuel at' {} (g.grammar.body name) t) s' := by
  have hrun : (runRef g (eval g fuel)).Calls g false := Grammar.calls_runRef (Grammar.calls_eval fuel)
  have hhook : (runHook (eval g fuel)).Calls g false :=
    Grammar.calls_runHook (Grammar.calls_eval fuel)
  refine ⟨h.acts fun run' hsame => (Session.Acts.leave hs hhook.acts (fun _ _ _ _ => rfl) hrun.acts
    hsame nofun (.refl s)).same, ?_⟩
  refine Grammar.settles_eval_of_runRef (h.settles (s := s) hleave
    (Grammar.abreast_runRef_same g · fuel) (fun _ _ h => h.eq) fun ends _ hrun' => ?_)
  exact Session.Twins.leave hrun' (Grammar.abreast_runHook_same g ends fuel) (.self s) ..

/-- A rule that is asked for items answers. -/
theorem Asks.settles_groupRun {chunk : Kind} {minds b : Bool} {item eatMore : RuleRef}
    (h : Asks (fun run => s.groupRun g run rounds level chunk minds item eatMore)
      (runRef g (eval g fuel)) (.named name) at' t)
    (hgroup : s.groupRun g (runRef g (eval g fuel)) rounds level chunk minds item eatMore =
      some (b, s')) :
    s.Acts g false t ∧ Settles (eval g fuel at' {} (g.grammar.body name) t) s' := by
  have hrun : (runRef g (eval g fuel)).Calls g false := Grammar.calls_runRef (Grammar.calls_eval fuel)
  refine ⟨h.acts fun run' hsame =>
    (Session.Acts.groupRun hs hrun.acts hsame (.refl s)).same, ?_⟩
  refine Grammar.settles_eval_of_runRef (h.settles (s := s) hgroup
    (Grammar.abreast_runRef_same g · fuel) (fun _ _ h => Prod.ext h.1 h.2.eq) fun _ _ hrun' => ?_)
  exact Session.Twins.groupRun hrun' (.self s) ..

/-- A hook that is run when a section is left answers. -/
theorem Consults.settles_leave
    (h : Consults (fun hook => s.leave g (runRef g (eval g fuel)) hook rounds level m kind x y eatMore)
      (runHook (eval g fuel)) body m? t)
    (hleave : s.leave g (runRef g (eval g fuel)) (runHook (eval g fuel)) rounds level m kind x y
      eatMore = some s') :
    s.Acts g false (Grammar.hookStart m? t) ∧
      Settles (eval g fuel 0 (Grammar.hookVars m?) body (Grammar.hookStart m? t)) s' := by
  have hrun : (runRef g (eval g fuel)).Calls g false := Grammar.calls_runRef (Grammar.calls_eval fuel)
  have hhook : (runHook (eval g fuel)).Calls g false :=
    Grammar.calls_runHook (Grammar.calls_eval fuel)
  have hacts : s.Acts g false t := h.acts fun hook' hsame =>
    (Session.Acts.leave hs hhook.acts hsame hrun.acts (fun _ _ _ _ => rfl) nofun (.refl s)).same
  refine ⟨hacts.trans (Grammar.acts_hookStart m? t), Grammar.settles_eval_of_runHook ?_⟩
  exact h.settles hleave (Grammar.abreast_runHook_same g · fuel) fun ends _ hhook' =>
    Session.Twins.leave (Grammar.abreast_runRef_same g ends fuel) hhook' (.self s) ..

theorem Consults.settles_leaveSimple
    (h : Consults (fun hook => s.leaveSimple g hook rounds m kind x) (runHook (eval g fuel)) body m? t)
    (hleave : s.leaveSimple g (runHook (eval g fuel)) rounds m kind x = some s') :
    s.Acts g false (Grammar.hookStart m? t) ∧
      Settles (eval g fuel 0 (Grammar.hookVars m?) body (Grammar.hookStart m? t)) s' := by
  have hhook : (runHook (eval g fuel)).Calls g false :=
    Grammar.calls_runHook (Grammar.calls_eval fuel)
  have hacts : s.Acts g false t := h.acts fun hook' hsame =>
    (Session.Acts.leaveSimple hs hhook.acts hsame (.refl s)).same
  refine ⟨hacts.trans (Grammar.acts_hookStart m? t), Grammar.settles_eval_of_runHook ?_⟩
  exact h.settles hleave (Grammar.abreast_runHook_same g · fuel) fun _ _ hhook' =>
    Session.Twins.leaveSimple hhook' (.self s) ..

end

/-! ## What is begun -/

namespace Grammar

/-- `Begins g a at' t fuel level vars e s`: while `e` is evaluated in `s`, `a` is begun at level `at'`
in `t`. -/
inductive Begins (g : Setup) (a : Expr) (at' : Nat) (t : Session) :
    (fuel level : Nat) → Vars → Expr → Session → Prop
  | here {fuel : Nat} {vars : Vars} : Begins g a at' t fuel at' vars a t
  | first {fuel level : Nat} {vars : Vars} {e c : Expr} {s : Session} (hc : e.first? = some c)
    (h : Begins g a at' t fuel level vars c s) : Begins g a at' t (fuel + 1) level vars e s
  | next {fuel level : Nat} {vars vars' : Vars} {e c d : Expr} {x : Bool} {s s' : Session}
    (hc : e.first? = some c) (heval : eval g fuel level vars c s = some (x, vars', s'))
    (hd : e.next? x = some d) (h : Begins g a at' t fuel level vars' d s') :
    Begins g a at' t (fuel + 1) level vars e s
  | guarded {fuel level : Nat} {vars : Vars} {rule : String} {c : Expr} {s s' : Session}
    (hguard : s.guardLevel g level rule = (true, s')) (h : Begins g a at' t fuel level vars c s') :
    Begins g a at' t (fuel + 1) level vars (.guarded rule c) s
  | called {fuel level : Nat} {vars : Vars} {name : String} {s : Session}
    (h : Begins g a at' t fuel (level + 1) {} (g.grammar.body name) s) :
    Begins g a at' t (fuel + 1) level vars (.call (.named name)) s
  /-- A rule is asked for items. -/
  | grouping {fuel level asked : Nat} {vars : Vars} {name : String} {chunk : Kind} {minds : Bool}
    {item eatMore : RuleRef} {s u : Session}
    (hasks : Asks (fun run => s.groupRun g run fuel level chunk minds item eatMore)
      (runRef g (eval g fuel)) (.named name) asked u)
    (h : Begins g a at' t fuel asked {} (g.grammar.body name) u) :
    Begins g a at' t (fuel + 1) level vars (.groupRun chunk minds item eatMore) s
  /-- A rule is asked what to skip when a section is left. -/
  | leaving {fuel level asked deeper : Nat} {vars vars₁ vars₂ : Vars} {m name : String}
    {kind : Option Kind} {result pinned : Expr} {eatMore : Option RuleRef} {x y : Bool}
    {marker : Marker} {s s₁ s₂ u : Session}
    (hresult : eval g fuel level vars result s = some (x, vars₁, s₁))
    (hpinned : eval g fuel level vars₁ pinned s₁ = some (y, vars₂, s₂))
    (hm : vars₂.marker? m = some marker)
    (hasks : Asks (fun run => s₂.leave g run (runHook (eval g fuel)) fuel (level + deeper) marker
      kind x y eatMore) (runRef g (eval g fuel)) (.named name) asked u)
    (h : Begins g a at' t fuel asked {} (g.grammar.body name) u) :
    Begins g a at' t (fuel + 1) level vars (.leave m kind result pinned eatMore deeper) s
  /-- A hook is run then. -/
  | hooking {fuel level deeper : Nat} {vars vars₁ vars₂ : Vars} {m : String} {kind : Option Kind}
    {result pinned body : Expr} {eatMore : Option RuleRef} {x y : Bool} {marker : Marker}
    {m? : Option Marker} {s s₁ s₂ u : Session}
    (hresult : eval g fuel level vars result s = some (x, vars₁, s₁))
    (hpinned : eval g fuel level vars₁ pinned s₁ = some (y, vars₂, s₂))
    (hm : vars₂.marker? m = some marker)
    (hconsults : Consults (fun hook => s₂.leave g (runRef g (eval g fuel)) hook fuel (level + deeper)
      marker kind x y eatMore) (runHook (eval g fuel)) body m? u)
    (h : Begins g a at' t fuel 0 (hookVars m?) body (hookStart m? u)) :
    Begins g a at' t (fuel + 1) level vars (.leave m kind result pinned eatMore deeper) s
  | hookingSimple {fuel level : Nat} {vars vars₁ : Vars} {m : String} {kind : Option Kind}
    {result body : Expr} {x : Bool} {marker : Marker} {m? : Option Marker} {s s₁ u : Session}
    (hresult : eval g fuel level vars result s = some (x, vars₁, s₁))
    (hm : vars₁.marker? m = some marker)
    (hconsults : Consults (fun hook => s₁.leaveSimple g hook fuel marker kind x)
      (runHook (eval g fuel)) body m? u)
    (h : Begins g a at' t fuel 0 (hookVars m?) body (hookStart m? u)) :
    Begins g a at' t (fuel + 1) level vars (.leaveSimple m kind result) s

/-- The expression comes to an end that is begun at the level in `t`, and the fatal error that it ends with
is the one of `s`. -/
def EndsBefore (g : Setup) (e : Expr) (level : Nat) (t s : Session) : Prop :=
  ∃ fuel vars, Settles (eval g fuel level vars e t) s

variable {a e : Expr} {fuel level at' : Nat} {vars vars' : Vars} {b : Bool}

theorem fatalStays_of_calls (hs : s.InBounds g) (h : s.Calls g false s') : s.FatalStays s' :=
  fun _ ha => (h.acts hs).aborted ha

theorem acts_of_eval (hs : s.InBounds g) (h : eval g fuel level vars e s = some (b, vars', s')) :
    s.Acts g false s' :=
  (calls_eval fuel h).acts hs

/-- Where the leaving of a section comes to an end, the section is left. -/
theorem exists_leave_of_settles {m : String} {kind : Option Kind} {result pinned : Expr}
    {eatMore : Option RuleRef} {deeper : Nat} {x y : Bool} {vars₁ vars₂ : Vars} {marker : Marker}
    {s₁ s₂ : Session} (hs : s.InBounds g)
    (hresult : eval g fuel level vars result s = some (x, vars₁, s₁))
    (hpinned : eval g fuel level vars₁ pinned s₁ = some (y, vars₂, s₂))
    (hm : vars₂.marker? m = some marker)
    (hend : Settles (eval g (fuel + 1) level vars (.leave m kind result pinned eatMore deeper) s) s') :
    s.Acts g false s₂ ∧ ∃ u, s₂.leave g (runRef g (eval g fuel)) (runHook (eval g fuel)) fuel
      (level + deeper) marker kind x y eatMore = some u ∧ u.FatalStays s' := by
  have hacts := acts_of_eval hs hresult
  refine ⟨hacts.trans (acts_of_eval (hacts.inBounds hs) hpinned), ?_⟩
  obtain ⟨z, hz, hstays⟩ := hend
  simp only [eval, hresult, hpinned, hm, Option.bind_eq_bind, Option.bind_some] at hz
  obtain ⟨u, hleave, hz⟩ := Option.bind_eq_some_iff.1 hz
  cases hz
  exact ⟨u, hleave, hstays⟩

/-- What is begun comes to an end, and no fatal error that it ends with is lost. -/
theorem Begins.settles (h : Begins g a at' t fuel level vars e s) (hs : s.InBounds g)
    (hend : Settles (eval g fuel level vars e s) s') :
    s.Acts g false t ∧ EndsBefore g a at' t s' := by
  induction h with
  | here => exact ⟨.refl _, _, _, hend⟩
  | first hc _ ih =>
    obtain ⟨⟨b, vars', u⟩, heval, hstays⟩ := hend
    obtain ⟨x, vars₁, s₁, hfirst, hcalls, -⟩ := eval_parts hc heval
    have hin := (acts_of_eval hs hfirst).inBounds hs
    exact ih hs ⟨_, hfirst, fun a ha => hstays a (fatalStays_of_calls hin hcalls a ha)⟩
  | next hc heval₁ hd _ ih =>
    obtain ⟨⟨b, vars', u⟩, heval, hstays⟩ := hend
    obtain ⟨x, vars₁, s₁, hfirst, -, hnext⟩ := eval_parts hc heval
    cases heval₁.symm.trans hfirst
    obtain ⟨y, vars₂, s₂, heval₂, hcalls⟩ := hnext _ hd
    have hacts := acts_of_eval hs hfirst
    have hin := hacts.inBounds hs
    have hin₂ := (acts_of_eval hin heval₂).inBounds hin
    have hends := ih hin ⟨_, heval₂, fun a ha => hstays a (fatalStays_of_calls hin₂ hcalls a ha)⟩
    exact hends.imp_left hacts.trans
  | @guarded _ level _ rule _ s _ hguard _ ih =>
    have hacts : s.Acts g false (s.guardLevel g level rule).2 := .guardLevel level rule s
    rw [hguard] at hacts
    simp only [eval, hguard] at hend
    refine (ih (hacts.inBounds hs) (hend.of_bind fun y z _ hz => ?_)).imp_left hacts.trans
    cases hz
    exact fun _ ha => ha
  | called _ ih =>
    refine ih hs (settles_eval_of_runRef (Settles.of_bind hend fun y z _ hz => ?_))
    cases hz
    exact fun _ ha => ha
  | grouping hasks _ ih =>
    obtain ⟨z, hz, hstays⟩ := hend
    obtain ⟨⟨x, u⟩, hgroup, hz⟩ := Option.bind_eq_some_iff.1 hz
    cases hz
    obtain ⟨hacts, hanswer⟩ := hasks.settles_groupRun hs hgroup
    have hends := ih (hacts.inBounds hs) (hanswer.mono hstays)
    exact hends.imp_left hacts.trans
  | leaving hresult hpinned hm hasks _ ih =>
    obtain ⟨hbefore, u, hleave, hstays⟩ := exists_leave_of_settles hs hresult hpinned hm hend
    obtain ⟨hacts, hanswer⟩ := hasks.settles_leave (hbefore.inBounds hs) hleave
    have hacts := hbefore.trans hacts
    have hends := ih (hacts.inBounds hs) (hanswer.mono hstays)
    exact hends.imp_left hacts.trans
  | hooking hresult hpinned hm hconsults _ ih =>
    obtain ⟨hbefore, u, hleave, hstays⟩ := exists_leave_of_settles hs hresult hpinned hm hend
    obtain ⟨hacts, hanswer⟩ := hconsults.settles_leave (hbefore.inBounds hs) hleave
    have hacts := hbefore.trans hacts
    have hends := ih (hacts.inBounds hs) (hanswer.mono hstays)
    exact hends.imp_left hacts.trans
  | hookingSimple hresult hm hconsults _ ih =>
    have hbefore := acts_of_eval hs hresult
    obtain ⟨z, hz, hstays⟩ := hend
    simp only [eval, hresult, hm, Option.bind_eq_bind, Option.bind_some] at hz
    obtain ⟨u, hleave, hz⟩ := Option.bind_eq_some_iff.1 hz
    cases hz
    obtain ⟨hacts, hanswer⟩ := hconsults.settles_leaveSimple (hbefore.inBounds hs) hleave
    have hacts := hbefore.trans hacts
    have hends := ih (hacts.inBounds hs) (hanswer.mono hstays)
    exact hends.imp_left hacts.trans

end Grammar

/-! ## Parses -/

namespace Session

variable {fuel level : Nat} {root : Kind} {rule : RuleRef} {limits : Limits} {caret : Option Nat}
  {a : Expr} {o : Output}

/-- While the rule is parsed with, the expression is begun at the level in `t`. -/
inductive Begun (g : Setup) (fuel : Nat) (root : Kind) (rule : RuleRef) (limits : Limits)
    (caret : Option Nat) (a : Expr) (level : Nat) (t : Session) : Prop
  | inside {name : String} (hrule : rule = .named name)
    (h : Grammar.Begins g a level t fuel 1 {} (g.grammar.body name) (enterRoot g limits caret).2)
  /-- A rule is asked what to skip when the root section is left. -/
  | leaving {name : String} {asked : Nat} {result : Bool} {s u : Session}
    (hrun : runRef g (eval g fuel) rule 1 (enterRoot g limits caret).2 = some (result, s))
    (hasks : Asks (fun run => s.leave g run (runHook (eval g fuel)) fuel 0
      (enterRoot g limits caret).1 (some root) result true (some .always)) (runRef g (eval g fuel))
      (.named name) asked u)
    (h : Grammar.Begins g a level t fuel asked {} (g.grammar.body name) u)
  /-- A hook is run then. -/
  | hooking {body : Expr} {m? : Option Marker} {result : Bool} {s u : Session}
    (hrun : runRef g (eval g fuel) rule 1 (enterRoot g limits caret).2 = some (result, s))
    (hconsults : Consults (fun hook => s.leave g (runRef g (eval g fuel)) hook fuel 0
      (enterRoot g limits caret).1 (some root) result true (some .always)) (runHook (eval g fuel))
      body m? u)
    (h : Grammar.Begins g a level t fuel 0 (Grammar.hookVars m?) body (Grammar.hookStart m? u))

/-- What is begun in a parse comes to an end before the parse does, and no fatal error is lost. -/
theorem Begun.settles (h : Begun g fuel root rule limits caret a level t)
    (hparse : (start limits caret).parse g fuel root rule = some o) :
    (start limits caret).Acts g false t ∧ Grammar.EndsBefore g a level t o.session := by
  have hstart := inBounds_start g limits caret
  have henter : (start limits caret).Acts g false (enterRoot g limits caret).2 :=
    .trans (.still (.note _ rfl)) (.enter ..)
  have hin := henter.inBounds hstart
  rw [parse_eq] at hparse
  obtain ⟨⟨result, s⟩, hrun, hparse⟩ := Option.bind_eq_some_iff.1 hparse
  obtain ⟨s', hleave, hparse⟩ := Option.bind_eq_some_iff.1 hparse
  cases hparse
  have hbody := Grammar.calls_runRef (Grammar.calls_eval fuel) _ _ _ _ _ hrun
  have hroot := henter.trans (hbody.acts hin)
  have hin' := hroot.inBounds hstart
  have hend : s'.FatalStays (s'.output g root).session := fun _ ha => ha
  cases h with
  | inside hrule h =>
    subst hrule
    have hleft : s.Calls g false s' := .leave (Grammar.calls_runRef (Grammar.calls_eval fuel))
      (Grammar.calls_runHook (Grammar.calls_eval fuel)) nofun hleave
    have hstays : s.FatalStays s' := Grammar.fatalStays_of_calls hin' hleft
    have hanswer : Settles (runRef g (eval g fuel) (.named _) 1 (enterRoot g limits caret).2)
        (s'.output g root).session := ⟨_, hrun, hstays⟩
    exact (h.settles hin (Grammar.settles_eval_of_runRef hanswer)).imp_left henter.trans
  | leaving hrun' hasks h =>
    cases hrun'.symm.trans hrun
    obtain ⟨hacts, hanswer⟩ := hasks.settles_leave hin' hleave
    have hacts := hroot.trans hacts
    exact (h.settles (hacts.inBounds hstart) (hanswer.mono hend)).imp_left hacts.trans
  | hooking hrun' hconsults h =>
    cases hrun'.symm.trans hrun
    obtain ⟨hacts, hanswer⟩ := hconsults.settles_leave hin' hleave
    have hacts := hroot.trans hacts
    exact (h.settles (hacts.inBounds hstart) (hanswer.mono hend)).imp_left hacts.trans

end Session

end Descent
