import Descent.Proofs.Grammar.Calls

/-!
# Marker steps of a grammar

Whatever calls do to the markers, be it by sections, by chunks or step by step, is a run of marker steps
(`Session.Calls.leadsTo`). So is whatever a grammar does (`Grammar.leadsTo_eval`), and so is a whole parse
(`Session.leadsTo_parse`). What holds after every such run holds at the end of every parse, as does the
soundness of the log.
-/

namespace Descent

open Session (LeadsTo)

variable {g : Setup} {paired : Bool} {s t : Session} {fuel : Nat}

/-! ## Calls -/

/-- No step of a grammar does more to the markers than marker steps. -/
theorem Primitive.leadsTo_run (p : Primitive) (level : Nat) (vars : Vars) (s : Session) :
    s.LeadsTo (p.run g level vars s).session := by
  have hacts : s.Acts g true (p.run g level vars s).session := p.acts_run level vars s
  exact hacts.leadsTo

theorem Session.Calls.leadsTo (h : s.Calls g paired t) : s.LeadsTo t := by
  induction h with
  | none s => exact .refl s
  | trans _ _ ih ih' => exact ih.trans ih'
  | step p level vars s => exact p.leadsTo_run level vars s
  | note | record | hook => exact .still rfl
  | report s => exact .reportHere g s
  | group _ h ih => exact .groupRun ih h
  | leave _ _ _ h ih ih' => exact .leave ih' ih h
  | leaveSimple _ h ih => exact .leaveSimple ih h

theorem Runner.Calls.leads {run : Runner} (h : run.Calls g paired) : run.Leads :=
  fun _ _ _ _ _ hr => (h _ _ _ _ _ hr).leadsTo

theorem HookRunner.Calls.leads {hook : HookRunner} (h : hook.Calls g paired) : hook.Leads :=
  fun _ _ _ _ _ hr => (h _ _ _ _ _ hr).leadsTo

/-- Marker steps lead to every state that calls pass through. -/
theorem Session.Passes.leadsTo {limits : Limits} {caret : Option Nat}
    (h : (start limits caret).Passes g paired s) : (start limits caret).LeadsTo s :=
  (h.acts (inBounds_start g limits caret)).leadsTo

/-! ## Evaluation -/

namespace Grammar

/-- Whatever an expression does to the markers are marker steps. -/
theorem leadsTo_eval {level : Nat} {vars vars' : Vars} {e : Expr} {b : Bool} (fuel : Nat)
    (h : eval g fuel level vars e s = some (b, vars', t)) : s.LeadsTo t :=
  (calls_eval fuel h).leadsTo

theorem leads_runRef (g : Setup) (fuel : Nat) : (runRef g (eval g fuel)).Leads :=
  (calls_runRef (calls_eval fuel)).leads

theorem leads_runHook (g : Setup) (fuel : Nat) : (runHook (eval g fuel)).Leads :=
  (calls_runHook (calls_eval fuel)).leads

end Grammar

namespace Session

variable {root : Kind} {rule : RuleRef} {o : Output}

/-- Whatever a parse does to the markers are marker steps. -/
theorem leadsTo_parse (h : s.parse g fuel root rule = some o) : s.LeadsTo o.session :=
  (calls_parse h).leadsTo

/-- The log that a parse ends with is left behind by marker steps. -/
theorem reachable_parse {limits : Limits} {caret : Option Nat}
    (h : (start limits caret).parse g fuel root rule = some o) : o.session.log.Reachable := by
  obtain ⟨steps, hlog, -⟩ := (leadsTo_parse h).exists_steps
  have hempty := runSteps_congr (s := start limits caret) (t := {}) rfl rfl steps
  exact ⟨steps, hempty.1.trans hlog⟩

end Session

end Descent
