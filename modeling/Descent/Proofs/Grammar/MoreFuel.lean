import Descent.Proofs.Grammar.LeadsTo
import Descent.Proofs.Session.Asked

/-!
# More fuel

Whatever a run comes to with some fuel it comes to with any more, be it the evaluation of an expression
(`Grammar.evalAgrees_of_le`) or a whole parse (`Session.parse_of_le`).
-/

namespace Descent

open Grammar (eval runRef runHook)

variable {g : Setup} {s : Session} {fuel fuel' level : Nat} {vars : Vars} {e : Expr}

namespace Grammar

/-- With the other fuel evaluation comes to all that it comes to with this one. -/
def EvalAgrees (g : Setup) (fuel fuel' : Nat) : Prop :=
  ∀ {level vars e s x}, eval g fuel level vars e s = some x → eval g fuel' level vars e s = some x

section
variable (h : EvalAgrees g fuel fuel')
include h

theorem EvalAgrees.bind {α : Type} {f f' : Bool × Vars × Session → Option α} {z : α}
    (hz : (eval g fuel level vars e s).bind f = some z)
    (hf : ∀ y, f y = some z → f' y = some z) : (eval g fuel' level vars e s).bind f' = some z := by
  obtain ⟨y, hy, hz⟩ := Option.bind_eq_some_iff.1 hz
  exact Option.bind_eq_some_iff.2 ⟨y, h hy, hf y hz⟩

theorem agrees_runRef {rule : RuleRef} {x : Bool × Session}
    (hrun : runRef g (eval g fuel) rule level s = some x) :
    runRef g (eval g fuel') rule level s = some x := by
  cases rule with
  | advance | always => exact hrun
  | named name => exact h.bind hrun fun _ hy => hy

theorem agreesTo_runRef (s : Session) :
    (runRef g (eval g fuel)).AgreesTo (runRef g (eval g fuel')) s :=
  fun _ _ _ _ _ hrun _ => agrees_runRef h hrun

theorem agreesWith_runHook : (runHook (eval g fuel)).AgreesWith (runHook (eval g fuel')) :=
  fun _ _ _ _ hrun => h.bind hrun fun _ hy => hy

theorem agrees_evalNext {next? : Option Expr} {y z : Bool × Vars × Session}
    (hz : evalNext g fuel level next? y = some z) : evalNext g fuel' level next? y = some z := by
  cases next? with
  | some c => exact h hz
  | none => exact hz

theorem agrees_finish (hle : fuel ≤ fuel') {x : Bool} {y z : Bool × Vars × Session}
    (hz : finish g fuel level e x y = some z) : finish g fuel' level e x y = some z := by
  cases e with
  | leave m kind result pinned eatMore deeper =>
    simp only [finish] at hz ⊢
    split at hz
    · obtain ⟨t, ht, hz⟩ := Option.bind_eq_some_iff.1 hz
      have hleave := Session.leave_agree (leads_runRef g fuel) (agreesTo_runRef h t) hle
        (leads_runHook g fuel) (agreesWith_runHook h) ht
      exact Option.bind_eq_some_iff.2 ⟨t, hleave, hz⟩
    · exact hz
  | leaveSimple m kind result =>
    simp only [finish] at hz ⊢
    split at hz
    · obtain ⟨t, ht, hz⟩ := Option.bind_eq_some_iff.1 hz
      have hleave := Session.leaveSimple_agree hle (agreesWith_runHook h) ht
      exact Option.bind_eq_some_iff.2 ⟨t, hleave, hz⟩
    · exact hz
  | _ => exact hz

end

theorem evalAgrees_of_le (hle : fuel ≤ fuel') : EvalAgrees g fuel fuel' := by
  induction fuel generalizing fuel' with
  | zero => exact fun h => nomatch h
  | succ fuel ih =>
    obtain ⟨fuel', rfl⟩ := Nat.exists_eq_add_one.2 (Nat.zero_lt_of_lt hle)
    have hle := Nat.le_of_succ_le_succ hle
    have ih : EvalAgrees g fuel fuel' := ih hle
    intro level vars e s x h
    cases hfirst : e.first? with
    | some a =>
      obtain ⟨y, z, hy, hz, hx⟩ := exists_finish hfirst h
      rw [eval_of_first? hfirst]
      exact Option.bind_eq_some_iff.2 ⟨y, ih hy, Option.bind_eq_some_iff.2
        ⟨z, agrees_evalNext ih hz, agrees_finish ih hle hx⟩⟩
    | none =>
      cases e with
      | const | flag | has | prim | hook => exact h
      | call rule =>
        obtain ⟨y, hy, h⟩ := Option.bind_eq_some_iff.1 h
        exact Option.bind_eq_some_iff.2 ⟨y, agrees_runRef ih hy, h⟩
      | guarded rule a =>
        simp only [eval] at h ⊢
        generalize s.guardLevel g level rule = x at h ⊢
        obtain ⟨starts, t⟩ := x
        cases starts with
        | false => exact h
        | true => exact ih.bind h fun _ hy => hy
      | groupRun chunk minds item eatMore =>
        obtain ⟨⟨b, t⟩, ht, h⟩ := Option.bind_eq_some_iff.1 h
        have hgroup := Session.groupRun_agree (leads_runRef g fuel) (agreesTo_runRef ih t) hle ht
        exact Option.bind_eq_some_iff.2 ⟨(b, t), hgroup, h⟩
      | _ => cases hfirst

end Grammar

/-- A parse that has an output has the same one with more fuel. -/
theorem Session.parse_of_le {root : Kind} {rule : RuleRef} {o : Output} (hle : fuel ≤ fuel')
    (h : s.parse g fuel root rule = some o) : s.parse g fuel' root rule = some o := by
  have hagrees : Grammar.EvalAgrees g fuel fuel' := Grammar.evalAgrees_of_le hle
  obtain ⟨y, hrun, h⟩ := Option.bind_eq_some_iff.1 h
  obtain ⟨t, ht, h⟩ := Option.bind_eq_some_iff.1 h
  have hleave := leave_agree (Grammar.leads_runRef g fuel) (Grammar.agreesTo_runRef hagrees t) hle
    (Grammar.leads_runHook g fuel) (Grammar.agreesWith_runHook hagrees) ht
  exact Option.bind_eq_some_iff.2 ⟨y, Grammar.agrees_runRef hagrees hrun,
    Option.bind_eq_some_iff.2 ⟨t, hleave, h⟩⟩

end Descent
