import Descent.Proofs.Grammar.LeadsTo
import Descent.Proofs.Grammar.Visits
import Descent.Proofs.Session.Asked

/-!
# From the states of a parse to its end

From every state that an expression comes to, marker steps lead to its end (`Grammar.Visits.leadsTo`), be
it a state of the expression itself or of a rule that is asked meanwhile. So from every state of a
parse marker steps lead to the end of the parse (`Session.Visited.leadsTo`).
-/

namespace Descent

open Session (LeadsTo)

/-- A rule that is asked gives an answer, from which marker steps lead to the end. -/
theorem Asks.exists_answer {α : Type} {f : Runner → α} {run : Runner} {rule : RuleRef}
    {level : Nat} {t s' : Session} (h : Asks f run rule level t)
    (hcongr : ∀ run', run.AgreesTo run' s' → f run' = f run) :
    ∃ b t', run rule level t = some (b, t') ∧ t'.LeadsTo s' := by
  obtain ⟨run', helsewhere, hne⟩ := h
  refine Classical.byContradiction fun hnot => hne (hcongr run' ?_)
  intro rule' level' u b u' hu hlead
  rw [helsewhere rule' level' u fun heq => hnot ?_]
  · exact hu
  · obtain ⟨rfl, rfl, rfl⟩ : rule' = rule ∧ level' = level ∧ u = t := by simpa using heq
    exact ⟨b, u', hu, hlead⟩

namespace Grammar

variable {g : Setup} {fuel level : Nat} {vars vars' : Vars} {e a : Expr} {b : Bool}
  {s s' t : Session}

/-- An expression is over when its first part is, or else when what is evaluated next is. -/
theorem eval_parts (ha : e.first? = some a)
    (h : eval g (fuel + 1) level vars e s = some (b, vars', s')) :
    ∃ x vars₁ s₁, eval g fuel level vars a s = some (x, vars₁, s₁) ∧ s₁.Calls g false s' ∧
      ∀ c, e.next? x = some c → ∃ y vars₂ s₂,
        eval g fuel level vars₁ c s₁ = some (y, vars₂, s₂) ∧ s₂.Calls g false s' := by
  have laws := evalLaws_calls g
  obtain ⟨⟨x, vars₁, s₁⟩, ⟨y, vars₂, s₂⟩, ha, hc, h⟩ := exists_finish ha h
  have hfinish : s₂.Calls g false s' := laws.finish (laws.related fuel) trivial h
  refine ⟨x, vars₁, s₁, ha, (laws.next (laws.related fuel) trivial hc).trans hfinish, ?_⟩
  intro c hnext
  rw [hnext] at hc
  exact ⟨y, vars₂, s₂, hc, hfinish⟩

/-- What a named rule answers is what its body comes to. -/
theorem exists_eval_of_runRef {name : String}
    (h : runRef g (eval g fuel) (.named name) level s = some (b, s')) :
    ∃ vars', eval g fuel level {} (g.grammar.body name) s = some (b, vars', s') := by
  obtain ⟨⟨x, vars', t⟩, heval, h⟩ := Option.bind_eq_some_iff.1 h
  cases h
  exact ⟨vars', heval⟩

/-- From every state that an expression comes to, marker steps lead to its end. -/
theorem Visits.leadsTo (h : Visits g fuel level vars e s t)
    (heval : eval g fuel level vars e s = some (b, vars', s')) : t.LeadsTo s' := by
  induction h generalizing b vars' s' with
  | begins => exact leadsTo_eval _ heval
  | ends h =>
    rw [h] at heval
    cases heval
    exact .refl _
  | first ha _ ih =>
    obtain ⟨x, vars₁, s₁, ha', hcalls, -⟩ := eval_parts ha heval
    exact (ih ha').trans hcalls.leadsTo
  | next ha heval₁ hb _ ih =>
    obtain ⟨x, vars₁, s₁, ha', -, hnext⟩ := eval_parts ha heval
    rw [heval₁] at ha'
    cases ha'
    obtain ⟨y, vars₂, s₂, hc, hcalls⟩ := hnext _ hb
    exact (ih hc).trans hcalls.leadsTo
  | guarded hguard _ ih =>
    simp only [eval, hguard] at heval
    obtain ⟨⟨x, vars₁, s₁⟩, ha, heval⟩ := Option.bind_eq_some_iff.1 heval
    cases heval
    exact (ih ha).trans (.still rfl)
  | called _ ih =>
    obtain ⟨⟨x, s₁⟩, hr, heval⟩ := Option.bind_eq_some_iff.1 heval
    cases heval
    obtain ⟨vars₁, hbody⟩ := exists_eval_of_runRef hr
    exact ih hbody
  | @leaving fuel _ _ _ _ _ _ _ _ _ _ _ _ _ _ _ _ _ _ _ _ hresult hpinned hm hasks _ ih =>
    have hrun := leads_runRef g fuel
    have hhook := leads_runHook g fuel
    simp only [eval, hresult, hpinned, hm, Option.bind_eq_bind, Option.bind_some] at heval
    obtain ⟨s₃, hleave, heval⟩ := Option.bind_eq_some_iff.1 heval
    cases heval
    obtain ⟨y, u, hanswer, hlead⟩ := hasks.exists_answer fun run' hagree =>
      (Session.leave_agree hrun hagree (Nat.le_refl _) hhook (fun _ _ _ _ h => h) hleave).trans
        hleave.symm
    obtain ⟨vars₁, hbody⟩ := exists_eval_of_runRef hanswer
    exact (ih hbody).trans (hlead.trans (.still rfl))
  | @grouping fuel _ _ _ _ _ _ _ _ _ _ _ hasks _ ih =>
    have hrun := leads_runRef g fuel
    obtain ⟨⟨x, s₁⟩, hgroup, heval⟩ := Option.bind_eq_some_iff.1 heval
    cases heval
    obtain ⟨y, u, hanswer, hlead⟩ := hasks.exists_answer fun run' hagree =>
      (Session.groupRun_agree hrun hagree (Nat.le_refl _) hgroup).trans hgroup.symm
    obtain ⟨vars₁, hbody⟩ := exists_eval_of_runRef hanswer
    exact (ih hbody).trans (hlead.trans (.still rfl))

end Grammar

/-- From every state of a parse marker steps lead to its end. -/
theorem Session.Visited.leadsTo {g : Setup} {fuel : Nat} {root : Kind} {rule : RuleRef}
    {limits : Limits} {caret : Option Nat} {t : Session} {o : Output}
    (h : Visited g fuel root rule limits caret t)
    (hparse : (start limits caret).parse g fuel root rule = some o) : t.LeadsTo o.session := by
  have hrunner := Grammar.leads_runRef g fuel
  have hhook := Grammar.leads_runHook g fuel
  obtain ⟨result, s, s', hrun, hleave, hsteady⟩ := session_of_parse hparse
  have hend : s'.LeadsTo o.session := .still hsteady.log
  cases h with
  | inside hrule hvisits =>
    subst hrule
    obtain ⟨vars, hbody⟩ := Grammar.exists_eval_of_runRef hrun
    have hleft : s.LeadsTo s' := .leave hhook hrunner hleave
    exact (hvisits.leadsTo hbody).trans (hleft.trans hend)
  | leaving hrun' hasks hvisits =>
    rw [hrun'] at hrun
    cases hrun
    obtain ⟨y, u, hanswer, hlead⟩ := hasks.exists_answer fun run' hagree =>
      (leave_agree hrunner hagree (Nat.le_refl _) hhook (fun _ _ _ _ h => h) hleave).trans hleave.symm
    obtain ⟨vars, hbody⟩ := Grammar.exists_eval_of_runRef hanswer
    exact (hvisits.leadsTo hbody).trans (hlead.trans hend)
  | ends h =>
    rw [h] at hparse
    cases hparse
    exact .refl _

end Descent
