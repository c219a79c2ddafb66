import Descent.Proofs.Grammar.BalancedRun

/-!
# Balanced grammars make balanced runs

Balanced runs fulfil the laws of runs, wherever sections are entered and whatever rules are asked. So the
rules of a balanced grammar make balanced runs only (`Grammar.balanced`).
-/

namespace Descent

open Grammar (eval runRef KeepsInside)

variable {allows : Modifiers → Bool} {g : Setup} {fuel : Nat}

/-- All runs of rules are balanced if those are that a rule may be asked for. -/
theorem BalancedRun.laws (hrun : Runner.Balanced allows g (runRef g (eval g fuel))) :
    RunLaws (BalancedRun allows g) (fun _ => True) (fun _ => True) allows g fuel where
  refl := .refl
  trans := .trans
  record step value s := .calm (.recordCall s step value)
  report := .report
  test ht _ := Primitive.balancedRun_of_isTest ht ..
  group _ _ h := .group hrun h
  simple _ h hleave := .simple h hleave
  framed hallows _ _ h hleave := .framed hallows hrun h hleave

/-- The sections `os` are open, and what was done meanwhile is balanced. -/
abbrev BalancedInside (allows : Modifiers → Bool) (g : Setup) :
    (level : Nat) → Vars → Session → List OpenSection → Session → Prop :=
  Inside (BalancedRun allows g) (fun _ => True) allows g

namespace Grammar

theorem asksOnly_true (grammar : Grammar) : grammar.AsksOnly fun _ => True := fun _ _ _ _ => trivial

/-- The rules of a balanced grammar make balanced runs. -/
theorem balanced (hg : g.grammar.Balanced allows) (fuel : Nat) :
    Runner.Balanced allows g (runRef g (eval g fuel)) := by
  induction fuel using Nat.strongRecOn with
  | ind fuel ih =>
    intro rule level s b s' h
    exact related_runRef hg (asksOnly_true _) .refl (fun s => .calm (.stepOver g s))
      (keepsInside_of_laws hg (asksOnly_true _) fuel fun n hn => BalancedRun.laws (ih n hn))
      (fun _ _ _ _ => trivial) h

/-- Evaluation opens and closes the sections that the expression says. -/
theorem keepsInside (hg : g.grammar.Balanced allows) (fuel : Nat) {level : Nat} {vars vars' : Vars}
    {s₀ s s' : Session} {os os' : List OpenSection} {e : Expr} {b : Bool}
    (h : eval g fuel level vars e s = some (b, vars', s')) (hafter : e.after allows os = some os')
    (hin : BalancedInside allows g level vars s₀ os s) :
    BalancedInside allows g level vars' s₀ os' s' :=
  keepsInside_of_laws hg (asksOnly_true _) fuel (fun n _ => BalancedRun.laws (balanced hg n)) h hafter
    (fun _ _ => trivial) (fun _ _ => trivial) hin

end Grammar

end Descent
