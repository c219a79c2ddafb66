import Descent.Proofs.Grammar.Inside
import Descent.Proofs.Session.Sequences

/-!
# Balanced runs

What a rule of balanced sections does to a session falls into few kinds of steps: token tests,
reports, a group of chunks, and sections with a balanced run inside. `BalancedRun allows g s s'`
says that such steps lead from `s` to `s'`, with no section whose modifiers are not allowed. What
is to hold along every run of every balanced grammar is shown by induction on it.
-/

namespace Descent

open Session (Calm)

/-- Steps that leave no section open lead from one state to another. -/
inductive BalancedRun (allows : Modifiers → Bool) (g : Setup) : Session → Session → Prop where
  | calm {s s' : Session} (h : Calm s s') : BalancedRun allows g s s'
  | trans {s s₁ s₂ : Session} (h : BalancedRun allows g s s₁) (h' : BalancedRun allows g s₁ s₂) :
    BalancedRun allows g s s₂
  | report (s : Session) : BalancedRun allows g s (s.reportHere g)
  /-- What a sequence of tokens consumed is kept or given back. -/
  | attempt {s s₁ : Session} (keeps : Bool) (h : BalancedRun allows g (s.openMarker g).2 s₁) :
    BalancedRun allows g s
      (if keeps then s₁.drop (s.openMarker g).1 else s₁.rollback (s.openMarker g).1)
  | group {run : Runner} {rounds level : Nat} {kind : Kind} {minds : Bool}
    {item eatMore : RuleRef} {b : Bool} {s s' : Session}
    (hrun : ∀ rule level s b s', run rule level s = some (b, s') → BalancedRun allows g s s')
    (h : s.groupRun g run rounds level kind minds item eatMore = some (b, s')) :
    BalancedRun allows g s s'
  | simple {hook : HookRunner} {rounds : Nat} {kind : Option Kind} {result : Bool}
    {s s₁ s₂ : Session} (h : BalancedRun allows g (s.enterSimple g).2 s₁)
    (hleave : s₁.leaveSimple g hook rounds (s.enterSimple g).1 kind result = some s₂) :
    BalancedRun allows g s s₂
  | framed {run : Runner} {hook : HookRunner} {rounds level : Nat} {modifiers : Modifiers}
    {early kind : Option Kind} {name : Option String} {result pinned : Bool}
    {eatMore : Option RuleRef} {s s₁ s₂ : Session} (hallows : allows modifiers = true)
    (hrun : ∀ rule level s b s', run rule level s = some (b, s') → BalancedRun allows g s s')
    (h : BalancedRun allows g (s.enter g level modifiers early name).2 s₁)
    (hleave : s₁.leave g run hook rounds level (s.enter g level modifiers early name).1 kind result
      pinned eatMore = some s₂) :
    BalancedRun allows g s s₂

variable {allows : Modifiers → Bool} {g : Setup}

/-- All runs of rules are balanced. -/
def Runner.Balanced (allows : Modifiers → Bool) (g : Setup) (run : Runner) : Prop :=
  ∀ rule level s b s', run rule level s = some (b, s') → BalancedRun allows g s s'

/-! ## Tests -/

namespace BalancedRun

theorem refl (s : Session) : BalancedRun allows g s s := .calm (.refl s)

theorem consumeKinds (silent : Bool) (pin : Pin) (kinds : List Kind) (s : Session) :
    BalancedRun allows g s (s.consumeKinds g silent pin kinds).2 :=
  Session.related_consumeKinds silent (fun _ _ => calm) (fun _ _ _ => trans) report pin kinds s

theorem tryKinds (silent : Bool) (pin : Pin) (kinds : List Kind) (s : Session) :
    BalancedRun allows g s (s.tryKinds g silent pin kinds).2 := by
  rw [Session.session_tryKinds]
  exact attempt _ (consumeKinds silent pin kinds _)

end BalancedRun

namespace Primitive

theorem balancedRun_of_isTest {p : Primitive} (h : p.isTest = true) (level : Nat) (vars : Vars)
    (s : Session) : BalancedRun allows g s (p.run g level vars s).session := by
  cases hp : p.isSingle with
  | true => exact .calm (calm_of_isSingle hp g level vars s)
  | false =>
    cases p with
    | sequence => exact .consumeKinds ..
    | trySequence => exact .tryKinds ..
    | trySequenceSilent => exact .tryKinds ..
    | _ => simp_all [isSingle, isTest]

end Primitive

end Descent
