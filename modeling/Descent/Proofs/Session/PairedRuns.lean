import Descent.Proofs.Session.GivenBack
import Descent.Proofs.Session.Sequences
import Descent.Proofs.Session.Uncounted

/-!
# Paired runs

On the way from one state to another sections are entered and left in pairs (`PairedRun`), also by the rules that
are run meanwhile and by the hooks, whatever these are otherwise. All that matters of the rest is which attempts it
records and which hooks it leaves. Every token test makes such a run.
-/

namespace Descent

/-- Between the states sections are entered and left in pairs, and only `fair` hooks are left to them. -/
inductive PairedRun (fair : Expr → Prop) (g : Setup) : Session → Session → Prop
  /-- No attempt is recorded or given up. -/
  | aside {s s' : Session} (h : s.Uncounted s') : PairedRun fair g s s'
  | trans {s s₁ s₂ : Session} (h : PairedRun fair g s s₁) (h' : PairedRun fair g s₁ s₂) :
    PairedRun fair g s s₂
  | record (position : Nat) (target : Target) (s : Session) :
    PairedRun fair g s (s.recordAttempt position target)
  | hook {body : Expr} (hfair : fair body) (s : Session) : PairedRun fair g s (s.addHook body)
  | group {run : Runner} {rounds level : Nat} {kind : Kind} {minds b : Bool} {item eatMore : RuleRef}
    {s s' : Session} (hrun : ∀ rule level t b t', run rule level t = some (b, t') → PairedRun fair g t t')
    (h : s.groupRun g run rounds level kind minds item eatMore = some (b, s')) : PairedRun fair g s s'
  | inside {sort : SectionSort} {run : Runner} {hook : HookRunner} {rounds : Nat} {kind : Option Kind}
    {result pinned : Bool} {eatMore : Option RuleRef} {s s₁ s₂ : Session}
    (hrun : ∀ rule level t b t', run rule level t = some (b, t') → PairedRun fair g t t')
    (hhook : ∀ body m? t m?' t', fair body → hook body m? t = some (m?', t') → PairedRun fair g t t')
    (h : PairedRun fair g (sort.enter g s).2 s₁)
    (hleave : sort.leave g run hook rounds (sort.enter g s).1 kind result pinned eatMore s₁ = some s₂) :
    PairedRun fair g s s₂

/-- Whatever rule is run, the sections that it enters are left. -/
def Runner.Paired (fair : Expr → Prop) (g : Setup) (run : Runner) : Prop :=
  ∀ rule level t b t', run rule level t = some (b, t') → PairedRun fair g t t'

/-- Whatever fair hook is run, the sections that it enters are left. -/
def HookRunner.Paired (fair : Expr → Prop) (g : Setup) (hook : HookRunner) : Prop :=
  ∀ body m? t m?' t', fair body → hook body m? t = some (m?', t') → PairedRun fair g t t'

variable {fair : Expr → Prop} {g : Setup}

namespace PairedRun

open Session (Uncounted Unrecorded)

theorem refl (s : Session) : PairedRun fair g s s := .aside (.refl s)

theorem of_unrecorded {s s' : Session} (h : s.Unrecorded s') : PairedRun fair g s s' := .aside h.uncounted

/-! ## Token tests -/

theorem offerIfPositive (text : String) (s : Session) : PairedRun fair g s (s.offerIfPositive g text) :=
  .of_unrecorded (.offerIfPositive g s text)

theorem take (kind : Kind) (s : Session) : PairedRun fair g s (s.take g kind).2 := .of_unrecorded (.take g s kind)

theorem peekAny (kinds : List Kind) (s : Session) : PairedRun fair g s (s.peekAny g kinds).2 :=
  .of_unrecorded (.peekAny g s kinds)

theorem announce (target : Target) (s : Session) : PairedRun fair g s (s.announce g target) := by
  have hseek : PairedRun fair g s (s.toSignificant g) := .aside (.toSignificant g s)
  exact hseek.trans ((record _ target _).trans (offerIfPositive ..))

theorem expect (target : Target) (s : Session) : PairedRun fair g s (s.expect g target) := by
  have hseek : PairedRun fair g s (s.toSignificant g) := .aside (.toSignificant g s)
  unfold Session.expect
  dsimp only
  split
  · exact hseek.trans (announce ..)
  · exact hseek

theorem consume (kind : Kind) (s : Session) : PairedRun fair g s (s.consume g kind).2 := by
  unfold Session.consume
  split
  · exact refl s
  · exact (expect ..).trans (take ..)

theorem next (kind : Kind) (s : Session) : PairedRun fair g s (s.next g kind).2 := by
  unfold Session.next
  split
  · exact refl s
  · split
    · exact refl s
    · exact (expect ..).trans (peekAny ..)

theorem nextAny (name : Option String) (kinds : List Kind) (s : Session) :
    PairedRun fair g s (s.nextAny g name kinds).2 := by
  have hseek : PairedRun fair g s (s.toSignificant g) := .aside (.toSignificant g s)
  have hall (t : Session) : PairedRun fair g t (kinds.foldl (fun s kind => s.announce g (.token kind)) t) := by
    induction kinds generalizing t with
    | nil => exact refl t
    | cons kind kinds ih => exact (announce ..).trans (ih _)
  unfold Session.nextAny
  split
  · exact refl s
  split
  · exact refl s
  split
  · refine hseek.trans (.trans ?_ (peekAny ..))
    cases name with
    | some name => exact record ..
    | none => exact hall _
  · exact peekAny ..

theorem consumeLiteral (literal : String) (s : Session) : PairedRun fair g s (s.consumeLiteral g literal).2 := by
  unfold Session.consumeLiteral
  split
  · exact refl s
  · dsimp only
    split
    · exact (expect ..).trans (.aside (.of_eq rfl rfl rfl))
    · exact expect ..

theorem nextLiteral (literal : String) (s : Session) : PairedRun fair g s (s.nextLiteral g literal).2 := by
  unfold Session.nextLiteral
  split
  · exact refl s
  · split
    · exact refl s
    · exact expect ..

theorem consumeKinds (silent : Bool) (pin : Pin) (kinds : List Kind) (s : Session) :
    PairedRun fair g s (s.consumeKinds g silent pin kinds).2 := by
  have hone (first : Bool) (kind : Kind) (t : Session) :
      PairedRun fair g t (if first then t.take g kind else t.consume g kind).2 := by
    split
    · exact take ..
    · exact consume ..
  exact Session.related_consumeKinds_of_one silent refl hone (fun _ _ _ => trans)
    (fun t => .aside (.reportHere g t)) pin offerIfPositive (fun _ _ => .aside (.of_eq rfl rfl rfl)) kinds s

theorem tryKinds (silent : Bool) (pin : Pin) (kinds : List Kind) (s : Session) :
    PairedRun fair g s (s.tryKinds g silent pin kinds).2 := by
  have hopen : PairedRun fair g s (s.openMarker g).2 := .aside (.openMarker g s)
  have hrun := hopen.trans (consumeKinds silent pin kinds _)
  rw [Session.session_tryKinds]
  dsimp only
  split
  · exact hrun.trans (.aside (.of_eq rfl rfl rfl))
  · exact hrun.trans (.aside (.rollback ..))

end PairedRun

end Descent
