import Descent.Proofs.Grammar.Visits
import Descent.Proofs.Session.NamedSections

/-!
# Paired runs of rules

Every step that opens no section makes a paired run (`Primitive.paired_run`), and so does every rule of a balanced
grammar, and every hook with a balanced body (`Grammar.paired`). So all states of a parse with such a grammar are
reached by entering and leaving sections in pairs (`Session.Visited.reached`).
-/

namespace Descent

open Grammar (eval runRef runHook)
open Session (Uncounted)

variable {fair : Expr → Prop} {g : Setup}

/-- Whatever a step does to markers, if it opens no section it leaves none. -/
theorem Primitive.paired_run {p : Primitive} (hp : p.opensSection = false) (level : Nat) (vars : Vars)
    (s : Session) : PairedRun fair g s (p.run g level vars s).session := by
  have hseek : PairedRun fair g s (s.toSignificant g) := .aside (.toSignificant g s)
  have hmarker (m : String) {f : Marker → Session → Session} (hf : ∀ x, s.Uncounted (f x s)) :
      PairedRun fair g s (withMarker vars m f s).session := by
    unfold withMarker
    split
    · exact .aside (hf _)
    · exact .refl s
  cases p with
  | enter | enterSimple => cases hp
  | guardLevel => exact .of_unrecorded (.guardLevel ..)
  | consume => exact .consume ..
  | take => exact .take ..
  | takeOffered => exact (PairedRun.offerIfPositive ..).trans (.take ..)
  | consumeLiteral => exact .consumeLiteral ..
  | nextLiteral => exact .nextLiteral ..
  | next => exact .next ..
  | peek => exact .peekAny ..
  | nextAny => exact .nextAny ..
  | peekAny => exact .peekAny ..
  | sequence => exact .consumeKinds ..
  | trySequence => exact .tryKinds ..
  | trySequenceSilent => exact .tryKinds ..
  | announce => exact .announce ..
  | advance => exact .of_unrecorded (.stepOver ..)
  | isAtEnd | textHere | offset => exact hseek
  | isAborted | remember | recursionCeiling | foreign => exact .refl s
  | guardProgress => exact .of_unrecorded (.guardProgress ..)
  | kindHere =>
    simp only [run, Outcome.session_find]
    exact hseek
  | kindOf =>
    simp only [run, Outcome.session_find]
    exact .refl s
  | openMarker => exact .aside (.openMarker g s)
  | wrap =>
    simp only [run]
    split
    · exact .aside (.wrap ..)
    · exact .refl s
  | lastCommitted =>
    simp only [run]
    split <;> exact .refl s
  | commit m kind => exact hmarker m fun x => .commit x kind none s
  | rollback m => exact hmarker m fun x => .rollback x s
  | drop m => exact hmarker m fun _ => .of_eq rfl rfl rfl

theorem Primitive.opensSection_of_isTest {p : Primitive} (hp : p.isTest = true) : p.opensSection = false := by
  cases p <;> first | rfl | cases hp

/-- A hook is fair if its body is balanced. -/
def Expr.BalancedBody (allows : Modifiers → Bool) (body : Expr) : Prop := body.after allows [] = some []

namespace Grammar

variable {allows : Modifiers → Bool} {fuel : Nat}

/-- All runs of rules are paired if those are that a rule may be asked for, and the hooks. -/
theorem laws_of_paired (hrun : (runRef g (eval g fuel)).Paired fair g)
    (hhook : (runHook (eval g fuel)).Paired fair g) :
    RunLaws (PairedRun fair g) (fun _ => True) (fun _ => True) allows g fuel where
  refl := .refl
  trans := .trans
  record _ _ _ := .aside (.of_eq rfl rfl rfl)
  report s := .aside (.reportHere g s)
  test hp _ := Primitive.paired_run (Primitive.opensSection_of_isTest hp) ..
  group _ _ h := .group hrun h
  simple {kind result s s₁ s₂} _ h hleave := by
    let sort : SectionSort := .simple
    have hbody : PairedRun fair g (sort.enter g s).2 s₁ := h
    have hsort : sort.leave g (runRef g (eval g fuel)) (runHook (eval g fuel)) fuel (sort.enter g s).1 kind
        result false none s₁ = some s₂ := hleave
    exact .inside hrun hhook hbody hsort
  framed {level modifiers early kind name result pinned eatMore s s₁ s₂} _ _ _ h hleave := by
    let sort : SectionSort := .framed level modifiers early name
    have hbody : PairedRun fair g (sort.enter g s).2 s₁ := h
    have hsort : sort.leave g (runRef g (eval g fuel)) (runHook (eval g fuel)) fuel (sort.enter g s).1 kind
        result pinned eatMore s₁ = some s₂ := hleave
    exact .inside hrun hhook hbody hsort

/-- The rules of a balanced grammar make paired runs, and so do hooks with a balanced body. -/
theorem paired (hg : g.grammar.Balanced allows) (fuel : Nat) :
    (runRef g (eval g fuel)).Paired (Expr.BalancedBody allows) g ∧
      (runHook (eval g fuel)).Paired (Expr.BalancedBody allows) g := by
  induction fuel using Nat.strongRecOn with
  | ind fuel ih =>
    have hkeeps : KeepsInside (PairedRun (Expr.BalancedBody allows) g) (fun _ => True) (fun _ => True) allows g
        fuel :=
      keepsInside_of_laws hg (asksOnly_true _) fuel fun n hn => laws_of_paired (ih n hn).1 (ih n hn).2
    refine ⟨fun rule level t b t' h => ?_, fun body m? t m?' t' hbody h => ?_⟩
    · exact related_runRef hg (asksOnly_true _) .refl (fun s => .of_unrecorded (.stepOver g s)) hkeeps
        (fun _ _ _ _ => trivial) h
    · obtain ⟨⟨b, vars, u⟩, hu, h⟩ := Option.bind_eq_some_iff.1 h
      cases h
      have hcall (value : Value) : PairedRun (Expr.BalancedBody allows) g t (t.recordCall .hookRun value) :=
        .aside (.of_eq rfl rfl rfl)
      cases hkeeps hu hbody (fun _ _ => trivial) (fun _ _ => trivial) (.none (.refl _)) with
      | none hrun => exact (hcall _).trans hrun

end Grammar

namespace Session

variable {allows : Modifiers → Bool} {fuel : Nat} {root : Kind} {rule : RuleRef} {limits : Limits}
  {caret : Option Nat} {s : Session}

/-- Whatever a balanced grammar does, it comes from a state that is reached to others. -/
theorem Reached.visitLaws (hg : g.grammar.Balanced allows) :
    VisitLaws (PairedRun (Expr.BalancedBody allows) g) allows g
      (Reached (Expr.BalancedBody allows) g limits caret) where
  runs fuel := Grammar.laws_of_paired (Grammar.paired hg fuel).1 (Grammar.paired hg fuel).2
  note e h := h.run (.aside (.of_eq rfl rfl rfl))
  run h hrun := h.run hrun
  simple h := h.enter .simple
  framed {level modifiers kind name _} _ h := h.enter (.framed level modifiers kind name)
  leaving {fuel level _ modifiers early _ name _ _ _ _ _ _ _} _ h hbody hasks := by
    obtain ⟨hrun, hhook⟩ := Grammar.paired hg fuel
    let sort : SectionSort := .framed level modifiers early name
    have hsort : PairedRun (Expr.BalancedBody allows) g (sort.enter g _).2 _ := hbody
    exact h.leaving hrun hhook hsort hasks
  grouping h hasks := h.grouping (Grammar.paired hg _).1 hasks

/-- In a parse with a balanced grammar sections are entered and left in pairs all the time. -/
theorem Visited.reached (hg : g.grammar.Balanced allows) (hroot : allows { collapse := true } = true)
    (h : Visited g fuel root rule limits caret s) : Reached (Expr.BalancedBody allows) g limits caret s :=
  (Reached.visitLaws hg).visited hg hroot .start h

end Session

end Descent
