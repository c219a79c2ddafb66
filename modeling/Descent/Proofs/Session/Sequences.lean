import Descent.Proofs.Session.Calm

/-!
# Sequences of tests

Tokens are consumed in order by single tests, with reports where these fail
(`Session.related_consumeKinds`). A sequence that is to report nothing unless it is pinned has only
tested tokens when it fails (`Session.calm_of_consumeKinds_failed`).
-/

namespace Descent.Session

section
variable {g : Setup} (silent : Bool)

/-- One token of a sequence is consumed. -/
theorem calm_consumeOne (kind : Kind) (s : Session) :
    Calm s (if silent then s.take g kind else s.consume g kind).2 := by
  split
  · exact .take g s kind
  · exact .consume g s kind

variable {R : Session → Session → Prop}

section
variable (hrefl : ∀ s, R s s)
  (hone : ∀ (first : Bool) (kind : Kind) (s : Session),
    R s (if first then s.take g kind else s.consume g kind).2)
  (htrans : ∀ s s₁ s₂, R s s₁ → R s₁ s₂ → R s s₂) (hreport : ∀ s, R s (s.reportHere g)) (pin : Pin)
include hrefl hone htrans hreport

theorem related_consumeRest (kinds : List Kind) (index : Nat) (result pinned : Bool)
    (s : Session) : R s (s.consumeRest g silent pin index result pinned kinds).2 := by
  induction kinds generalizing index result pinned s with
  | nil => exact hrefl s
  | cons kind kinds ih =>
    simp only [consumeRest]
    generalize (if 0 < index && pin == .after index then result else pinned) = pinned'
    split
    · have hconsume := hone (silent && index == 0) kind s
      generalize (if silent && index == 0 then s.take g kind else s.consume g kind) = x at hconsume
      refine htrans _ _ _ hconsume (htrans _ _ _ ?_ (ih ..))
      split
      · exact hreport _
      · exact hrefl _
    · exact ih ..

/-- What relates the states before and after the single tests of a sequence, its reports and its offer relates
those before and after the sequence. -/
theorem related_consumeKinds_of_one (hoffer : ∀ text s, R s (s.offerIfPositive g text))
    (hcompletion : ∀ c (s : Session), R s { s with completion := c }) (kinds : List Kind) (s : Session) :
    R s (s.consumeKinds g silent pin kinds).2 := by
  have hrest := related_consumeRest silent hrefl hone htrans hreport pin kinds 0 true false
  have hbegin := htrans _ _ _ (hoffer (" ".intercalate (kinds.map g.language.nameOf)) s)
    (hcompletion none _)
  exact htrans _ _ _ hbegin (htrans _ _ _ (hrest _) (hcompletion _ _))

end

/-- The tests of a sequence and its reports relate the states before and after. -/
theorem related_consumeKinds (hcalm : ∀ s s', Calm s s' → R s s')
    (htrans : ∀ s s₁ s₂, R s s₁ → R s₁ s₂ → R s s₂) (hreport : ∀ s, R s (s.reportHere g)) (pin : Pin)
    (kinds : List Kind) (s : Session) : R s (s.consumeKinds g silent pin kinds).2 :=
  related_consumeKinds_of_one silent (fun s => hcalm _ _ (.refl s))
    (fun first kind s => hcalm _ _ (calm_consumeOne first kind s)) htrans hreport pin
    (fun text s => hcalm _ _ (.offerIfPositive g s text)) (fun c s => hcalm _ _ (.completion s c)) kinds s

end

/-- A sequence that fails is given back. -/
theorem session_tryKinds (g : Setup) (silent : Bool) (pin : Pin) (kinds : List Kind) (s : Session) :
    (s.tryKinds g silent pin kinds).2 =
      let x := (s.openMarker g).2.consumeKinds g silent pin kinds
      if x.1 then x.2.drop (s.openMarker g).1 else x.2.rollback (s.openMarker g).1 := by
  unfold tryKinds
  dsimp only
  obtain ⟨_ | _, t⟩ := (s.openMarker g).2.consumeKinds g silent pin kinds <;> rfl

section
variable {g : Setup} {silent : Bool} {pin : Pin} {kinds : List Kind} {s : Session}

/-- The rest of a sequence that has failed is not looked at. -/
theorem consumeRest_failed (silent : Bool) (pin : Pin) (kinds : List Kind) (index : Nat) :
    s.consumeRest g silent pin index false false kinds = (false, s) := by
  induction kinds generalizing index with
  | nil => rfl
  | cons kind kinds ih => simpa [consumeRest] using ih (index + 1)

/-- A sequence that was pinned succeeds. -/
theorem fst_consumeRest_of_pinned {index : Nat} (result : Bool)
    (hindex : ∀ n, pin = .after n → n < index) :
    (s.consumeRest g silent pin index result true kinds).1 = true := by
  induction kinds generalizing index result s with
  | nil => exact Bool.true_or result
  | cons kind kinds ih =>
    have hnot : (pin == .after index) = false :=
      beq_eq_false_iff_ne.2 fun heq => Nat.lt_irrefl _ (hindex index heq)
    simp only [consumeRest, hnot, Bool.and_false, Bool.false_eq_true, if_false, Bool.or_true, if_true]
    exact ih _ fun n hn => Nat.lt_succ_of_lt (hindex n hn)

theorem calm_of_consumeRest_failed {index : Nat} {result : Bool} (hpin : pin ≠ .report)
    (hfailed : (s.consumeRest g silent pin index result false kinds).1 = false) :
    Calm s (s.consumeRest g silent pin index result false kinds).2 := by
  induction kinds generalizing index result s with
  | nil => exact .refl s
  | cons kind kinds ih =>
    simp only [consumeRest] at hfailed ⊢
    have hreports : (pin == .report) = false := beq_eq_false_iff_ne.2 hpin
    generalize hp : (if 0 < index && pin == .after index then result else false) = pinned at *
    cases pinned with
    | true =>
      -- the sequence has been pinned here, and no later token takes that back
      have hat : pin = .after index := by
        split at hp
        · next h => exact eq_of_beq (Bool.and_eq_true _ _ ▸ h).2
        · cases hp
      have hlater (n : Nat) (hn : pin = .after n) : n < index + 1 := by
        obtain rfl : index = n := by simpa [hat] using hn
        exact Nat.lt_succ_self _
      simp only [Bool.or_true, if_true, fst_consumeRest_of_pinned _ hlater] at hfailed
      cases hfailed
    | false =>
      simp only [hreports, Bool.or_false, Bool.and_false, Bool.false_eq_true, if_false] at hfailed ⊢
      cases result with
      | true => exact (calm_consumeOne (silent && index == 0) kind s).trans (ih hfailed)
      | false => exact ih hfailed

/-- A sequence that reports nothing unless it is pinned has reported nothing when it fails. -/
theorem calm_of_consumeKinds_failed (hpin : pin ≠ .report)
    (hfailed : (s.consumeKinds g silent pin kinds).1 = false) :
    Calm s (s.consumeKinds g silent pin kinds).2 := by
  let text := " ".intercalate (kinds.map g.language.nameOf)
  have hoffer : Calm s { s.offerIfPositive g text with completion := none } :=
    (Calm.offerIfPositive g s text).trans (.completion _ none)
  exact hoffer.trans ((calm_of_consumeRest_failed hpin hfailed).trans (.completion _ _))

end

end Descent.Session
