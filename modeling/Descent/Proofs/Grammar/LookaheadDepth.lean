import Descent.Proofs.Grammar.Calls
import Mathlib.Algebra.Group.Nat.Even

/-!
# The lookahead context and the open sections

As long as sections are left at the levels at which they were entered, the lookahead context can be
read off the open sections: its depth is the number of those that look ahead, and it is positive if an
even number of them turns it over (`Lookahead.Fits`). A frame that gets lost leaves the context deeper
than that, and so it stays. Either way no lookahead is ever misplaced
(`Session.lookahead_of_passes`).
-/

namespace Descent

namespace Modifiers

/-- Whether a section turns the context over. -/
def turnsOver (m : Modifiers) : Bool := m.notAhead && !m.ahead

end Modifiers

namespace Lookahead

/-- The context is the one that sections with the modifiers make. -/
structure Fits (c : Lookahead) (ms : List Modifiers) : Prop where
  depth : c.depth = ms.countP (·.looksAhead)
  positive : c.positive = true ↔ Even (ms.countP (·.turnsOver))

/-- The context fits the sections or is too deep for them. -/
def FitsOrExceeds (c : Lookahead) (ms : List Modifiers) : Prop :=
  c.Fits ms ∨ ms.countP (·.looksAhead) < c.depth

variable {c c' : Lookahead} {m : Modifiers} {ms : List Modifiers}

theorem Fits.unique (h : c.Fits ms) (h' : c'.Fits ms) : c = c' :=
  Lookahead.ext (h.depth.trans h'.depth.symm) (Bool.eq_iff_iff.2 (h.positive.trans h'.positive.symm))

/-- Outside of all lookahead sections the context is positive. -/
theorem Fits.positive_of_depth (h : c.Fits ms) (hc : c.depth = 0) : c.positive = true := by
  have hnone : ms.countP (·.turnsOver) ≤ ms.countP (·.looksAhead) :=
    List.countP_mono_left fun m _ hm => by
      simp only [Modifiers.turnsOver, Bool.and_eq_true] at hm
      simp [Modifiers.looksAhead, hm.1]
  rw [← h.depth, hc] at hnone
  rw [h.positive, Nat.le_zero.1 hnone]
  exact Even.zero

/-! ## What entering and leaving do -/

theorem Fits.enter (h : c.Fits ms) (m : Modifiers) : (c.enter m).Fits (m :: ms) := by
  have hdepth := h.depth
  have hpositive := h.positive
  unfold Lookahead.enter
  cases ha : m.ahead with
  | true =>
    refine ⟨?_, ?_⟩
    · simp [hdepth, Modifiers.looksAhead, ha]
    · simp [hpositive, Modifiers.turnsOver, ha]
  | false =>
    cases hn : m.notAhead with
    | true =>
      -- the context is turned over at any depth, as it is positive at depth zero
      have hturn : (c.depth != 0 && !c.positive) = !c.positive := by
        by_cases hc : c.depth = 0
        · simp [h.positive_of_depth hc]
        · simp [hc]
      refine ⟨?_, ?_⟩
      · simp [hdepth, Modifiers.looksAhead, ha, hn]
      · have hcount : (m :: ms).countP (·.turnsOver) = ms.countP (·.turnsOver) + 1 := by
          simp [Modifiers.turnsOver, ha, hn]
        simp only [Bool.false_eq_true, if_false, if_true, hturn]
        rw [hcount, Nat.even_add_one, ← hpositive, Bool.not_eq_true', Bool.not_eq_true]
    | false =>
      refine ⟨?_, ?_⟩
      · simp [hdepth, Modifiers.looksAhead, ha, hn]
      · simp [hpositive, Modifiers.turnsOver, ha, hn]

theorem Fits.leave (h : c.Fits (m :: ms)) : (c.leave m).Fits ms := by
  have hdepth := h.depth
  have hpositive := h.positive
  unfold Lookahead.leave
  cases ha : m.ahead with
  | true =>
    refine ⟨?_, ?_⟩
    · simp [hdepth, Modifiers.looksAhead, ha]
    · simpa [Modifiers.turnsOver, ha] using hpositive
  | false =>
    cases hn : m.notAhead with
    | true =>
      refine ⟨?_, ?_⟩
      · simp [hdepth, Modifiers.looksAhead, ha, hn]
      · have hcount : (m :: ms).countP (·.turnsOver) = ms.countP (·.turnsOver) + 1 := by
          simp [Modifiers.turnsOver, ha, hn]
        rw [hcount, Nat.even_add_one, ← not_iff_not, not_not] at hpositive
        simpa using hpositive
    | false =>
      refine ⟨?_, ?_⟩
      · simpa [Modifiers.looksAhead, ha, hn] using hdepth
      · simpa [Modifiers.turnsOver, ha, hn] using hpositive

theorem depth_enter (c : Lookahead) (m : Modifiers) :
    (c.enter m).depth = c.depth + if m.looksAhead then 1 else 0 := by
  unfold Lookahead.enter Modifiers.looksAhead
  cases m.ahead <;> cases m.notAhead <;> rfl

theorem depth_leave (c : Lookahead) (m : Modifiers) :
    (c.leave m).depth = c.depth - if m.looksAhead then 1 else 0 := by
  unfold Lookahead.leave Modifiers.looksAhead
  cases m.ahead <;> cases m.notAhead <;> rfl

namespace FitsOrExceeds

theorem enter (h : c.FitsOrExceeds ms) (m : Modifiers) : (c.enter m).FitsOrExceeds (m :: ms) := by
  rcases h with h | h
  · exact .inl (h.enter m)
  · refine .inr ?_
    rw [depth_enter, List.countP_cons]
    omega

theorem leave (h : c.FitsOrExceeds (m :: ms)) : (c.leave m).FitsOrExceeds ms := by
  rcases h with h | h
  · exact .inl h.leave
  · refine .inr ?_
    rw [List.countP_cons] at h
    rw [depth_leave]
    omega

/-- Without its frame a section that looks ahead makes the context too deep. -/
theorem tail (h : c.FitsOrExceeds ms) : c.FitsOrExceeds ms.tail := by
  cases ms with
  | nil => exact h
  | cons m ms =>
    rcases h with h | h
    · cases hm : m.looksAhead with
      | true =>
        refine .inr ?_
        rw [h.depth, List.countP_cons, if_pos hm]
        exact Nat.lt_succ_self _
      | false =>
        have hsame : c.leave m = c := Work.leave_of_not_looksAhead hm
        exact .inl (hsame ▸ h.leave)
    · refine .inr (Nat.lt_of_le_of_lt ?_ h)
      rw [List.countP_cons]
      exact Nat.le_add_right _ _

/-- Such a context admits every section. -/
theorem admits (h : c.FitsOrExceeds ms) (m : Modifiers) : c.admits m = true := by
  unfold Lookahead.admits
  by_cases hc : c.depth = 0
  · rcases h with h | h
    · simp [h.positive_of_depth hc]
    · omega
  · simp [hc]

end FitsOrExceeds

end Lookahead

namespace Session

variable {g : Setup} {paired : Bool} {s s' : Session}

/-- Paired acts keep the context that of the open sections. -/
theorem Acts.fits (h : s.Acts g true s') (hs : s.lookahead.Fits s.modifiers) :
    s'.lookahead.Fits s'.modifiers := by
  refine h.invariant (I := fun c ms _ _ => c.Fits ms) ?_ ?_ ?_ ?_ ?_ ?_ hs
  · exact fun _ _ _ _ _ _ h => h
  · exact fun _ _ _ _ _ _ _ h => h
  · exact fun _ _ _ _ _ h => h
  · exact fun _ _ _ _ m h => h.enter m
  · exact fun _ _ _ _ _ h => h.leave
  · exact fun he => absurd he (by decide)

/-- The context admits every section, and no lookahead has been misplaced. -/
structure Admits (c : Lookahead) (ms : List Modifiers) (a : Option Aborted) (es : List Event) :
    Prop where
  fits : c.FitsOrExceeds ms
  aborted : ∀ x offset, a = some x → x.error ≠ .misplacedLookahead offset
  events : ∀ offset, .aborted (.misplacedLookahead offset) ∉ es

theorem Acts.admits (h : s.Acts g paired s')
    (hs : Admits s.lookahead s.modifiers s.aborted s.trace) :
    Admits s'.lookahead s'.modifiers s'.aborted s'.trace := by
  refine h.invariant ?_ ?_ ?_ ?_ ?_ ?_ hs
  · intro c ms a e es he h
    refine { h with events := fun offset hmem => ?_ }
    rcases List.mem_cons.1 hmem with rfl | hmem
    · cases he
    · exact h.events offset hmem
  · intro c ms es position error advance inner h
    refine { h with events := fun offset hmem => ?_ }
    exact h.events offset ((List.mem_cons.1 hmem).resolve_left nofun)
  · intro c ms es a ha h
    have hne (offset : Nat) : a.error ≠ .misplacedLookahead offset := fun he => by
      obtain ⟨m, hm⟩ := ha offset he
      exact Bool.false_ne_true (hm.symm.trans (h.fits.admits m))
    refine ⟨h.fits, fun x offset hx => Option.some.inj hx ▸ hne offset, fun offset hmem => ?_⟩
    rcases List.mem_cons.1 hmem with heq | hmem
    · exact hne offset (Event.aborted.inj heq).symm
    · exact h.events offset hmem
  · exact fun c ms a es m h => { h with fits := h.fits.enter m }
  · exact fun c ms a es m h => { h with fits := h.fits.leave }
  · exact fun _ c ms a es h => { h with fits := h.fits.tail }

theorem fits_start (limits : Limits) (caret : Option Nat) :
    (start limits caret).lookahead.Fits (start limits caret).modifiers :=
  ⟨rfl, by simp [start, modifiers]⟩

/-- Before a level mismatch the depth of the lookahead context is the number of open sections that look
ahead, and the context is positive if an even number of them is negative and not positive as well. So
where the same sections are open again, the context is the same again. A lookahead is never misplaced,
mismatch or not. -/
theorem lookahead_of_passes (g : Setup) (limits : Limits) (caret : Option Nat) :
    (∀ s, (start limits caret).Passes g true s →
      s.lookahead.depth = s.frames.countP (·.modifiers.looksAhead) ∧
      (s.lookahead.positive = true ↔
        Even (s.frames.countP fun f => f.modifiers.notAhead && !f.modifiers.ahead)) ∧
      ∀ s', s.Passes g true s' → s'.modifiers = s.modifiers → s'.lookahead = s.lookahead) ∧
    ∀ s, (start limits caret).Passes g false s →
      (∀ modifiers, s.lookahead.admits modifiers = true) ∧
      (∀ a offset, s.aborted = some a → a.error ≠ .misplacedLookahead offset) ∧
      ∀ offset, .aborted (.misplacedLookahead offset) ∉ s.trace := by
  have hstart := inBounds_start g limits caret
  refine ⟨fun s hs => ?_, fun s hs => ?_⟩
  · have hacts := hs.acts hstart
    have hfits := hacts.fits (fits_start limits caret)
    have hdepth := hfits.depth
    have hpositive := hfits.positive
    rw [modifiers, List.countP_map] at hdepth hpositive
    refine ⟨hdepth, hpositive, fun s' hs' heq => ?_⟩
    have hfits' := (hs'.acts (hacts.inBounds hstart)).fits hfits
    rw [heq] at hfits'
    exact hfits'.unique hfits
  · have hadmits := (hs.acts hstart).admits
      ⟨.inl (fits_start limits caret), fun _ _ h => (by cases h), fun _ => List.not_mem_nil⟩
    exact ⟨hadmits.fits.admits, hadmits.aborted, hadmits.events⟩

/-- One token, which is no trivia. -/
def oneToken : Setup where
  source := { text := "a", tokens := [⟨⟨3⟩, ⟨0, 1⟩⟩] }
  language := (LanguageTable.toBareLanguage {})
  limits := default

/-- Leaves a section that fails nowhere, with rules and hooks that give no answer. -/
def leftQuietly (level : Nat) (m : Marker) (s : Session) : Option Session :=
  s.leave oneToken (fun _ _ _ => none) (fun _ _ _ => none) 1 level m none true false none

theorem matches_of_head? {level : Nat} (h : s.frames.head?.map (·.level) = some level) :
    s.Matches level := by
  obtain ⟨frame, hframe, hlevel⟩ := Option.map_eq_some_iff.1 h
  obtain ⟨frames, hframes⟩ := List.head?_eq_some_iff.1 hframe
  exact ⟨frame, frames, hframes, hlevel⟩

theorem calls_leftQuietly {level : Nat} {m : Marker} (hmatches : s.Matches level)
    (h : s.leftQuietly level m = some s') : s.Calls oneToken true s' := by
  refine .leave ?_ ?_ (fun _ => hmatches) h
  · intro _ _ _ _ _ hr
    cases hr
  · intro _ _ _ _ _ hr
    cases hr

/-- A positive lookahead is entered inside a negative one, and both are left again. -/
theorem lookahead_of_passes_nested : ∃ s s' : Session,
    (start {} none).Passes oneToken true s ∧ s.Passes oneToken true s' ∧
      s.modifiers = [{ ahead := true }, { notAhead := true }] ∧ s.lookahead = ⟨2, false⟩ ∧
      s'.modifiers = [] ∧ s'.lookahead = {} := by
  let outer : Primitive := .enter "outer" { notAhead := true } none none 0
  let inner : Primitive := .enter "inner" { ahead := true } none none 1
  let s₀ := start {} none
  let s₁ := (outer.run oneToken 0 {} s₀).session
  let s₂ := (inner.run oneToken 0 {} s₁).session
  let s₃ := (s₂.leftQuietly 1 ⟨1⟩).getD s₂
  let s₄ := (s₃.leftQuietly 0 ⟨0⟩).getD s₃
  have hleft : s₂.leftQuietly 1 ⟨1⟩ = some s₃ := by decide +kernel
  have hleft' : s₃.leftQuietly 0 ⟨0⟩ = some s₄ := by decide +kernel
  have hmatches : s₂.Matches 1 := matches_of_head? (by decide +kernel)
  have hmatches' : s₃.Matches 0 := matches_of_head? (by decide +kernel)
  have hmodifiers : s₄.modifiers = [] := by decide +kernel
  have henter : s₀.Calls oneToken true s₂ := .trans (.step outer 0 {} s₀) (.step inner 0 {} s₁)
  have hleave : s₂.Calls oneToken true s₄ :=
    (calls_leftQuietly hmatches hleft).trans (calls_leftQuietly hmatches' hleft')
  have hcounts := (lookahead_of_passes oneToken {} none).1
  obtain ⟨hdepth, hpositive, -⟩ := hcounts s₂ (.calls henter)
  obtain ⟨-, -, hback⟩ := hcounts s₀ (.calls (.none s₀))
  have hlookahead : s₂.lookahead = ⟨2, false⟩ := by
    refine Lookahead.ext hdepth (Bool.eq_false_iff.2 fun h => ?_)
    exact absurd (hpositive.1 h) (by decide)
  refine ⟨s₂, s₄, .calls henter, .calls hleave, rfl, hlookahead, hmodifiers, ?_⟩
  exact hback s₄ (.calls (henter.trans hleave)) hmodifiers

end Session

end Descent
