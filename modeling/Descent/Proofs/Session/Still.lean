import Descent.Proofs.MarkerLog.Every
import Descent.Proofs.Session.SkipAll

/-!
# What leaves markers, sections and fatal errors alone

From `s` to `s'` all is `Still` if the markers are the same, the lookahead context and the modifiers of
the open sections are, no error has been reported and no fatal error raised. Token tests are of that
kind (`Still.consume` and so on), except for the guards, and none of them leaves the source
(`Session.InBounds`).
-/

namespace Descent

theorem Setup.significant_le {g : Setup} {i : Nat} (h : i ≤ g.source.size) :
    g.significant i ≤ g.source.size := by
  have hlen := (List.takeWhile_sublist (l := g.source.tokens.drop i) fun t : Token =>
    g.language.isTrivia t.kind).length_le
  rw [List.length_drop] at hlen
  unfold Setup.significant
  unfold Source.size at h ⊢
  omega

/-- The section began in the source, and so far it has come. -/
structure Frame.InBounds (g : Setup) (f : Frame) : Prop where
  position : f.position ≤ g.source.size
  attemptAt : ∀ p, f.attemptAt = some p → p ≤ g.source.size

theorem Frame.InBounds.errorPosition {g : Setup} {f : Frame} (h : f.InBounds g) :
    f.errorPosition ≤ g.source.size := by
  unfold Frame.errorPosition
  cases ha : f.attemptAt with
  | none => exact h.position
  | some p => exact h.attemptAt p ha

theorem Frame.InBounds.recordAttempt {g : Setup} {f : Frame} (h : f.InBounds g) {p : Nat}
    (hp : p ≤ g.source.size) : (f.recordAttempt p).InBounds g := by
  refine ⟨h.position, fun q hq => ?_⟩
  cases ha : f.attemptAt with
  | none =>
    obtain rfl : p = q := by simpa [Frame.recordAttempt, later, ha] using hq
    exact hp
  | some a =>
    obtain rfl : max a p = q := by simpa [Frame.recordAttempt, later, ha] using hq
    exact Nat.max_le.2 ⟨h.attemptAt a ha, hp⟩

theorem Frame.InBounds.absorb {g : Setup} {f inner : Frame} (h : f.InBounds g)
    (hinner : inner.InBounds g) : (f.absorb inner).InBounds g := by
  refine ⟨h.position, fun q hq => ?_⟩
  cases ha : inner.attemptAt with
  | none =>
    have hkept : (f.absorb inner).attemptAt = f.attemptAt := by
      rw [Frame.absorb, ha]
      cases f.attemptAt <;> rfl
    exact h.attemptAt q (hkept ▸ hq)
  | some a =>
    have hle := (h.recordAttempt (hinner.attemptAt a ha)).attemptAt q
    exact hle (by simpa [Frame.absorb, Frame.recordAttempt, ha] using hq)

namespace Session

/-- The session is in the source with all it may go back to. -/
structure InBounds (g : Setup) (s : Session) : Prop where
  position : s.position ≤ g.source.size
  starts : s.log.Every fun n _ => n ≤ g.source.size
  frames : ∀ f ∈ s.frames, f.InBounds g

/-- The modifiers of the open sections, the innermost first. -/
def modifiers (s : Session) : List Modifiers := s.frames.map (·.modifiers)

/-- From `s` to `s'` nothing happens to markers and sections, and no error is raised. -/
structure Still (g : Setup) (s s' : Session) : Prop where
  log : s'.log = s.log
  lookahead : s'.lookahead = s.lookahead
  aborted : s'.aborted = s.aborted
  modifiers : s'.modifiers = s.modifiers
  trace : ∃ later, s'.trace = later ++ s.trace ∧ ∀ e ∈ later, e.isNeutral = true
  inBounds : s.InBounds g → s'.InBounds g

namespace Still

variable {g : Setup} {s s₁ s' : Session}

theorem refl (s : Session) : Still g s s := ⟨rfl, rfl, rfl, rfl, ⟨[], rfl, by simp⟩, id⟩

theorem trans (h : Still g s s₁) (h' : Still g s₁ s') : Still g s s' := by
  obtain ⟨later, ht, hl⟩ := h.trace
  obtain ⟨later', ht', hl'⟩ := h'.trace
  refine ⟨h'.log.trans h.log, h'.lookahead.trans h.lookahead, h'.aborted.trans h.aborted,
    h'.modifiers.trans h.modifiers, ⟨later' ++ later, ?_, ?_⟩, h'.inBounds ∘ h.inBounds⟩
  · rw [ht', ht, List.append_assoc]
  · exact fun e he => (List.mem_append.1 he).elim (hl' e) (hl e)

/-! ## Single changes -/

section
variable (s)

theorem seek {p : Nat} (hp : s.InBounds g → p ≤ g.source.size) :
    Still g s { s with position := p } :=
  { refl (g := g) s with inBounds := fun h => { h with position := hp h } }

theorem toSignificant : Still g s (s.toSignificant g) :=
  seek s fun h => Setup.significant_le h.position

theorem note {e : Event} (he : e.isNeutral = true) : Still g s (s.note e) :=
  { refl (g := g) s with trace := ⟨[e], rfl, by simpa using he⟩, inBounds := fun h => { h with } }

theorem attempts (a : Attempts) : Still g s { s with attempts := a } :=
  { refl (g := g) s with inBounds := fun h => { h with } }

theorem completion (c : Option Completion) : Still g s { s with completion := c } :=
  { refl (g := g) s with inBounds := fun h => { h with } }

theorem recordCall (step : Step) (value : Value) : Still g s (s.recordCall step value) :=
  { refl (g := g) s with inBounds := fun h => { h with } }

theorem level (n : Nat) : Still g s { s with level := n } :=
  { refl (g := g) s with inBounds := fun h => { h with } }

theorem quiet (b : Bool) : Still g s { s with quiet := b } :=
  { refl (g := g) s with inBounds := fun h => { h with } }

theorem hooks (hs : List Hook) : Still g s { s with hooks := hs } :=
  { refl (g := g) s with inBounds := fun h => { h with } }

/-- The frames may change but for their modifiers, as long as they stay in the source. -/
theorem frames {fs : List Frame} (hmodifiers : fs.map (·.modifiers) = s.modifiers)
    (hfs : s.InBounds g → ∀ f ∈ fs, f.InBounds g) : Still g s { s with frames := fs } :=
  { refl (g := g) s with
    modifiers := hmodifiers
    inBounds := fun h => { h with frames := hfs h } }

theorem modifyFrame {f : Frame → Frame} (hmodifiers : ∀ x, (f x).modifiers = x.modifiers)
    (hf : s.InBounds g → ∀ x, x.InBounds g → (f x).InBounds g) : Still g s (s.modifyFrame f) := by
  refine frames s ?_ fun h => ?_
  · unfold Session.modifiers
    cases s.frames with
    | nil => rfl
    | cons x xs => exact congrArg (· :: _) (hmodifiers x)
  · have hframes := h.frames
    cases hs : s.frames with
    | nil => simp
    | cons x xs =>
      rw [hs] at hframes
      obtain ⟨hx, hxs⟩ := List.forall_mem_cons.1 hframes
      exact List.forall_mem_cons.2 ⟨hf h x hx, hxs⟩

/-! ## Recording -/

theorem recordAttempt {position : Nat} (hp : s.InBounds g → position ≤ g.source.size)
    (target : Target) : Still g s (s.recordAttempt position target) := by
  have h := attempts (g := g) s (s.attempts.push s.lookahead.positive ⟨position, target⟩)
  unfold Session.recordAttempt
  dsimp only
  split
  · refine h.trans (modifyFrame _ (fun _ => rfl) fun hb x hx => hx.recordAttempt ?_)
    exact hp { hb with }
  · exact h

theorem offer (text : String) : Still g s (s.offer g text) := by
  unfold Session.offer
  split
  · exact refl s
  · exact (toSignificant s).trans (completion _ _)

theorem offerIfPositive (text : String) : Still g s (s.offerIfPositive g text) := by
  unfold Session.offerIfPositive
  split
  · exact offer s text
  · exact refl s

theorem announce (target : Target) : Still g s (s.announce g target) :=
  ((toSignificant s).trans (recordAttempt _ (·.position) _)).trans (offerIfPositive _ _)

theorem expect (target : Target) : Still g s (s.expect g target) := by
  unfold Session.expect
  dsimp only
  split
  · exact (toSignificant s).trans (announce _ target)
  · exact toSignificant s

/-! ## Tests -/

theorem peekAny (kinds : List Kind) : Still g s (s.peekAny g kinds).2 := by
  unfold Session.peekAny
  split
  · exact refl s
  · exact toSignificant s

theorem next (kind : Kind) : Still g s (s.next g kind).2 := by
  unfold Session.next
  split
  · exact refl s
  · split
    · exact refl s
    · exact (expect s _).trans (peekAny _ [kind])

theorem nextAny (name : Option String) (kinds : List Kind) :
    Still g s (s.nextAny g name kinds).2 := by
  have hfold (t : Session) :
      Still g t (kinds.foldl (fun s kind => s.announce g (.token kind)) t) := by
    induction kinds generalizing t with
    | nil => exact refl t
    | cons kind kinds ih => exact (announce t _).trans (ih _)
  unfold Session.nextAny
  split
  · exact refl s
  split
  · exact refl s
  split
  · refine (toSignificant s).trans (.trans ?_ (peekAny _ kinds))
    cases name with
    | some name => exact recordAttempt _ (·.position) _
    | none => exact hfold _
  · exact peekAny s kinds

theorem take (kind : Kind) : Still g s (s.take g kind).2 := by
  unfold Session.take
  split
  · next t ht =>
    have hpeek : Still g s (s.peek g kind).2 := peekAny s [kind]
    rw [ht] at hpeek
    refine hpeek.trans (seek t fun _ => lt_size_of_isAtEnd ?_)
    -- the token that was seen is there
    unfold peek Session.peekAny at ht
    split at ht
    · cases ht
    · obtain ⟨hseen, rfl⟩ := Prod.mk.inj ht
      unfold isAtEnd
      cases hk : (s.toSignificant g).kindHere? g with
      | some k => rfl
      | none => rw [hk] at hseen; cases hseen
  · next t ht =>
    have hpeek : Still g s (s.peek g kind).2 := peekAny s [kind]
    rw [ht] at hpeek
    exact hpeek

theorem consume (kind : Kind) : Still g s (s.consume g kind).2 := by
  unfold Session.consume
  split
  · exact refl s
  · exact (expect s _).trans (take _ kind)

theorem takeOffered (kind : Kind) : Still g s (s.takeOffered g kind).2 :=
  (offerIfPositive s _).trans (take _ kind)

/-- A literal ends in the source. -/
theorem literalLength?_le {literal : String} {n : Nat}
    (h : s.literalLength? g literal = some n) : s.position + n ≤ g.source.size := by
  unfold literalLength? at h
  dsimp only at h
  split at h
  · have hfind := (Option.filter_eq_some_iff.1 h).1
    have hmem := List.mem_range'_1.1 (List.mem_of_find?_eq_some hfind)
    omega
  · cases h

theorem consumeLiteral (literal : String) : Still g s (s.consumeLiteral g literal).2 := by
  unfold Session.consumeLiteral
  split
  · exact refl s
  · dsimp only
    split
    · next n hn => exact (expect s _).trans (seek _ fun _ => literalLength?_le _ hn)
    · exact expect s _

theorem nextLiteral (literal : String) : Still g s (s.nextLiteral g literal).2 := by
  unfold Session.nextLiteral
  split
  · exact refl s
  · split
    · exact refl s
    · exact expect s (.text literal)

theorem stepOver : Still g s (s.stepOver g).2 := by
  unfold Session.stepOver
  dsimp only
  split
  · exact toSignificant s
  · next hend =>
    refine (toSignificant s).trans (seek _ fun _ => lt_size_of_isAtEnd ?_)
    exact Bool.eq_false_iff.2 hend

/-! ## Leaving -/

theorem clearAttempts (frame : Frame) : Still g s (s.clearAttempts frame).2 := by
  have hreset (fs : List Frame) : (resetCounts fs).map (·.modifiers) = fs.map (·.modifiers) ∧
      ((∀ f ∈ fs, f.InBounds g) → ∀ f ∈ resetCounts fs, f.InBounds g) := by
    induction fs with
    | nil => exact ⟨rfl, id⟩
    | cons f fs ih =>
      unfold resetCounts
      split
      · exact ⟨rfl, id⟩
      · refine ⟨congrArg (f.modifiers :: ·) ih.1, fun h => ?_⟩
        obtain ⟨hf, hfs⟩ := List.forall_mem_cons.1 h
        exact List.forall_mem_cons.2 ⟨{ hf with }, ih.2 hfs⟩
  unfold Session.clearAttempts
  refine (attempts s s.attempts.clear).trans ?_
  split
  · exact frames _ (hreset s.frames).1 fun h => (hreset s.frames).2 h.frames
  · exact frames _ rfl (·.frames)

theorem attemptsByName (frame : Frame) (kind : Option Kind) (stays : Bool) :
    Still g s (s.attemptsByName g frame kind stays).2 := by
  unfold Session.attemptsByName
  split
  · exact refl s
  · dsimp only
    generalize (if kind.isSome then g.limits.nameSlack else 0) = slack
    split
    · exact attempts s _
    · exact refl s

theorem supplyKind (kind : Kind) : Still g s { s with frames := supplyKind kind s.frames } := by
  have hsupply (fs : List Frame) :
      (Session.supplyKind kind fs).map (·.modifiers) = fs.map (·.modifiers) ∧
        ((∀ f ∈ fs, f.InBounds g) → ∀ f ∈ Session.supplyKind kind fs, f.InBounds g) := by
    induction fs with
    | nil => exact ⟨rfl, id⟩
    | cons f fs ih =>
      unfold Session.supplyKind
      split
      · refine ⟨rfl, fun h => ?_⟩
        obtain ⟨hf, hfs⟩ := List.forall_mem_cons.1 h
        exact List.forall_mem_cons.2 ⟨{ hf with }, hfs⟩
      · refine ⟨congrArg (f.modifiers :: ·) ih.1, fun h => ?_⟩
        obtain ⟨hf, hfs⟩ := List.forall_mem_cons.1 h
        exact List.forall_mem_cons.2 ⟨hf, ih.2 hfs⟩
  exact frames s (hsupply s.frames).1 fun h => (hsupply s.frames).2 h.frames

end

end Still

end Session

end Descent
