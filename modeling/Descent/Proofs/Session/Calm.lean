import Descent.Session.TokenTest

/-!
# What token tests leave alone

A token test moves the position ahead and records what it looked for, and it may end the session.
`Calm s s'` says that nothing else has happened between two states: the marker log, the
sections, the hooks and the lookahead context are the same, and of the innermost frame no more than the
position of its last attempt has changed.
-/

namespace Descent

/-- Whether an event is neither the report of an error nor the end of a session. -/
def Event.isNeutral : Event → Bool
  | aborted _ | errorReported .. => false
  | _ => true

theorem Setup.le_significant (g : Setup) (i : Nat) : i ≤ g.significant i := Nat.le_add_right ..

namespace Session

/-- From `s` to `s'` no more has happened than in a token test. -/
structure Calm (s s' : Session) : Prop where
  log : s'.log = s.log
  quiet : s'.quiet = s.quiet
  hooks : s'.hooks = s.hooks
  level : s'.level = s.level
  lookahead : s'.lookahead = s.lookahead
  position : s.position ≤ s'.position
  aborted : s.isAborted = true → s'.aborted = s.aborted
  frames : ∃ a : Option Nat → Option Nat,
    s'.frames = s.frames.modifyHead fun f => { f with attemptAt := a f.attemptAt }

theorem frames_modifyHead_id (fs : List Frame) :
    fs = fs.modifyHead fun f => { f with attemptAt := id f.attemptAt } := by
  cases fs <;> rfl

namespace Calm

variable {g : Setup} {s s' s₁ s₂ : Session}

theorem refl (s : Session) : Calm s s :=
  ⟨rfl, rfl, rfl, rfl, rfl, Nat.le_refl _, fun _ => rfl, id, frames_modifyHead_id _⟩

theorem trans (h : Calm s s₁) (h' : Calm s₁ s₂) : Calm s s₂ := by
  obtain ⟨a, ha⟩ := h.frames
  obtain ⟨b, hb⟩ := h'.frames
  refine ⟨h'.log.trans h.log, h'.quiet.trans h.quiet, h'.hooks.trans h.hooks,
    h'.level.trans h.level, h'.lookahead.trans h.lookahead, Nat.le_trans h.position h'.position,
    fun hs => ?_, b ∘ a, ?_⟩
  · have hs₁ : s₁.isAborted = true := by rw [isAborted, h.aborted hs]; exact hs
    exact (h'.aborted hs₁).trans (h.aborted hs)
  · rw [hb, ha]
    cases s.frames <;> rfl

/-! ## Single steps -/

section
variable (g : Setup) (s : Session)

theorem seek {p : Nat} (h : s.position ≤ p) : Calm s { s with position := p } :=
  { refl s with position := h }

theorem toSignificant : Calm s (s.toSignificant g) := seek s (g.le_significant s.position)

theorem note (e : Event) : Calm s (s.note e) := { refl s with }

theorem recordCall (step : Step) (value : Value) : Calm s (s.recordCall step value) :=
  { refl s with }

theorem attempts (a : Attempts) : Calm s { s with attempts := a } := { refl s with }

theorem completion (c : Option Completion) : Calm s { s with completion := c } := { refl s with }

theorem abort (error : Fatal) : Calm s (s.abort g error) := by
  unfold Session.abort
  split
  · exact refl s
  · next hs =>
    have h := (note s (.aborted error)).trans (toSignificant g _)
    exact { h with aborted := fun h' => absurd h' hs }

theorem recordAttempt (position : Nat) (target : Target) :
    Calm s (s.recordAttempt position target) := by
  unfold Session.recordAttempt
  have h := attempts s (s.attempts.push s.lookahead.positive ⟨position, target⟩)
  split
  · exact { h with frames := ⟨fun a => later a (some position), rfl⟩ }
  · exact h

theorem offer (text : String) : Calm s (s.offer g text) := by
  unfold Session.offer
  split
  · exact refl s
  · exact (toSignificant g s).trans (completion _ _)

theorem offerIfPositive (text : String) : Calm s (s.offerIfPositive g text) := by
  unfold Session.offerIfPositive
  split
  · exact offer g s text
  · exact refl s

theorem announce (target : Target) : Calm s (s.announce g target) :=
  ((toSignificant g s).trans (recordAttempt _ _ _)).trans (offerIfPositive g _ _)

theorem expect (target : Target) : Calm s (s.expect g target) := by
  have h := toSignificant g s
  unfold Session.expect
  dsimp only
  split
  · exact h.trans (announce g _ target)
  · exact h

/-! ## Tests -/

theorem peekAny (kinds : List Kind) : Calm s (s.peekAny g kinds).2 := by
  unfold Session.peekAny
  split
  · exact refl s
  · exact toSignificant g s

theorem next (kind : Kind) : Calm s (s.next g kind).2 := by
  unfold Session.next
  split
  · exact refl s
  · split
    · exact refl s
    · exact (expect g s _).trans (peekAny g _ [kind])

theorem nextAny (name : Option String) (kinds : List Kind) : Calm s (s.nextAny g name kinds).2 := by
  have hfold (t : Session) : Calm t (kinds.foldl (fun s kind => s.announce g (.token kind)) t) := by
    induction kinds generalizing t with
    | nil => exact refl t
    | cons kind kinds ih => exact (announce g t _).trans (ih _)
  unfold Session.nextAny
  split
  · exact refl s
  split
  · exact refl s
  split
  · refine (toSignificant g s).trans (.trans ?_ (peekAny g _ kinds))
    cases name with
    | some name => exact recordAttempt _ _ _
    | none => exact hfold _
  · exact peekAny g s kinds

theorem take (kind : Kind) : Calm s (s.take g kind).2 := by
  have h : Calm s (s.peek g kind).2 := peekAny g s [kind]
  unfold Session.take
  split
  · next hp =>
    rw [hp] at h
    exact h.trans (seek _ (Nat.le_succ _))
  · next hp =>
    rw [hp] at h
    exact h

theorem consume (kind : Kind) : Calm s (s.consume g kind).2 := by
  unfold Session.consume
  split
  · exact refl s
  · exact (expect g s _).trans (take g _ kind)

theorem takeOffered (kind : Kind) : Calm s (s.takeOffered g kind).2 :=
  (offerIfPositive g s _).trans (take g _ kind)

theorem consumeLiteral (literal : String) : Calm s (s.consumeLiteral g literal).2 := by
  unfold Session.consumeLiteral
  split
  · exact refl s
  · have h := expect g s (.text literal)
    dsimp only
    split
    · exact h.trans (seek _ (Nat.le_add_right ..))
    · exact h

theorem nextLiteral (literal : String) : Calm s (s.nextLiteral g literal).2 := by
  unfold Session.nextLiteral
  split
  · exact refl s
  · split
    · exact refl s
    · exact expect g s (.text literal)

theorem stepOver : Calm s (s.stepOver g).2 := by
  have h := toSignificant g s
  unfold Session.stepOver
  dsimp only
  split
  · exact h
  · exact h.trans (seek _ (Nat.le_succ _))

theorem guardLevel (level : Nat) (rule : String) : Calm s (s.guardLevel g level rule).2 := by
  unfold Session.guardLevel
  split
  · exact refl s
  · dsimp only
    split
    · exact (toSignificant g s).trans (abort g _ _)
    · exact refl s

theorem guardProgress (rule : String) (position : Nat) :
    Calm s (s.guardProgress g rule position).2 := by
  unfold Session.guardProgress
  split
  · exact refl s
  · exact (toSignificant g s).trans (abort g _ _)

end

end Calm

end Session

end Descent
