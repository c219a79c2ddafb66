import Descent.Proofs.Session.QuietRecovery

/-!
# What leaves the counts of attempts alone

Each open section knows how many expected attempts were recorded before it (`Session.counts`). Attempts are
recorded by token tests, and given up for the name of a section or after a recovery. Whatever else is done, be it
work on markers, reports, or what recovery and chunks do by themselves, leaves both the attempts and the counts as
they are, and leaves no hook to a section (`Session.Uncounted`).
-/

namespace Descent.Session

variable {g : Setup} {s s₁ s' : Session}

/-- How many expected attempts were recorded before each open section, the innermost first. -/
def counts (s : Session) : List Nat := s.frames.map (·.attemptsBefore)

/-- From `s` to `s'` no attempt is recorded or given up, the sections that are open keep their counts, and no hook
is left to them. -/
structure Uncounted (s s' : Session) : Prop where
  attempts : s'.attempts = s.attempts
  counts : s'.counts = s.counts
  hooks : ∀ h ∈ s'.hooks, h ∈ s.hooks

theorem Unrecorded.uncounted (h : s.Unrecorded s') : s.Uncounted s' where
  attempts := h.attempts
  counts := by
    have hcounts (fs : List Frame) :
        fs.map (·.attemptsBefore) = (fs.map Frame.unmarked).map (·.attemptsBefore) := by
      rw [List.map_map]
      rfl
    unfold Session.counts
    rw [hcounts, h.frames, ← hcounts]
  hooks _ hx := h.hooks ▸ hx

namespace Uncounted

theorem of_eq (hattempts : s'.attempts = s.attempts) (hframes : s'.frames = s.frames)
    (hhooks : s'.hooks = s.hooks) : s.Uncounted s' :=
  ⟨hattempts, congrArg (List.map Frame.attemptsBefore) hframes, fun _ hx => hhooks ▸ hx⟩

theorem refl (s : Session) : s.Uncounted s := of_eq rfl rfl rfl

theorem trans (h : s.Uncounted s₁) (h' : s₁.Uncounted s') : s.Uncounted s' :=
  ⟨h'.attempts.trans h.attempts, h'.counts.trans h.counts, fun x hx => h.hooks x (h'.hooks x hx)⟩

theorem toSignificant (g : Setup) (s : Session) : s.Uncounted (s.toSignificant g) := of_eq rfl rfl rfl

theorem abort (error : Fatal) (s : Session) : s.Uncounted (s.abort g error) :=
  (Unrecorded.abort s g error).uncounted

theorem openMarker (g : Setup) (s : Session) : s.Uncounted (s.openMarker g).2 := of_eq rfl rfl rfl

theorem commit (m : Marker) (kind : Kind) (error : Option SyntaxError) (s : Session) :
    s.Uncounted (s.commit m kind error) :=
  (Unrecorded.commit s m kind error).uncounted

theorem rollback (m : Marker) (s : Session) : s.Uncounted (s.rollback m) := (Unrecorded.rollback s m).uncounted

theorem wrap (m : Marker) (s : Session) : s.Uncounted (s.wrap m).2 := (Unrecorded.wrap s m).uncounted

theorem modifyFrame {f : Frame → Frame} (hf : ∀ x, (f x).attemptsBefore = x.attemptsBefore) (s : Session) :
    s.Uncounted (s.modifyFrame f) := by
  refine ⟨rfl, ?_, fun _ hx => hx⟩
  unfold Session.counts Session.modifyFrame
  cases s.frames with
  | nil => rfl
  | cons x fs => exact congrArg (· :: fs.map (·.attemptsBefore)) (hf x)

/-! ### Reports -/

theorem report (g : Setup) (site : Nat) (inner force : Bool) (s : Session) :
    s.Uncounted (s.report g site inner force).2 :=
  (Unrecorded.report g site inner force s).uncounted

theorem reportInFrame (g : Setup) (site : Nat) (inner : Bool) (s : Session) :
    s.Uncounted (s.reportInFrame g site inner) := by
  have h := report g site inner true s
  unfold Session.reportInFrame
  split
  · next heq =>
    rw [heq] at h
    refine h.trans (modifyFrame ?_ _)
    exact fun _ => rfl
  · next heq =>
    rw [heq] at h
    exact h

theorem reportHere (g : Setup) (s : Session) : s.Uncounted (s.reportHere g) := by
  unfold Session.reportHere
  dsimp only
  split
  · exact of_eq rfl rfl rfl
  · split
    · exact (toSignificant g s).trans (reportInFrame ..)
    · exact toSignificant g s

theorem reportAgain (g : Setup) (s : Session) : s.Uncounted (s.reportAgain g) := by
  unfold Session.reportAgain
  split
  · exact refl s
  · split
    · exact refl s
    · split
      · exact (toSignificant g s).trans (reportInFrame ..)
      · exact refl s

theorem reportFor (g : Setup) (frame : Frame) (inner force : Bool) (s : Session) :
    s.Uncounted (s.reportFor g frame inner force).2.2 := by
  rw [session_reportFor]
  exact report ..

theorem reportPinned (g : Setup) (frame : Frame) (kind : Option Kind) (initial lastError : Nat)
    (s : Session) : s.Uncounted (s.reportPinned g frame kind initial lastError).2 := by
  unfold Session.reportPinned
  split
  · exact reportFor ..
  · split <;> exact refl s

theorem leaveUnbalanced (level found : Nat) (m : Marker) (s : Session) :
    s.Uncounted (s.leaveUnbalanced g level found m) := by
  let sought := s.toSignificant g
  have habort : s.Uncounted (sought.abort g (.unbalanced level found (sought.offset g))) :=
    (toSignificant g s).trans (abort ..)
  exact habort.trans ((rollback m _).trans (.of_eq rfl rfl rfl))

end Uncounted

theorem attemptsBefore_reportFor (g : Setup) (frame : Frame) (inner force : Bool) (s : Session) :
    (s.reportFor g frame inner force).2.1.attemptsBefore = frame.attemptsBefore := by
  unfold reportFor
  split <;> rfl

/-! ## Entering and leaving -/

/-- A section that is opened counts the attempts recorded so far. -/
theorem openFrame_counts (level : Nat) (modifiers : Modifiers) (kind : Option Kind) (name : Option String)
    (s : Session) :
    let s' := s.openFrame g level modifiers kind name
    s'.attempts = s.attempts ∧ s'.counts = s.attempts.count :: s.counts ∧ ∀ h ∈ s'.hooks, h ∈ s.hooks := by
  rw [openFrame_putFrame]
  generalize hu : { s with level := s.level + 1 }.toSignificant g = u
  have hseek : s.Uncounted u := by
    rw [← hu]
    exact .of_eq rfl rfl rfl
  dsimp only
  generalize hv : (if u.lookahead.admits modifiers then u else _) = v
  have hopen : s.Uncounted v := by
    rw [← hv]
    split
    · exact hseek
    · exact hseek.trans (.abort ..)
  refine ⟨hopen.attempts, ?_, hopen.hooks⟩
  show u.attempts.count :: v.counts = s.attempts.count :: s.counts
  rw [hseek.attempts, hopen.counts]

/-- The marker of a section that is left is settled behind it. -/
theorem uncounted_shape (g : Setup) (frame : Frame) (frames : List Frame) (m : Marker) (kind : Option Kind)
    (result pinned : Bool) (s : Session) :
    { s with frames }.Uncounted (s.shape g frame frames m kind result pinned).2 :=
  (Unrecorded.shape g frame frames m kind result pinned s).uncounted

theorem exists_eraseSection (frame : Frame) (m : Marker) (s : Session) :
    ∃ error, (s.eraseSection frame m).1 = { frame with errorAt := error } := by
  unfold eraseSection Frame.forgetErrorsAfter
  dsimp only
  split
  · exact ⟨_, rfl⟩
  · exact ⟨frame.errorAt, rfl⟩

/-- Meanwhile its frame may forget an error, and note where the input was given back to. -/
theorem exists_shape (g : Setup) (frame : Frame) (frames : List Frame) (m : Marker) (kind : Option Kind)
    (result pinned : Bool) (s : Session) :
    ∃ error attempt, (s.shape g frame frames m kind result pinned).1 =
      { frame with errorAt := error, attemptAt := attempt } := by
  unfold shape
  rw [shapeSection_eq]
  generalize { s with frames }.note _ = noted
  have hleft : ∃ error attempt,
      (noted.leftMarker g frame m ((frame.kind <|> kind).isSome && (result || pinned))).2.1 =
        { frame with errorAt := error, attemptAt := attempt } := by
    unfold leftMarker
    split
    · obtain ⟨error, herase⟩ := exists_eraseSection frame m noted
      unfold endLookahead
      dsimp only
      rw [herase]
      split
      · exact ⟨error, _, rfl⟩
      · exact ⟨error, frame.attemptAt, rfl⟩
    · exact ⟨frame.errorAt, frame.attemptAt, rfl⟩
  obtain ⟨error, attempt, hleft⟩ := hleft
  generalize noted.leftMarker g frame m _ = x at hleft ⊢
  unfold settleMarker
  dsimp only
  rw [hleft]
  split
  · split
    · exact ⟨error, attempt, rfl⟩
    · split <;> exact ⟨error, attempt, rfl⟩
  · split
    · obtain ⟨error', herase⟩ :=
        exists_eraseSection { frame with errorAt := error, attemptAt := attempt } _ x.2.2
      exact ⟨error', attempt, herase⟩
    · exact ⟨error, attempt, rfl⟩

end Descent.Session
