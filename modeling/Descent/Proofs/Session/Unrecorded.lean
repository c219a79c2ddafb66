import Descent.Proofs.Session.RunWork

/-!
# What records nothing

Besides the markers a session keeps what is recorded for messages: the attempts, and in each frame how far they
have come. Work on markers leaves all of that alone, with the sections that are open and the hooks that wait
(`Session.Unrecorded`). Of the frames it changes no more than the kind, which a section inside may supply, and
the error that is marked.
-/

namespace Descent

/-- The frame without its kind and the error that is marked in it. -/
def Frame.unmarked (f : Frame) : Frame := { f with kind := none, errorAt := none }

theorem Frame.unmarked_forgetErrorsAfter (f : Frame) (start : Nat) (fallback : Option Nat) :
    (f.forgetErrorsAfter start fallback).unmarked = f.unmarked := by
  unfold Frame.forgetErrorsAfter
  split <;> rfl

section
variable {f f' : Frame} (h : f'.unmarked = f.unmarked)
include h

theorem Frame.level_eq_of_unmarked : f'.level = f.level :=
  show f'.unmarked.level = f.unmarked.level from h ▸ rfl

theorem Frame.position_eq_of_unmarked : f'.position = f.position :=
  show f'.unmarked.position = f.unmarked.position from h ▸ rfl

theorem Frame.attemptAt_eq_of_unmarked : f'.attemptAt = f.attemptAt :=
  show f'.unmarked.attemptAt = f.unmarked.attemptAt from h ▸ rfl

end

namespace Session

/-- From `s` to `s'` nothing is recorded, the same sections stay open, and the same hooks wait. -/
structure Unrecorded (s s' : Session) : Prop where
  quiet : s'.quiet = s.quiet
  level : s'.level = s.level
  hooks : s'.hooks = s.hooks
  attempts : s'.attempts = s.attempts
  frames : s'.frames.map Frame.unmarked = s.frames.map Frame.unmarked

namespace Unrecorded

variable {s s₁ s' : Session}

theorem refl (s : Session) : s.Unrecorded s := ⟨rfl, rfl, rfl, rfl, rfl⟩

theorem trans (h : s.Unrecorded s₁) (h' : s₁.Unrecorded s') : s.Unrecorded s' :=
  ⟨h'.quiet.trans h.quiet, h'.level.trans h.level, h'.hooks.trans h.hooks, h'.attempts.trans h.attempts,
    h'.frames.trans h.frames⟩

theorem levels (h : s.Unrecorded s') : s'.frames.map Frame.level = s.frames.map Frame.level := by
  have hlevels (fs : List Frame) : fs.map Frame.level = (fs.map Frame.unmarked).map Frame.level := by
    rw [List.map_map]
    rfl
  rw [hlevels, h.frames, ← hlevels]

theorem hooksOpen (h : s.Unrecorded s') (hs : s.HooksOpen) : s'.HooksOpen := by
  rw [HooksOpen, h.hooks, h.level]
  exact hs

/-! ### Single steps -/

section
variable (g : Setup) (s)

theorem toSignificant : s.Unrecorded (s.toSignificant g) := { refl s with }

theorem note (e : Event) : s.Unrecorded (s.note e) := { refl s with }

theorem abort (error : Fatal) : s.Unrecorded (s.abort g error) := by
  unfold Session.abort
  split <;> exact { refl s with }

theorem openMarker : s.Unrecorded (s.openMarker g).2 := { refl s with }

theorem commit (m : Marker) (kind : Kind) (error : Option SyntaxError) :
    s.Unrecorded (s.commit m kind error) := by
  unfold Session.commit
  split <;> exact { refl s with }

theorem commitAs (m : Marker) (kind : Kind) : s.Unrecorded (s.commitAs m kind) := commit s m kind none

theorem drop (m : Marker) : s.Unrecorded (s.drop m) := { refl s with }

theorem rollback (m : Marker) : s.Unrecorded (s.rollback m) := by
  unfold Session.rollback
  split <;> exact { refl s with }

theorem wrap (m : Marker) : s.Unrecorded (s.wrap m).2 := by
  unfold Session.wrap
  dsimp only
  split <;> exact { refl s with }

theorem widen (m : Marker) : s.Unrecorded (s.widen m) := by
  unfold Session.widen
  split
  · exact refl s
  · refine (wrap s m).trans (.trans ?_ (drop _ m))
    split <;> exact commit ..

theorem widenOver (node : Option Marker) (site : Nat) : s.Unrecorded (s.widenOver node site) := by
  unfold Session.widenOver
  split
  · split
    · exact widen ..
    · exact refl s
  · exact refl s

theorem dropAny (m? : Option Marker) : s.Unrecorded (s.dropAny m?) := by
  cases m? with
  | some m => exact drop s m
  | none => exact refl s

theorem eraseSection (frame : Frame) (m : Marker) : s.Unrecorded (s.eraseSection frame m).2 :=
  rollback s m

theorem modifyFrame {f : Frame → Frame} (hf : ∀ x ∈ s.frames.head?, (f x).unmarked = x.unmarked) :
    s.Unrecorded (s.modifyFrame f) := by
  refine { refl s with frames := ?_ }
  show (s.frames.modifyHead f).map Frame.unmarked = _
  cases hframes : s.frames with
  | nil => rfl
  | cons x fs =>
    have hx := hf x (by rw [hframes]; rfl)
    exact congrArg (· :: fs.map Frame.unmarked) hx

theorem map_unmarked_supplyKind (kind : Kind) (fs : List Frame) :
    (supplyKind kind fs).map Frame.unmarked = fs.map Frame.unmarked := by
  induction fs with
  | nil => rfl
  | cons f fs ih =>
    unfold supplyKind
    split
    · rfl
    · rw [List.map_cons, ih, List.map_cons]

end

/-! ### What becomes of a marker -/

variable (g : Setup)

theorem absorbChild (frame : Frame) (kind : Kind) (s : Session) :
    s.Unrecorded (s.absorbChild g frame kind).2 := by
  unfold Session.absorbChild
  split
  · exact (note s _).trans (drop ..)
  · exact refl s

theorem placeNode (frame : Frame) (m : Marker) (kind : Kind) (s : Session) :
    s.Unrecorded (s.placeNode g frame m kind) := by
  unfold Session.placeNode
  split
  · exact { drop s m with frames := map_unmarked_supplyKind kind s.frames }
  · split
    · next left _ =>
      split
      · exact (commitAs s m kind).trans (widen ..)
      · exact ((drop s m).trans (wrap _ left)).trans (commitAs ..)
    · refine .trans ?_ (commitAs _ m kind)
      split
      · exact toSignificant s g
      · exact refl s

theorem leftMarker (frame : Frame) (m : Marker) (keeps : Bool) (s : Session) :
    s.Unrecorded (s.leftMarker g frame m keeps).2.2 := by
  have herase := eraseSection s frame m
  unfold Session.leftMarker
  split
  · unfold endLookahead
    dsimp only
    have hleft : s.Unrecorded { (s.eraseSection frame m).2 with
        lookahead := (s.eraseSection frame m).2.lookahead.leave
          (s.eraseSection frame m).1.modifiers } :=
      { herase with }
    cases keeps with
    | true => exact hleft.trans (openMarker _ g)
    | false => exact hleft
  · exact refl s

theorem settleMarker (frame : Frame) (m? : Option Marker) (kind : Option Kind) (stays : Bool)
    (s : Session) : s.Unrecorded (s.settleMarker g frame m? kind stays).2 := by
  unfold Session.settleMarker
  split
  · split
    · rw [commitShaped_eq]
      exact (absorbChild g frame _ s).trans (placeNode ..)
    · split
      · split
        · exact (dropAny ..).trans (widen ..)
        · exact dropAny ..
      · exact dropAny ..
  · split
    · exact eraseSection ..
    · exact refl s

/-- When a section is left, its frame is taken off, and its marker is settled. -/
theorem shape (frame : Frame) (frames : List Frame) (m : Marker) (kind : Option Kind)
    (result pinned : Bool) (s : Session) :
    { s with frames }.Unrecorded (s.shape g frame frames m kind result pinned).2 := by
  have hnote := note { s with frames } (.sectionLeft frame result pinned)
  unfold Session.shape
  rw [shapeSection_eq]
  exact hnote.trans ((leftMarker ..).trans (settleMarker ..))

theorem closeMarker (m : Marker) (kind : Option Kind) (result : Bool) (s : Session) :
    s.Unrecorded (s.closeMarker m kind result) := by
  unfold Session.closeMarker
  split
  · split
    · exact commitAs ..
    · exact drop ..
  · exact (modifyFrame s fun f _ => f.unmarked_forgetErrorsAfter ..).trans (rollback _ m)

end Unrecorded

end Session

end Descent
