import Descent.Proofs.Session.MirrorGrouping
import Descent.Proofs.Session.SectionActs

/-!
# Going on

Most of what is done to a session is `Smooth`: it does not go back, no fatal error is raised, and the hooks
stay as they are. A session `GoesOn` by such acts, and by those that raise a fatal error. What is `Lasting`
is kept by all that a loop of the session does by itself.
-/

namespace Descent.Session

variable {g : Setup} {s s₁ s' : Session}

/-- From `s` to `s'` the session does not go back, no fatal error is raised, and the hooks stay. -/
structure Smooth (s s' : Session) : Prop where
  position : s.position ≤ s'.position
  aborted : s'.aborted = s.aborted
  hooks : s'.hooks = s.hooks

namespace Smooth

theorem refl (s : Session) : Smooth s s := ⟨Nat.le_refl _, rfl, rfl⟩

theorem trans (h : Smooth s s₁) (h' : Smooth s₁ s') : Smooth s s' :=
  ⟨Nat.le_trans h.position h'.position, h'.aborted.trans h.aborted, h'.hooks.trans h.hooks⟩

section
variable (g) (s)

theorem toSignificant : Smooth s (s.toSignificant g) := ⟨g.le_significant s.position, rfl, rfl⟩

theorem note (e : Event) : Smooth s (s.note e) := { refl s with }

theorem openMarker : Smooth s (s.openMarker g).2 := { toSignificant g s with }

theorem drop (m : Marker) : Smooth s (s.drop m) := { refl s with }

theorem commit (m : Marker) (kind : Kind) (error : Option SyntaxError) :
    Smooth s (s.commit m kind error) := by
  unfold Session.commit
  split <;> exact { refl s with }

theorem commitAs (m : Marker) (kind : Kind) : Smooth s (s.commitAs m kind) := commit s m kind none

theorem wrap (m : Marker) : Smooth s (s.wrap m).2 := by
  unfold Session.wrap
  dsimp only
  split <;> exact { refl s with }

theorem widen (m : Marker) : Smooth s (s.widen m) := by
  unfold Session.widen
  split
  · exact refl s
  · dsimp only
    split
    · exact ((wrap s m).trans (commit ..)).trans (drop ..)
    · exact ((wrap s m).trans (commitAs ..)).trans (drop ..)

theorem widenOver (node : Option Marker) (site : Nat) : Smooth s (s.widenOver node site) := by
  unfold Session.widenOver
  split
  · split
    · exact widen ..
    · exact refl s
  · exact refl s

theorem insertError (error : SyntaxError) : Smooth s (s.insertError g error) :=
  (openMarker g s).trans (commit ..)

theorem report (site : Nat) (inner force : Bool) : Smooth s (s.report g site inner force).2 := by
  unfold Session.report
  split
  · exact refl s
  dsimp only
  split
  · exact toSignificant g s
  · generalize (s.toSignificant g).errorHere g _ = error
    have hnote (e : Event) := (toSignificant g s).trans (note _ e)
    split
    · exact (hnote _).trans (((insertError ..).trans (widenOver ..)).trans (toSignificant ..))
    · exact (hnote _).trans ((insertError ..).trans (toSignificant ..))

theorem reportFor (frame : Frame) (inner force : Bool) :
    Smooth s (s.reportFor g frame inner force).2.2 := by
  rw [session_reportFor]
  exact report ..

theorem modifyFrame (change : Frame → Frame) : Smooth s (s.modifyFrame change) := { refl s with }

theorem reportInFrame (site : Nat) (inner : Bool) : Smooth s (s.reportInFrame g site inner) := by
  have h := report g s site inner true
  unfold Session.reportInFrame
  split
  · next heq =>
    rw [heq] at h
    exact h.trans (modifyFrame ..)
  · next heq =>
    rw [heq] at h
    exact h

theorem reportHere : Smooth s (s.reportHere g) := by
  have hseek := toSignificant g s
  unfold Session.reportHere
  dsimp only
  split
  · exact hseek.trans (note ..)
  · split
    · exact hseek.trans (reportInFrame ..)
    · exact hseek

theorem reportAgain : Smooth s (s.reportAgain g) := by
  unfold Session.reportAgain
  split
  · exact refl s
  · split
    · exact refl s
    · split
      · exact (toSignificant g s).trans (reportInFrame ..)
      · exact refl s

theorem entering : Smooth s (s.entering g) := { reportAgain g s with }

theorem reportPinned (frame : Frame) (kind : Option Kind) (initial lastError : Nat) :
    Smooth s (s.reportPinned g frame kind initial lastError).2 := by
  unfold Session.reportPinned
  split
  · exact reportFor ..
  · split <;> exact refl s

theorem attemptsByName (frame : Frame) (kind : Option Kind) (stays : Bool) :
    Smooth s (s.attemptsByName g frame kind stays).2 := by
  unfold Session.attemptsByName
  split
  · exact refl s
  · dsimp only
    generalize (if kind.isSome then g.limits.nameSlack else 0) = slack
    split <;> exact { refl s with }

theorem clearAttempts (frame : Frame) : Smooth s (s.clearAttempts frame).2 := { refl s with }

theorem closeLevel : Smooth s s.closeLevel := { refl s with }

theorem stepOver : Smooth s (s.stepOver g).2 :=
  have hcalm := Calm.stepOver g s
  ⟨hcalm.position, (Still.stepOver (g := g) s).aborted, hcalm.hooks⟩

/-! ### Shaping -/

theorem dropAny (m? : Option Marker) : Smooth s (s.dropAny m?) := by
  cases m? with
  | none => exact refl s
  | some m => exact drop s m

theorem placeNode (frame : Frame) (m : Marker) (kind : Kind) :
    Smooth s (s.placeNode g frame m kind) := by
  unfold Session.placeNode
  split
  · exact { drop s m with }
  · split
    · split
      · exact (commitAs ..).trans (widen ..)
      · exact (drop ..).trans ((wrap ..).trans (commitAs ..))
    · split
      · exact (toSignificant g s).trans (commitAs ..)
      · exact commitAs ..

theorem commitShaped (frame : Frame) (m : Marker) (kind : Kind) :
    Smooth s (s.commitShaped g frame m kind) := by
  have habsorb : Smooth s (s.absorbChild g frame kind).2 := by
    unfold Session.absorbChild
    split
    · exact (note ..).trans (drop ..)
    · exact refl s
  rw [commitShaped_eq]
  exact habsorb.trans (placeNode ..)

/-! ### Chunks -/

theorem foldRounds (kind : Kind) (rounds : Nat) (c : Grouping) :
    Smooth s (s.foldRounds g kind rounds c).2 := by
  induction rounds generalizing c s with
  | zero => exact refl s
  | succ rounds ih =>
    simp only [Session.foldRounds]
    split
    · exact refl s
    · split
      · exact refl s
      · exact ((wrap ..).trans ((commitAs ..).trans (note ..))).trans (ih ..)

theorem foldFull (kind : Kind) (c : Grouping) : Smooth s (s.foldFull g kind c).2 :=
  foldRounds ..

theorem closeCurrent (kind : Kind) (c : Grouping) : Smooth s (s.closeCurrent kind c).2 := by
  unfold Session.closeCurrent
  split
  · exact refl s
  · exact commitAs ..

theorem foldIfFull (kind : Kind) (c : Grouping) : Smooth s (s.foldIfFull g kind c).2 := by
  unfold Session.foldIfFull
  split
  · exact (closeCurrent ..).trans (foldFull ..)
  · exact refl s

theorem openCurrent (c : Grouping) : Smooth s (s.openCurrent g c).2 := by
  unfold Session.openCurrent
  split
  · exact refl s
  · exact openMarker g s

theorem firstRegions (pair? : Option Delimiters) : Smooth s (s.firstRegions g pair?).2 := by
  cases pair? with
  | none => exact refl s
  | some pair =>
    show Smooth s (s.swallowedRegion g pair).2
    unfold Session.swallowedRegion
    dsimp only
    split
    · split
      · exact wrap ..
      · exact refl s
    · exact refl s

theorem dropOpen (c : Grouping) : Smooth s (s.dropOpen c) := by
  have hregions (rs : List Region) (u : Session) :
      Smooth u (rs.foldl (fun s region => s.drop region.marker) u) := by
    induction rs generalizing u with
    | nil => exact refl u
    | cons r rs ih => exact (drop u r.marker).trans (ih _)
  unfold Session.dropOpen
  refine .trans ?_ (hregions _ _)
  split
  · exact drop ..
  · exact refl s

theorem openRegion (pair : Delimiters) (token : Option Kind) (c : Grouping) :
    Smooth s (s.openRegion g pair token c).2 := by
  unfold Session.openRegion
  split
  · exact openMarker g s
  · exact refl s

theorem closeRegion (kind : Kind) (pair : Delimiters) (token : Option Kind) (c : Grouping) :
    Smooth s (s.closeRegion g kind pair token c).2 := by
  unfold Session.closeRegion
  split
  · split
    · exact refl s
    · exact (commitAs ..).trans (foldFull ..)
  · exact refl s

end

end Smooth

/-! ## What is kept on the way -/

theorem Acts.openRegion (pair : Delimiters) (token : Option Kind) (c : Grouping) (s : Session) :
    s.Acts g false (s.openRegion g pair token c).2 := by
  unfold Session.openRegion
  split
  · exact .openMarker s
  · exact .refl s

theorem Acts.closeRegion (kind : Kind) (pair : Delimiters) (token : Option Kind) (c : Grouping)
    (s : Session) : s.Acts g false (s.closeRegion g kind pair token c).2 := by
  unfold Session.closeRegion
  split
  · split
    · exact .refl s
    · exact .trans (.commitAs ..) (.foldFull ..)
  · exact .refl s

/-- Acts lead from `s` to `s'`, which neither go back nor touch the hooks. -/
structure GoesOn (g : Setup) (s s' : Session) : Prop where
  acts : s.Acts g false s'
  position : s.position ≤ s'.position
  hooks : s'.hooks = s.hooks

theorem Smooth.goesOn (h : Smooth s s') (hacts : s.Acts g false s') : GoesOn g s s' :=
  ⟨hacts, h.position, h.hooks⟩

namespace GoesOn

theorem refl (s : Session) : GoesOn g s s := (Smooth.refl s).goesOn (.refl s)

theorem trans (h : GoesOn g s s₁) (h' : GoesOn g s₁ s') : GoesOn g s s' :=
  ⟨h.acts.trans h'.acts, Nat.le_trans h.position h'.position, h'.hooks.trans h.hooks⟩

/-- So do tests, and fatal errors. -/
theorem calm (h : Calm s s') (hacts : s.Acts g false s') : GoesOn g s s' :=
  ⟨hacts, h.position, h.hooks⟩

theorem seek (g : Setup) (s : Session) : GoesOn g s (s.toSignificant g) :=
  .calm (.toSignificant g s) (.seek g s)

theorem note (s : Session) {e : Event} (he : e.isNeutral = true) : GoesOn g s (s.note e) :=
  .calm (.note s e) (.still (.note s he))

end GoesOn

/-- What holds in the source only, and stays true as the session goes on. -/
structure Lasting (g : Setup) (I : Session → Prop) : Prop where
  inBounds : ∀ {s}, I s → s.InBounds g
  goesOn : ∀ {s s'}, I s → GoesOn g s s' → I s'

namespace Lasting

variable {I : Session → Prop}

/-- Nothing but the source bounds it. -/
theorem source : Lasting g (·.InBounds g) := ⟨id, fun hs h => h.acts.inBounds hs⟩

/-- Neither does the session go back behind a position. -/
theorem beyond (h : Lasting g I) (p : Nat) : Lasting g fun s => I s ∧ p ≤ s.position :=
  ⟨fun hs => h.inBounds hs.1, fun hs ho => ⟨h.goesOn hs.1 ho, Nat.le_trans hs.2 ho.position⟩⟩

theorem seek (h : Lasting g I) (hs : I s) : I (s.toSignificant g) := h.goesOn hs (.seek g s)

theorem smooth (h : Lasting g I) (hs : I s) (hsmooth : Smooth s s') (hacts : s.Acts g false s') :
    I s' :=
  h.goesOn hs (hsmooth.goesOn hacts)

end Lasting

end Descent.Session
