import Descent.Proofs.Grammar.BalancedRun
import Descent.Proofs.MarkerLog.Rooted
import Descent.Proofs.Session.Skipping

/-!
# What balanced runs hold on to

A balanced run that begins while the marker `m` is open below all others finds it so at its end, and
the sections open around the run are open again, at their levels, with their modifiers and with the
nodes they are to take up (`BalancedRun.held`). `Held m q base s` says so of a single state: `base`
lists what is to stay of the frames, and `q` is whether a recovery is under way.
-/

namespace Descent

open Session (Calm)

/-- What nothing inside a section changes in its frame. -/
structure FrameShape where
  level : Nat
  modifiers : Modifiers
  leftNode : Option Marker

def Frame.shape (f : Frame) : FrameShape := ⟨f.level, f.modifiers, f.leftNode⟩

structure Held (m : Marker) (q : Bool) (base : List FrameShape) (s : Session) : Prop where
  rooted : s.log.Rooted m
  quiet : s.quiet = q
  hooks : s.hooks = []
  frames : s.frames.map Frame.shape = base
  left : ∀ f ∈ base, f.leftNode ≠ some m

/-- A runner whose runs hold on to `m`. -/
def Runner.Holds (run : Runner) (m : Marker) : Prop :=
  ∀ q base rule level s b s', Held m q base s → run rule level s = some (b, s') → Held m q base s'

theorem map_modifyHead_shape {f : Frame → Frame} (hf : ∀ x, (f x).shape = x.shape)
    (fs : List Frame) : (fs.modifyHead f).map Frame.shape = fs.map Frame.shape := by
  cases fs with
  | nil => rfl
  | cons x fs => simp [hf]

namespace Held

variable {g : Setup} {m x : Marker} {q : Bool} {base : List FrameShape} {s s' : Session}

theorem calm (h : Held m q base s) (hc : Calm s s') : Held m q base s' where
  rooted := hc.log ▸ h.rooted
  quiet := hc.quiet.trans h.quiet
  hooks := hc.hooks.trans h.hooks
  frames := by
    obtain ⟨a, ha⟩ := hc.frames
    have hf (f : Frame) : { f with attemptAt := a f.attemptAt }.shape = f.shape := rfl
    rw [ha, map_modifyHead_shape hf]
    exact h.frames
  left := h.left

theorem setFrames (h : Held m q base s) {fs : List Frame}
    (hf : fs.map Frame.shape = s.frames.map Frame.shape) :
    Held m q base { s with frames := fs } :=
  { h with frames := hf.trans h.frames }

theorem modifyFrame (h : Held m q base s) {f : Frame → Frame} (hf : ∀ x, (f x).shape = x.shape) :
    Held m q base (s.modifyFrame f) :=
  h.setFrames (map_modifyHead_shape hf s.frames)

theorem setQuiet (h : Held m q base s) (q' : Bool) : Held m q' base { s with quiet := q' } :=
  { h with quiet := rfl }

/-! ## Markers -/

theorem openMarker (h : Held m q base s) :
    Held m q base (s.openMarker g).2 ∧ (s.openMarker g).1 ≠ m :=
  ⟨{ h with rooted := h.rooted.openAt _ }, h.rooted.fresh_ne⟩

theorem commit (h : Held m q base s) (hx : x ≠ m) (kind : Kind) (error : Option SyntaxError) :
    Held m q base (s.commit x kind error) := by
  have hc := h.rooted.commit hx kind error s.position
  unfold Session.commit
  split <;> exact { h with rooted := hc }

theorem drop (h : Held m q base s) (hx : x ≠ m) : Held m q base (s.drop x) :=
  { h with rooted := h.rooted.drop hx }

theorem wrap (h : Held m q base s) (hx : x ≠ m) :
    Held m q base (s.wrap x).2 ∧ (s.wrap x).1 ≠ m := by
  unfold Session.wrap
  dsimp only
  split
  · exact ⟨{ h with rooted := h.rooted.wrap hx }, h.rooted.fresh_ne⟩
  · exact ⟨{ h with rooted := h.rooted.wrap hx }, h.rooted.fresh_ne⟩

theorem rollback (h : Held m q base s) (hx : x ≠ m) : Held m q base (s.rollback x) := by
  unfold Session.rollback
  split
  · next hr => exact { h with rooted := h.rooted.rollback hx hr }
  · exact h

theorem widen (h : Held m q base s) (hx : x ≠ m) : Held m q base (s.widen x) := by
  unfold Session.widen
  split
  · exact h
  · obtain ⟨hw, hne⟩ := h.wrap hx
    dsimp only
    split
    · exact (hw.commit hne _ _).drop hx
    · exact (hw.commit hne _ _).drop hx

theorem invariant (g : Setup) (m : Marker) (q : Bool) (base : List FrameShape) :
    MarkerInvariant g (Held m q base) (· ≠ m) fun _ => True where
  calm := calm
  openMarker := openMarker
  commitAs kind h hx _ := h.commit hx kind none
  drop := drop
  wrap h hx := h.wrap (hx.elim id h.rooted.ne_of_lastCommitted?)

/-! ## Reports -/

theorem widenOver (h : Held m q base s) {node : Option Marker} (hx : ∀ x, node = some x → x ≠ m)
    (site : Nat) : Held m q base (s.widenOver node site) := by
  unfold Session.widenOver
  split
  · next x =>
    split
    · exact h.widen (hx x rfl)
    · exact h
  · exact h

theorem insertError (h : Held m q base s) (error : SyntaxError) :
    Held m q base (s.insertError g error) := by
  obtain ⟨ho, hne⟩ := h.openMarker (g := g)
  exact ho.commit hne _ _

theorem report (h : Held m q base s) (site : Nat) (inner force : Bool) :
    Held m q base (s.report g site inner force).2 := by
  unfold Session.report
  split
  · exact h
  · have h₁ := h.calm (.toSignificant g s)
    dsimp only
    split
    · exact h₁
    · have h₂ := h₁.calm (.note _ (.errorReported (s.toSignificant g).position
        ((s.toSignificant g).errorHere g ((s.toSignificant g).expectedHere g)) false inner))
      refine calm ?_ (.toSignificant g _)
      split
      · exact (h₂.insertError _).widenOver (fun x hx => h₂.rooted.ne_of_lastWidenable? hx) site
      · exact h₂.insertError _

theorem reportFor (h : Held m q base s) (frame : Frame) (inner force : Bool) :
    Held m q base (s.reportFor g frame inner force).2.2 := by
  rw [Session.session_reportFor]
  exact h.report frame.position inner force

theorem reportInFrame (h : Held m q base s) (site : Nat) (inner : Bool) :
    Held m q base (s.reportInFrame g site inner) := by
  have hr := h.report (g := g) site inner true
  unfold Session.reportInFrame
  split
  · next heq =>
    rw [heq] at hr
    exact hr.modifyFrame fun _ => rfl
  · next heq =>
    rw [heq] at hr
    exact hr

theorem reportHere (h : Held m q base s) : Held m q base (s.reportHere g) := by
  have h₁ := h.calm (.toSignificant g s)
  unfold Session.reportHere
  dsimp only
  split
  · exact h₁.calm (.note _ _)
  · split
    · exact h₁.reportInFrame _ _
    · exact h₁

theorem reportAgain (h : Held m q base s) : Held m q base (s.reportAgain g) := by
  unfold Session.reportAgain
  split
  · exact h
  · split
    · exact h
    · split
      · exact (h.calm (.toSignificant g s)).reportInFrame _ _
      · exact h

end Held

end Descent
