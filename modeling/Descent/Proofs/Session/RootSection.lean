import Descent.Parse
import Descent.Proofs.Session.HeldSections
import Descent.Proofs.Session.SkipAll
import Descent.Proofs.Session.Spares

/-!
# The root section

A parse runs the root rule inside a section of its own, the root section.
-/

namespace Descent

open Grammar (runRef runHook eval)
open Session (Calm)

namespace Session

/-- The state in which the root rule begins, and the marker of the root section. -/
def enterRoot (g : Setup) (limits : Limits) (caret : Option Nat) : Marker × Session :=
  ((start limits caret).note (.parseStarted g.source.size)).enter g 0 { collapse := true } none none

theorem parse_eq (g : Setup) (fuel : Nat) (root : Kind) (rule : RuleRef) (limits : Limits)
    (caret : Option Nat) :
    (start limits caret).parse g fuel root rule =
      (runRef g (eval g fuel) rule 1 (enterRoot g limits caret).2).bind fun x =>
        (x.2.leave g (runRef g (eval g fuel)) (runHook (eval g fuel)) fuel 0
          (enterRoot g limits caret).1 (some root) x.1 true (some .always)).bind fun s =>
            some (s.output g root) :=
  rfl

/-- What is fixed of the frame of the root section. -/
def rootShape : FrameShape := ⟨0, { collapse := true }, none⟩

theorem held_enterRoot (g : Setup) (limits : Limits) (caret : Option Nat) :
    Held (enterRoot g limits caret).1 false [rootShape] (enterRoot g limits caret).2 where
  rooted := by
    refine ⟨(MarkerLog.Sound.empty).openAt _, ⟨_, rfl, rfl⟩, rfl⟩
  quiet := rfl
  hooks := rfl
  frames := rfl
  left := by simp [rootShape]

/-! ## Closing it -/

/-- From `s` to `s'` the root section with marker `m` was closed, which took the error of `child`
away and no other one. -/
structure Closed (g : Setup) (m : Marker) (child : Option Marker) (s s' : Session) : Prop where
  outermost : s'.log.Outermost m
  latest : s'.log.lastWidenable? = some m
  errors : s'.log.HasErrors ↔ ∃ x, s.log.IsError x ∧ child ≠ some x
  position : s'.position = g.significant s.position
  quiet : s'.quiet = s.quiet
  hooks : s'.hooks = s.hooks
  aborted : s'.aborted = s.aborted

variable {g : Setup} {m : Marker} {s : Session} {f : Frame}

/-- A child that is kept in place of its section is no longer there. -/
theorem absorbChild_spec (h : s.log.Rooted m) (hf : f.modifiers.collapse = true) (kind : Kind) :
    (s.absorbChild g f kind).2.log.Rooted m ∧
      ((s.absorbChild g f kind).2.log.HasErrors ↔
        ∃ x, s.log.IsError x ∧ s.absorbable? g f kind ≠ some x) ∧
      (s.absorbChild g f kind).2.position = s.position ∧
      (s.absorbChild g f kind).2.quiet = s.quiet ∧ (s.absorbChild g f kind).2.hooks = s.hooks ∧
      (s.absorbChild g f kind).2.aborted = s.aborted := by
  unfold absorbChild
  rw [if_pos hf]
  cases hchild : s.absorbable? g f kind with
  | none => exact ⟨h, by simp [MarkerLog.HasErrors], rfl, rfl, rfl, rfl⟩
  | some child =>
    have hlast : s.log.lastCommitted? = some child := (Option.filter_eq_some_iff.1 hchild).1
    have hne : child ≠ m := h.ne_of_lastCommitted? hlast
    refine ⟨h.drop hne, ?_, rfl, rfl, rfl, rfl⟩
    simp only [MarkerLog.HasErrors, note, log_drop, MarkerLog.isError_drop, ne_eq,
      Option.some.injEq]

theorem shapeSection_root (h : s.log.Rooted m) (hf : f.shape = rootShape) (kind : Kind) :
    ∃ s', s.shapeSection g f m (some kind) true = (f, s') ∧
      Closed g m (s.absorbable? g f kind) s s' := by
  obtain ⟨hlevel, hmodifiers, hleft⟩ :
      f.level = 0 ∧ f.modifiers = { collapse := true } ∧ f.leftNode = none := by
    simpa [Frame.shape, rootShape] using hf
  have hshape : s.shapeSection g f m (some kind) true = (f, s.commitShaped g f m kind) := by
    rw [shapeSection_eq]
    simp [leftMarker, settleMarker, Modifiers.looksAhead, hmodifiers]
  obtain ⟨hrooted, herrors, hposition, hquiet, hhooks, haborted⟩ :=
    absorbChild_spec (g := g) h (by rw [hmodifiers]) kind
  refine ⟨_, hshape, ?_⟩
  simp only [commitShaped_eq, placeNode, hmodifiers, hlevel, hleft, if_true, Bool.false_eq_true,
    if_false]
  generalize (s.absorbChild g f kind).1 = kind'
  generalize (s.absorbChild g f kind).2 = t at hrooted herrors hposition hquiet hhooks haborted
  obtain ⟨hout, hlast⟩ := hrooted.outermost kind' (t.toSignificant g).position
  have hlog : ((t.toSignificant g).commitAs m kind').log =
      t.log.commit m kind' none (t.toSignificant g).position := log_commit ..
  rw [← hlog] at hout hlast
  have hfields : ((t.toSignificant g).commitAs m kind').position = g.significant t.position ∧
      ((t.toSignificant g).commitAs m kind').quiet = t.quiet ∧
      ((t.toSignificant g).commitAs m kind').hooks = t.hooks ∧
      ((t.toSignificant g).commitAs m kind').aborted = t.aborted := by
    unfold commitAs commit
    split <;> exact ⟨rfl, rfl, rfl, rfl⟩
  rw [hposition, hquiet, hhooks, haborted] at hfields
  refine ⟨hout, hlast, ?_, hfields.1, hfields.2.1, hfields.2.2.1, hfields.2.2.2⟩
  rw [← herrors, hlog]
  exact exists_congr (hrooted.isError_commit kind' _)

end Session

end Descent
