import Descent.Proofs.Session.HeldSections
import Descent.Proofs.Session.MirrorGrouping
import Descent.Proofs.Session.RunWork

/-!
# Sections in mirrored states

Where the rules and hooks that are run keep states mirrored, sections are entered and left with the
same markers, report the same errors, skip up to the same tokens, and end in both states or in
neither (`Session.Mirrors.leave`, `Session.Mirrors.leaveSimple`).
-/

namespace Descent

/-- Two ways to run hooks that look for no literals answer the same in mirrored states, and leave them
mirrored. -/
def HookRunner.Mirrors (b : Source) (f : Nat → Nat) (hook hook' : HookRunner) : Prop :=
  ∀ body m? s t, body.literalFree = true → s.Mirrors b f t →
    Option.Rel (Session.Mirrored b f) (hook body m? s) (hook' body m? t)

namespace Session

/-- The frames are the same but for moving, and the states mirror each other. -/
def MirroredFrame (b : Source) (f : Nat → Nat) (x y : Frame × Session) : Prop :=
  y.1 = x.1.move b f ∧ x.2.Mirrors b f y.2

theorem MirroredFrame.mk {b : Source} {f : Nat → Nat} {frame : Frame} {s t : Session}
    (h : s.Mirrors b f t) : MirroredFrame b f (frame, s) (frame.move b f, t) := ⟨rfl, h⟩

theorem MirroredFrame.exists_eq {b : Source} {f : Nat → Nat} {x y : Frame × Session}
    (h : MirroredFrame b f x y) :
    ∃ frame s t, x = (frame, s) ∧ y = (frame.move b f, t) ∧ s.Mirrors b f t :=
  ⟨x.1, x.2, y.2, rfl, Prod.ext h.1 rfl, h.2⟩

/-- The same with an answer. -/
def MirroredFor {α : Type} (b : Source) (f : Nat → Nat) (x y : α × Frame × Session) : Prop :=
  y.1 = x.1 ∧ MirroredFrame b f x.2 y.2

theorem MirroredFor.exists_eq {α : Type} {b : Source} {f : Nat → Nat} {x y : α × Frame × Session}
    (h : MirroredFor b f x y) :
    ∃ a frame s t, x = (a, frame, s) ∧ y = (a, frame.move b f, t) ∧ s.Mirrors b f t :=
  ⟨x.1, x.2.1, x.2.2, y.2.2, rfl, Prod.ext h.1 (Prod.ext h.2.1 rfl), h.2.2⟩

theorem resetCounts_move (b : Source) (f : Nat → Nat) (frames : List Frame) :
    resetCounts (frames.map (·.move b f)) = (resetCounts frames).map (·.move b f) := by
  induction frames with
  | nil => rfl
  | cons frame frames ih =>
    simp only [List.map_cons, resetCounts]
    by_cases hzero : frame.attemptsBefore = 0
    · have hzero' : (frame.move b f).attemptsBefore = 0 := hzero
      rw [if_pos hzero, if_pos hzero']
      rfl
    · have hzero' : ¬ (frame.move b f).attemptsBefore = 0 := hzero
      rw [if_neg hzero, if_neg hzero', ih]
      rfl

theorem supplyKind_move (b : Source) (f : Nat → Nat) (kind : Kind) (frames : List Frame) :
    supplyKind kind (frames.map (·.move b f)) = (supplyKind kind frames).map (·.move b f) := by
  induction frames with
  | nil => rfl
  | cons frame frames ih =>
    simp only [List.map_cons, supplyKind]
    by_cases hkind : frame.kind.isNone
    · have hkind' : (frame.move b f).kind.isNone := hkind
      rw [if_pos hkind, if_pos hkind']
      rfl
    · have hkind' : ¬ (frame.move b f).kind.isNone := hkind
      rw [if_neg hkind, if_neg hkind', ih]
      rfl

theorem openFrame_eq (g : Setup) (level : Nat) (modifiers : Modifiers) (kind : Option Kind)
    (name : Option String) (s : Session) :
    s.openFrame g level modifiers kind name =
      let u := { s with level := s.level + 1 }.toSignificant g
      let frame := u.newFrame g level modifiers kind name
      let v := { u with lookahead := u.lookahead.enter modifiers }
      let w := if u.lookahead.admits modifiers then v
        else v.abort g (.misplacedLookahead frame.offset)
      { w.note (.sectionEntered frame) with frames := frame :: w.frames } :=
  rfl

namespace Mirrors

variable {g : Setup} {b : Source} {f : Nat → Nat} {s t : Session} {run run' : Runner}
  {hook hook' : HookRunner}
  (hb : Stretches f (g.source.glimpses g.language) (b.glimpses g.language))
  (hrun : Runner.Mirrors b f run run') (hhook : HookRunner.Mirrors b f hook hook')
  (h : s.Mirrors b f t)
include hb h

/-! ## Recovery -/

theorem reportFor (frame : Frame) (inner force : Bool) :
    MirroredFor b f (s.reportFor g frame inner force)
      (t.reportFor (g.on b) (frame.move b f) inner force) := by
  obtain ⟨position?, u, v, hu, hv, huv⟩ := (h.report hb frame.position inner force).exists_eq
  have hv : t.report (g.on b) (frame.move b f).position inner force = _ := hv
  unfold Session.reportFor
  rw [hu, hv]
  cases position? with
  | none => exact ⟨rfl, .mk huv⟩
  | some position => exact ⟨rfl, .mk huv⟩

omit hb in
theorem clearAttempts (frame : Frame) :
    MirroredFrame b f (s.clearAttempts frame) (t.clearAttempts (frame.move b f)) := by
  have hattempts : t.attempts.clear = s.attempts.clear.move f := by
    rw [h.attempts, Attempts.clear_move]
  have hframes : (if 0 < frame.attemptsBefore then resetCounts t.frames else t.frames) =
      (if 0 < frame.attemptsBefore then resetCounts s.frames else s.frames).map (·.move b f) := by
    rw [h.frames, resetCounts_move]
    split <;> rfl
  exact ⟨rfl, { h with attempts := hattempts, frames := hframes }⟩

include hrun

theorem reportSwallowing (level : Nat) :
    Option.Rel (MirroredReport b f) (s.reportSwallowing g run level)
      (t.reportSwallowing (g.on b) run' level) := by
  have h' := h.toSignificant hb
  unfold Session.reportSwallowing
  rw [h.isAborted]
  split
  · exact .some ⟨rfl, h⟩
  · dsimp only
    rw [h'.expectedHere hb, h'.errorHere hb (g.significant_spec s.position).1]
    generalize (s.toSignificant g).errorHere g _ = error
    have hnoted := h'.note (.errorReported (s.toSignificant g).position error true false)
      (.errorReported (t.toSignificant (g.on b)).position error true false)
    obtain ⟨m, u, v, hu, hv, hopen⟩ := (hnoted.openMarker hb).exists_eq
    rw [hu, hv]
    refine rel_bind (hrun _ _ _ _ hopen) ?_
    rintro ⟨_, u⟩ ⟨_, v⟩ ⟨-, huv⟩
    have hend := (huv.commit hb m .error (some error)).toSignificant hb
    exact .some ⟨congrArg some hend.position, hend⟩

theorem reportSwallowingFor (frame : Frame) :
    Option.Rel (MirroredFor b f) (s.reportSwallowingFor g run frame)
      (t.reportSwallowingFor (g.on b) run' (frame.move b f)) := by
  unfold Session.reportSwallowingFor
  refine rel_bind (h.reportSwallowing hb hrun (frame.level + 1)) ?_
  rintro ⟨position?, u⟩ ⟨_, v⟩ ⟨hposition, huv⟩
  obtain rfl := hposition
  cases position? with
  | none => exact .some ⟨rfl, .mk huv⟩
  | some position => exact .some ⟨rfl, .mk huv⟩

theorem skipRun (eatMore : RuleRef) (name : String) (level lastError rounds : Nat) (more : Bool)
    (depth : Int) :
    Option.Rel (Mirrored b f) (s.skipRun g run eatMore name level lastError rounds more depth)
      (t.skipRun (g.on b) run' eatMore name level (f lastError) rounds more depth) := by
  -- positions are compared with each other only, which a strictly monotone function does not change
  induction rounds generalizing more depth s t with
  | zero => exact .none
  | succ rounds ih =>
    have h' := h.toSignificant hb
    have hs := (g.significant_spec s.position).1
    have hstep (kind? : Option Kind) : depthStep (g.on b) kind? = depthStep g kind? := rfl
    simp only [Session.skipRun]
    rw [h.position, h'.kindHere? hb hs, hstep]
    simp only [hb.strictMono.lt_iff_lt]
    split
    · rw [h'.position]
      simp only [hb.strictMono.le_iff_le]
      split
      · exact .some (.mk h')
      · refine rel_bind (hrun _ _ _ _ h') ?_
        rintro ⟨_, u⟩ ⟨_, v⟩ ⟨-, huv⟩
        dsimp only
        rw [huv.position]
        simp only [hb.strictMono.injective.eq_iff]
        split
        · exact .some (.mk ((huv.toSignificant hb).abort hb _ _))
        · refine rel_bind (hrun _ _ _ _ huv) ?_
          rintro ⟨_, u⟩ ⟨more, v⟩ ⟨rfl, huv⟩
          exact ih huv more _
    · exact .some (.mk h)

theorem reportSkipped (rounds : Nat) (frame : Frame) (kind : Option Kind) (result pinned : Bool)
    (eatMore : RuleRef) (initial : Nat) (eatsFirst more : Bool) :
    Option.Rel (MirroredFor b f)
      (s.reportSkipped g run rounds frame kind result pinned eatMore initial eatsFirst more)
      (t.reportSkipped (g.on b) run' rounds (frame.move b f) kind result pinned eatMore (f initial)
        eatsFirst more) := by
  have hreported : ((frame.move b f).errorAt == some (f initial) ||
      (!result && (frame.move b f).hasErrorFrom (frame.move b f).position)) =
      (frame.errorAt == some initial || (!result && frame.hasErrorFrom frame.position)) := by
    rw [Frame.errorAt_move_beq hb.strictMono]
    exact congrArg (fun x => _ || (!result && x)) (Frame.hasErrorFrom_move hb.strictMono ..)
  have hpast : (!result && decide ((frame.move b f).position ≠ t.position)) =
      (!result && decide (frame.position ≠ s.position)) := by
    rw [h.position]
    exact congrArg (!result && ·) (decide_eq_decide.2 hb.strictMono.injective.ne_iff)
  have hnone : (frame.move b f).errorAt.isNone = frame.errorAt.isNone := Option.isNone_map
  simp only [Session.reportSkipped, Option.bind_eq_bind, ← bind_ite]
  rw [hreported, hpast, Frame.hasErrorAfter_move hb.strictMono, hnone]
  generalize (frame.errorAt == some initial || (!result && frame.hasErrorFrom frame.position)) =
    reported
  split
  -- what is skipped next is reported, or stepped over if it has been; the rest is grouped
  · have hfirst : Option.Rel (MirroredFor b f)
        (if !reported then s.reportSwallowingFor g run frame
          else if more then (run g.advancer (frame.level + 1) s).map fun x => (true, frame, x.2)
          else some (true, frame, s))
        (if !reported then t.reportSwallowingFor (g.on b) run' (frame.move b f)
          else if more then (run' g.advancer (frame.level + 1) t).map fun x =>
            (true, frame.move b f, x.2)
          else some (true, frame.move b f, t)) := by
      split
      · exact h.reportSwallowingFor hb hrun frame
      · split
        · exact rel_map (hrun _ _ _ _ h) fun _ _ hx => ⟨rfl, .mk hx.2⟩
        · exact .some ⟨rfl, .mk h⟩
    refine rel_bind hfirst fun x y hxy => ?_
    obtain ⟨reported, frame₁, u, v, rfl, rfl, huv⟩ := hxy.exists_eq
    dsimp only
    rw [huv.isAborted]
    split
    · exact .some ⟨rfl, .mk huv⟩
    · refine rel_bind (hrun _ _ _ _ huv) ?_
      rintro ⟨_, u⟩ ⟨again, v⟩ ⟨rfl, huv⟩
      dsimp only
      split
      · exact rel_bind (huv.groupRun hb hrun ..) fun _ _ hx => .some ⟨rfl, .mk hx.2⟩
      · exact .some ⟨rfl, .mk huv⟩
  · split
    · exact .some (h.reportFor hb frame false true)
    · split
      · exact .some (h.reportFor hb frame kind.isSome false)
      · exact .some ⟨rfl, .mk h⟩

theorem recover (rounds : Nat) (frame : Frame) (kind : Option Kind) (result pinned : Bool)
    (eatMore : RuleRef) (initial lastError : Nat) :
    Option.Rel (MirroredFrame b f)
      (s.recover g run rounds frame kind result pinned eatMore initial lastError)
      (t.recover (g.on b) run' rounds (frame.move b f) kind result pinned eatMore (f initial)
        (f lastError)) := by
  have hmore : (!result && (frame.move b f).position == f initial &&
      decide ((frame.move b f).position < f lastError)) =
      (!result && frame.position == initial && decide (frame.position < lastError)) := by
    rw [Bool.eq_iff_iff]
    simp [Frame.move, hb.strictMono.injective.eq_iff, hb.strictMono.lt_iff_lt]
  have hbegin : ({ s with quiet := true }.toSignificant g).Mirrors b f
      ({ t with quiet := true }.toSignificant (g.on b)) :=
    (h.setQuiet true).toSignificant hb
  have hend := hbegin.isAtEnd hb (g.significant_spec s.position).1
  simp only [Session.recover, Option.bind_eq_bind, ← bind_ite]
  generalize { s with quiet := true }.toSignificant g = u at hbegin hend
  generalize { t with quiet := true }.toSignificant (g.on b) = v at hbegin hend
  have hfirst : Option.Rel (Mirrored b f)
      (if u.isAtEnd g then some (false, u) else run eatMore (frame.level + 1) u)
      (if v.isAtEnd (g.on b) then some (false, v) else run' eatMore (frame.level + 1) v) := by
    rw [hend]
    split
    · exact .some (.mk hbegin)
    · exact hrun _ _ _ _ hbegin
  refine rel_bind hfirst ?_
  rintro ⟨_, u⟩ ⟨eatsFirst, v⟩ ⟨rfl, huv⟩
  dsimp only
  -- the node to be widened is a marker, and markers are not moved
  rw [huv.log, MarkerLog.lastWidenable?_move, hmore]
  generalize (if (pinned || result) && (g.widensAlways || kind.isSome) && eatsFirst then
    u.log.lastWidenable? else none) = last
  refine rel_bind (huv.skipRun hb hrun ..) ?_
  rintro ⟨_, u⟩ ⟨more, v⟩ ⟨rfl, huv⟩
  have hnoted := huv.note (.skipped u.position lastError more)
    (.skipped v.position (f lastError) more)
  refine rel_bind (hnoted.reportSkipped hb hrun ..) fun x y hxy => ?_
  obtain ⟨reported, frame₁, u, v, rfl, rfl, huv⟩ := hxy.exists_eq
  have hwide := (huv.widenOver hb last frame₁.position).setQuiet false
  dsimp only
  split
  · exact .some (hwide.clearAttempts frame₁)
  · exact .some (.mk hwide)

omit hrun

/-! ## Entering -/

omit hb in
theorem newFrame (level : Nat) (modifiers : Modifiers) (kind : Option Kind) (name : Option String) :
    t.newFrame (g.on b) level modifiers kind name =
      (s.newFrame g level modifiers kind name).move b f := by
  unfold Session.newFrame Frame.move offset
  rw [h.position, h.attempts, h.frames, h.log]
  simp

theorem openFrame (level : Nat) (modifiers : Modifiers) (kind : Option Kind)
    (name : Option String) :
    (s.openFrame g level modifiers kind name).Mirrors b f
      (t.openFrame (g.on b) level modifiers kind name) := by
  have hbegin : ({ s with level := s.level + 1 }.toSignificant g).Mirrors b f
      ({ t with level := t.level + 1 }.toSignificant (g.on b)) := by
    rw [h.level]
    exact (h.setLevel (s.level + 1)).toSignificant hb
  have hput (frame : Frame) {u v : Session} (huv : u.Mirrors b f v) :
      { u.note (.sectionEntered frame) with frames := frame :: u.frames }.Mirrors b f
        { v.note (.sectionEntered (frame.move b f)) with
          frames := frame.move b f :: v.frames } :=
    (huv.note _ _).setFrames (by rw [huv.frames]; rfl)
  rw [openFrame_eq, openFrame_eq]
  generalize { s with level := s.level + 1 }.toSignificant g = u at hbegin
  generalize { t with level := t.level + 1 }.toSignificant (g.on b) = v at hbegin
  dsimp only
  rw [hbegin.newFrame, hbegin.lookahead]
  have hlook := hbegin.setLookahead (u.lookahead.enter modifiers)
  split
  · exact hput _ hlook
  · exact hput _ (hlook.abort hb _ _)

theorem enter (level : Nat) (modifiers : Modifiers) (kind : Option Kind) (name : Option String) :
    Mirrored b f (s.enter g level modifiers kind name)
      (t.enter (g.on b) level modifiers kind name) := by
  obtain ⟨m, u, v, hu, hv, huv⟩ := ((h.reportAgain hb).openMarker hb).exists_eq
  unfold Session.enter
  rw [hu, hv]
  exact .mk (huv.openFrame hb level modifiers kind name)

theorem enterSimple : Mirrored b f (s.enterSimple g) (t.enterSimple (g.on b)) := by
  have hagain := h.reportAgain hb
  unfold Session.enterSimple
  dsimp only
  rw [hagain.level]
  exact (hagain.setLevel _).openMarker hb

/-! ## Shaping -/

theorem absorbable? (frame : Frame) (kind : Kind) :
    t.absorbable? (g.on b) (frame.move b f) kind = s.absorbable? g frame kind := by
  unfold Session.absorbable?
  rw [h.log, MarkerLog.lastCommitted?_move, h.position]
  refine congrArg (s.log.lastCommitted?.filter ·) (funext fun m => ?_)
  have hstart : (f (s.log.start m) == (frame.move b f).position) =
      (s.log.start m == frame.position) := by
    rw [Bool.eq_iff_iff, beq_iff_eq, beq_iff_eq]
    exact hb.strictMono.injective.eq_iff
  have hbetween := hb.all_trivia (s.log.stop m) s.position
  simp only [MarkerLog.kind?_move, MarkerLog.start_move _ _ hb.zero,
    MarkerLog.stop_move _ _ hb.zero, Bool.and_assoc, hbetween, hstart]

theorem absorbChild (frame : Frame) (kind : Kind) :
    Mirrored b f (s.absorbChild g frame kind) (t.absorbChild (g.on b) (frame.move b f) kind) := by
  have hchild : (if (frame.move b f).modifiers.collapse then
      t.absorbable? (g.on b) (frame.move b f) kind else none) =
      if frame.modifiers.collapse then s.absorbable? g frame kind else none := by
    rw [h.absorbable? hb]
    rfl
  unfold Session.absorbChild
  rw [hchild, h.log]
  split
  · next child _ =>
    rw [MarkerLog.kind?_move]
    exact .mk ((h.note _ _).drop child)
  · exact .mk h

theorem placeNode (frame : Frame) (m : Marker) (kind : Kind) :
    (s.placeNode g frame m kind).Mirrors b f (t.placeNode (g.on b) (frame.move b f) m kind) := by
  unfold Session.placeNode
  rw [Frame.modifiers_move, Frame.leftNode_move, Frame.level_move]
  split
  · refine (h.drop m).setFrames ?_
    rw [h.frames, supplyKind_move]
  · cases frame.leftNode with
    | none =>
      dsimp only
      split
      · exact (h.toSignificant hb).commitAs hb m kind
      · exact h.commitAs hb m kind
    | some left =>
      dsimp only
      split
      · exact (h.commitAs hb m kind).widen hb left
      · obtain ⟨outer, u, v, hu, hv, hwrap⟩ := ((h.drop m).wrap hb left).exists_eq
        rw [hu, hv]
        exact hwrap.commitAs hb outer kind

theorem commitShaped (frame : Frame) (m : Marker) (kind : Kind) :
    (s.commitShaped g frame m kind).Mirrors b f (t.commitShaped (g.on b) (frame.move b f) m kind) := by
  obtain ⟨kind', u, v, hu, hv, huv⟩ := (h.absorbChild hb frame kind).exists_eq
  rw [commitShaped_eq, commitShaped_eq, hu, hv]
  exact huv.placeNode hb frame m kind'

theorem eraseSection (frame : Frame) (m : Marker) :
    MirroredFrame b f (s.eraseSection frame m) (t.eraseSection (frame.move b f) m) := by
  refine ⟨?_, h.rollback m⟩
  have hfallback : t.frames.head?.bind (·.errorAt) = (s.frames.head?.bind (·.errorAt)).map f := by
    rw [h.frames]
    cases s.frames <;> rfl
  show (frame.move b f).forgetErrorsAfter (t.log.start m) (t.frames.head?.bind (·.errorAt)) = _
  rw [hfallback, h.log, MarkerLog.start_move _ _ hb.zero,
    Frame.forgetErrorsAfter_move hb.strictMono]
  rfl

theorem endLookahead (frame : Frame) (m : Marker) (keeps : Bool) :
    MirroredFor b f (s.endLookahead g frame m keeps)
      (t.endLookahead (g.on b) (frame.move b f) m keeps) := by
  have hresets : (!t.quiet && (frame.move b f).attemptAt.isNone &&
      decide ((frame.move b f).position < t.position)) =
      (!s.quiet && frame.attemptAt.isNone && decide (frame.position < s.position)) := by
    rw [h.quiet, h.position, Bool.eq_iff_iff]
    simp [Frame.move, hb.strictMono.lt_iff_lt]
  have hend {m? m'? : Option Marker} (hm : m'? = m?) (resets : Bool) (frame : Frame)
      {u v : Session} (huv : u.Mirrors b f v) : MirroredFor b f
        (m?, if resets then { frame with attemptAt := some u.position } else frame, u)
        (m'?, if resets then { frame.move b f with attemptAt := some v.position }
          else frame.move b f, v) := by
    rw [hm, huv.position]
    split <;> exact ⟨rfl, .mk huv⟩
  obtain ⟨frame₁, u, v, hu, hv, huv⟩ := (h.eraseSection hb frame m).exists_eq
  have hleft := huv.setLookahead (u.lookahead.leave frame₁.modifiers)
  unfold Session.endLookahead
  rw [hresets, hu, hv]
  dsimp only
  rw [huv.lookahead]
  split
  · have hopen := hleft.openMarker hb
    exact hend (congrArg some hopen.1) _ frame₁ hopen.2
  · exact hend rfl _ frame₁ hleft

theorem leftMarker (frame : Frame) (m : Marker) (keeps : Bool) :
    MirroredFor b f (s.leftMarker g frame m keeps)
      (t.leftMarker (g.on b) (frame.move b f) m keeps) := by
  unfold Session.leftMarker
  rw [Frame.modifiers_move]
  split
  · exact h.endLookahead hb frame m keeps
  · exact ⟨rfl, .mk h⟩

omit hb in
theorem dropAny (m? : Option Marker) : (s.dropAny m?).Mirrors b f (t.dropAny m?) := by
  cases m? with
  | none => exact h
  | some m => exact h.drop m

theorem settleMarker (frame : Frame) (m? : Option Marker) (kind : Option Kind) (stays : Bool) :
    MirroredFrame b f (s.settleMarker g frame m? kind stays)
      (t.settleMarker (g.on b) (frame.move b f) m? kind stays) := by
  have hbare (left : Marker) :
      (if frame.modifiers.leftInner then (s.dropAny m?).widen left else s.dropAny m?).Mirrors b f
        (if frame.modifiers.leftInner then (t.dropAny m?).widen left else t.dropAny m?) := by
    split
    · exact (h.dropAny m?).widen hb left
    · exact h.dropAny m?
  unfold Session.settleMarker
  rw [Frame.modifiers_move, Frame.leftNode_move]
  split
  · cases kind with
    | none =>
      cases frame.leftNode with
      | none => exact .mk (h.dropAny m?)
      | some left => exact .mk (hbare left)
    | some kind =>
      cases m? with
      | none =>
        cases frame.leftNode with
        | none => exact .mk (h.dropAny none)
        | some left => exact .mk (hbare left)
      | some m => exact .mk (h.commitShaped hb frame m kind)
  · cases m? with
    | none => exact .mk h
    | some m => exact h.eraseSection hb frame m

theorem shapeSection (frame : Frame) (m : Marker) (kind : Option Kind) (stays : Bool) :
    MirroredFrame b f (s.shapeSection g frame m kind stays)
      (t.shapeSection (g.on b) (frame.move b f) m kind stays) := by
  obtain ⟨m?, frame₁, u, v, hu, hv, huv⟩ :=
    (h.leftMarker hb frame m (kind.isSome && stays)).exists_eq
  rw [shapeSection_eq, shapeSection_eq, hu, hv]
  exact huv.settleMarker hb frame₁ m? kind stays

/-! ## Errors -/

theorem attemptsByName (frame : Frame) (kind : Option Kind) (stays : Bool) :
    MirroredFrame b f (s.attemptsByName g frame kind stays)
      (t.attemptsByName (g.on b) (frame.move b f) kind stays) := by
  unfold Session.attemptsByName
  rw [Frame.name_move]
  cases frame.name with
  | none => exact .mk h
  | some name =>
    dsimp only
    generalize (if kind.isSome then g.limits.nameSlack else 0) = slack
    have hstands : (!stays && t.position == (frame.move b f).position &&
        (frame.move b f).attemptAt == some (frame.move b f).position &&
        decide ((frame.move b f).attemptsBefore + slack ≤ t.attempts.count)) =
        (!stays && s.position == frame.position && frame.attemptAt == some frame.position &&
          decide (frame.attemptsBefore + slack ≤ s.attempts.count)) := by
      rw [h.position, h.attempts, Attempts.count_move, Bool.eq_iff_iff]
      simp [Frame.move, hb.strictMono.injective.eq_iff]
      exact fun _ _ _ => decide_eq_true_iff
    have hpush : (t.attempts.truncate frame.attemptsBefore).push t.lookahead.positive
        ⟨t.position, .name name⟩ = ((s.attempts.truncate frame.attemptsBefore).push
          s.lookahead.positive ⟨s.position, .name name⟩).move f := by
      rw [h.attempts, Attempts.truncate_move, h.lookahead, h.position]
      exact Attempts.push_move f _ _ ⟨s.position, .name name⟩
    have hframe : (if t.lookahead.positive then (frame.move b f).recordAttempt t.position
        else frame.move b f) =
        (if s.lookahead.positive then frame.recordAttempt s.position else frame).move b f := by
      rw [h.lookahead, h.position, Frame.recordAttempt_move hb.strictMono]
      split <;> rfl
    rw [hstands]
    split
    · exact ⟨hframe, { h with attempts := hpush }⟩
    · exact .mk h

theorem reportPinned (frame : Frame) (kind : Option Kind) (initial lastError : Nat) :
    MirroredFrame b f (s.reportPinned g frame kind initial lastError)
      (t.reportPinned (g.on b) (frame.move b f) kind (f initial) (f lastError)) := by
  unfold Session.reportPinned
  simp only [hb.strictMono.injective.eq_iff, hb.strictMono.lt_iff_lt]
  split
  · exact (h.reportFor hb frame (kind.isSome && !frame.modifiers.upper) false).2
  · split <;> exact .mk h

include hrun

theorem settleFrame (rounds : Nat) (frame : Frame) (kind : Option Kind) (result pinned : Bool)
    (condition : Option RuleRef) (initial lastError : Nat) :
    Option.Rel (MirroredFrame b f)
      (s.settleFrame g run rounds frame kind result pinned condition initial lastError)
      (t.settleFrame (g.on b) run' rounds (frame.move b f) kind result pinned condition (f initial)
        (f lastError)) := by
  unfold Session.settleFrame
  cases condition with
  | none =>
    have hnone : (frame.move b f).errorAt.isNone = frame.errorAt.isNone := Option.isNone_map
    dsimp only
    rw [hnone]
    refine .some ?_
    split
    · exact h.reportPinned hb frame kind initial lastError
    · exact .mk h
  | some eatMore => exact h.recover hb hrun rounds frame kind result pinned eatMore initial lastError

theorem settleErrors (rounds : Nat) (frame : Frame) (kind : Option Kind) (result pinned : Bool)
    (eatMore : Option RuleRef) :
    Option.Rel (Mirrors b f) (s.settleErrors g run rounds frame kind result pinned eatMore)
      (t.settleErrors (g.on b) run' rounds (frame.move b f) kind result pinned eatMore) := by
  obtain ⟨frame₁, u, v, hu, hv, huv⟩ :=
    (h.attemptsByName hb frame kind (result || pinned)).exists_eq
  rw [settleErrors_eq, settleErrors_eq, hu, hv]
  dsimp only
  rw [huv.quiet, huv.isAborted, Frame.errorPosition_move, h.position]
  refine rel_bind (huv.settleFrame hb hrun ..) fun x y hxy => ?_
  obtain ⟨frame₂, u, v, rfl, rfl, huv⟩ := hxy.exists_eq
  exact .some (huv.modifyFrame fun outer => Frame.absorb_move hb.strictMono outer frame₂)

omit hrun hb in
theorem closeLevel : s.closeLevel.Mirrors b f t.closeLevel := by
  unfold Session.closeLevel
  rw [h.level]
  exact h.setLevel _

/-! ## Hooks and leaving -/

omit hrun
include hhook

omit hb in
theorem runHooksFrom (rounds : Nat) (m? : Option Marker) :
    Option.Rel (Mirrors b f) (s.runHooksFrom hook rounds m?) (t.runHooksFrom hook' rounds m?) := by
  induction rounds generalizing m? s t with
  | zero => exact .none
  | succ rounds ih =>
    simp only [Session.runHooksFrom]
    rw [h.hooks, h.level]
    cases hhooks : s.hooks with
    | nil => exact .some h
    | cons first hooks =>
      have hfree := h.literalFree
      rw [hhooks] at hfree
      obtain ⟨hfirst, hfree⟩ := List.forall_mem_cons.1 hfree
      have hrest : { s with hooks }.Mirrors b f { t with hooks, level := s.level } :=
        { h with hooks := rfl, literalFree := hfree, level := rfl }
      dsimp only
      split
      · exact .some h
      · split
        · refine rel_bind (hhook _ _ _ _ hfirst hrest) ?_
          rintro ⟨_, u⟩ ⟨m?, v⟩ ⟨rfl, huv⟩
          exact ih huv m?
        · exact ih hrest m?

theorem runLevelHooks (rounds : Nat) (kind : Option Kind) :
    Option.Rel (Mirrors b f) (s.runLevelHooks g hook rounds kind)
      (t.runLevelHooks (g.on b) hook' rounds kind) := by
  unfold Session.runLevelHooks
  rw [h.hooks, h.log, MarkerLog.lastCommitted?_move]
  split
  · exact .some h
  · cases kind with
    | none => exact h.runHooksFrom hhook rounds none
    | some kind =>
      cases s.log.lastCommitted? with
      | none => exact ((h.toSignificant hb).abort hb _ _).runHooksFrom hhook rounds none
      | some m => exact h.runHooksFrom hhook rounds (some m)

omit hhook in
theorem leaveUnbalanced (level found : Nat) (m : Marker) :
    (s.leaveUnbalanced g level found m).Mirrors b f (t.leaveUnbalanced (g.on b) level found m) :=
  ((((h.toSignificant hb).abort hb _ _).rollback m).closeLevel)

omit hhook in
theorem shape (frame : Frame) (frames : List Frame) (m : Marker) (kind : Option Kind)
    (result pinned : Bool) :
    MirroredFrame b f (s.shape g frame frames m kind result pinned)
      (t.shape (g.on b) (frame.move b f) (frames.map (·.move b f)) m kind result pinned) := by
  have htaken : { s with frames }.Mirrors b f { t with frames := frames.map (Frame.move b f) } :=
    h.setFrames rfl
  exact (htaken.note _ _).shapeSection hb frame m (frame.kind <|> kind) (result || pinned)

/-- A section is left in mirrored states or in neither. -/
theorem leave (hrun : Runner.Mirrors b f run run') (rounds level : Nat) (m : Marker)
    (kind : Option Kind) (result pinned : Bool) (eatMore : Option RuleRef) :
    Option.Rel (Mirrors b f) (s.leave g run hook rounds level m kind result pinned eatMore)
      (t.leave (g.on b) run' hook' rounds level m kind result pinned eatMore) := by
  cases hframes : s.frames with
  | nil =>
    have hframes' : t.frames = [] := by
      rw [h.frames, hframes]
      rfl
    unfold Session.leave
    simp only [hframes, hframes']
    rw [h.level]
    exact .some (h.leaveUnbalanced hb level s.level m)
  | cons frame frames =>
    have hframes' : t.frames = frame.move b f :: frames.map (·.move b f) := by
      rw [h.frames, hframes]
      rfl
    by_cases hlevel : frame.level = level
    · have hlevel' : (frame.move b f).level = level := hlevel
      obtain ⟨frame₁, u, v, hu, hv, huv⟩ :=
        (h.shape hb frame frames m kind result pinned).exists_eq
      rw [leave_eq hframes hlevel, leave_eq hframes' hlevel', hu, hv]
      refine rel_bind (huv.settleErrors hb hrun ..) fun u v huv => ?_
      refine rel_bind (huv.runLevelHooks hb hhook ..) fun u v huv => ?_
      exact .some huv.closeLevel
    · have hlevel' : ¬ (frame.move b f).level = level := hlevel
      have htaken : { s with frames }.Mirrors b f { t with frames := frames.map (Frame.move b f) } :=
        h.setFrames rfl
      unfold Session.leave
      simp only [hframes, hframes']
      rw [if_neg hlevel, if_neg hlevel']
      exact .some (htaken.leaveUnbalanced hb level frame.level m)

omit hhook in
theorem closeMarker (m : Marker) (kind : Option Kind) (result : Bool) :
    (s.closeMarker m kind result).Mirrors b f (t.closeMarker m kind result) := by
  unfold Session.closeMarker
  split
  · cases kind with
    | none => exact h.drop m
    | some kind => exact h.commitAs hb m kind
  · have hfallback : t.frames.tail.head?.bind (·.errorAt) =
        (s.frames.tail.head?.bind (·.errorAt)).map f := by
      rw [h.frames]
      rcases s.frames with _ | ⟨_, _ | _⟩ <;> rfl
    rw [hfallback, h.log, MarkerLog.start_move _ _ hb.zero]
    exact (h.modifyFrame fun frame => Frame.forgetErrorsAfter_move hb.strictMono frame ..).rollback m

/-- A section without a frame is left in mirrored states or in neither. -/
theorem leaveSimple (rounds : Nat) (m : Marker) (kind : Option Kind) (result : Bool) :
    Option.Rel (Mirrors b f) (s.leaveSimple g hook rounds m kind result)
      (t.leaveSimple (g.on b) hook' rounds m kind result) := by
  rw [leaveSimple_eq, leaveSimple_eq]
  exact rel_bind ((h.closeMarker hb m kind result).runLevelHooks hb hhook rounds _)
    fun _ _ huv => .some huv.closeLevel

end Mirrors

end Session

end Descent
