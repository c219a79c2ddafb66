import Descent.Proofs.MarkerLog.Move
import Descent.Proofs.Source.Outline
import Descent.Session.TokenTest

/-!
# Mirrored states

A state mirrors another one if it differs from it only by positions, in the way in which a stretched
source differs from the source (`Session.Mirrors`), and by what is kept for the record. Every step
on a source does to a state what it does to its mirror on the stretched source. This module has the
steps on markers, the reports of errors and the token tests. Only literals are left out, which are
compared with the text of the source.
-/

namespace Descent

/-! ## Literals -/

/-- Whether a step leaves the texts of tokens to the lexer. -/
def Primitive.literalFree : Primitive → Bool
  | consumeLiteral _ | nextLiteral _ => false
  | _ => true

/-- Whether an expression looks for no literals, and its hooks do not either. -/
def Expr.literalFree : Expr → Bool
  | const _ | flag _ | call _ | has _ | groupRun .. => true
  | prim p => p.literalFree
  | seq a b | and a b | or a b | leave _ _ a b _ _ => a.literalFree && b.literalFree
  | ite c t f => c.literalFree && (t.literalFree && f.literalFree)
  | not a | set _ a | loop a | guarded _ a | reporting a | leaveSimple _ _ a | hook a =>
    a.literalFree

/-! ## What is moved -/

/-- The frame with its positions moved, in another source. -/
def Frame.move (b : Source) (f : Nat → Nat) (frame : Frame) : Frame :=
  { frame with
    offset := b.start (f frame.position)
    position := f frame.position
    errorAt := frame.errorAt.map f
    attemptAt := frame.attemptAt.map f }

section
variable (b : Source) (f : Nat → Nat) (frame : Frame)

@[simp] theorem Frame.level_move : (frame.move b f).level = frame.level := rfl

@[simp] theorem Frame.modifiers_move : (frame.move b f).modifiers = frame.modifiers := rfl

@[simp] theorem Frame.name_move : (frame.move b f).name = frame.name := rfl

@[simp] theorem Frame.leftNode_move : (frame.move b f).leftNode = frame.leftNode := rfl

end

theorem later_map {f : Nat → Nat} (hf : Monotone f) (p q : Option Nat) :
    later (p.map f) (q.map f) = (later p q).map f := by
  cases p <;> cases q <;> simp [later, hf.map_max]

namespace Frame

variable {b : Source} {f : Nat → Nat} (hf : StrictMono f) (frame : Frame)
include hf

theorem hasErrorAfter_move (position : Nat) :
    (frame.move b f).hasErrorAfter (f position) = frame.hasErrorAfter position := by
  simp [hasErrorAfter, move, Option.any_map, hf.lt_iff_lt]

theorem hasErrorFrom_move (position : Nat) :
    (frame.move b f).hasErrorFrom (f position) = frame.hasErrorFrom position := by
  simp [hasErrorFrom, move, Option.any_map, hf.le_iff_le]

theorem forgetErrorsAfter_move (start : Nat) (fallback : Option Nat) :
    (frame.move b f).forgetErrorsAfter (f start) (fallback.map f) =
      (frame.forgetErrorsAfter start fallback).move b f := by
  unfold forgetErrorsAfter
  rw [hasErrorAfter_move hf]
  split <;> rfl

theorem errorAt_move_beq (position : Nat) :
    ((frame.move b f).errorAt == some (f position)) = (frame.errorAt == some position) := by
  rw [Bool.eq_iff_iff]
  simp [move, hf.injective.eq_iff]

omit hf in
theorem errorPosition_move : (frame.move b f).errorPosition = f frame.errorPosition :=
  Option.getD_map ..

theorem recordAttempt_move (position : Nat) :
    (frame.move b f).recordAttempt (f position) = (frame.recordAttempt position).move b f :=
  congrArg (fun attemptAt => { frame.move b f with attemptAt })
    (later_map hf.monotone frame.attemptAt (some position))

theorem absorb_move (inner : Frame) :
    (frame.move b f).absorb (inner.move b f) = (frame.absorb inner).move b f := by
  unfold absorb
  simp only [move, later_map hf.monotone]

end Frame

def Attempt.move (f : Nat → Nat) (x : Attempt) : Attempt := { x with position := f x.position }

namespace Attempts

variable (f : Nat → Nat) (a : Attempts)

/-- The attempts with their positions moved. -/
def move : Attempts :=
  { a with expected := a.expected.map (·.move f), unexpected := a.unexpected.map (·.move f) }

@[simp] theorem count_move : (a.move f).count = a.count := by
  simp [count, move]

@[simp] theorem clear_move : (a.move f).clear = a.clear.move f := by
  simp [clear, move]

theorem pushTo_move (list : Array Attempt) (x : Attempt) :
    (a.move f).pushTo (list.map (·.move f)) (x.move f) = (a.pushTo list x).map (·.move f) := by
  simp only [pushTo, Array.size_map, Array.map_push]
  by_cases hfull : a.capacity ≤ list.size
  · have hfull' : (a.move f).capacity ≤ list.size := hfull
    rw [if_pos hfull, if_pos hfull', Array.map_extract]
    rfl
  · have hfull' : ¬ (a.move f).capacity ≤ list.size := hfull
    rw [if_neg hfull, if_neg hfull']

theorem push_move (isExpected : Bool) (x : Attempt) :
    (a.move f).push isExpected (x.move f) = (a.push isExpected x).move f := by
  cases isExpected with
  | false =>
    have h := pushTo_move f a a.unexpected x
    simp only [push, move, Bool.false_eq_true, if_false] at h ⊢
    rw [h]
  | true =>
    have h := pushTo_move f a a.expected x
    simp only [push, move, if_true, Array.size_map] at h ⊢
    rw [h]
    rfl

theorem truncate_move (n : Nat) : (a.move f).truncate n = (a.truncate n).move f := by
  simp [truncate, move]

theorem textsAt_move {f : Nat → Nat} (hf : Function.Injective f) (xs : List Attempt)
    (position : Nat) (language : Language) :
    textsAt (xs.map (·.move f)) (f position) language = textsAt xs position language := by
  have hhere (x : Attempt) :
      decide ((x.move f).position = f position) = decide (x.position = position) :=
    decide_eq_decide.2 hf.eq_iff
  simp only [textsAt, List.filter_map, List.map_map, Function.comp_def, hhere]
  rfl

end Attempts

namespace Session

/-- The state `t` is the state `s` with its positions moved. What is left of fatal errors is that
there was one, and candidates for completion are not collected. -/
structure Mirrors (b : Source) (f : Nat → Nat) (s t : Session) : Prop where
  position : t.position = f s.position
  log : t.log = s.log.move f
  frames : t.frames = s.frames.map (·.move b f)
  lookahead : t.lookahead = s.lookahead
  attempts : t.attempts = s.attempts.move f
  completion : s.completion = none ∧ t.completion = none
  hooks : t.hooks = s.hooks
  literalFree : ∀ hook ∈ s.hooks, hook.body.literalFree = true
  level : t.level = s.level
  quiet : t.quiet = s.quiet
  isAborted : t.isAborted = s.isAborted

/-- The answers are the same, and the states mirror each other. -/
def Mirrored {α : Type} (b : Source) (f : Nat → Nat) (x y : α × Session) : Prop :=
  y.1 = x.1 ∧ x.2.Mirrors b f y.2

/-- The positions that two reports are remembered by are the same but for moving, and the states mirror
each other. -/
def MirroredReport (b : Source) (f : Nat → Nat) (x y : Option Nat × Session) : Prop :=
  y.1 = x.1.map f ∧ x.2.Mirrors b f y.2

theorem MirroredReport.exists_eq {b : Source} {f : Nat → Nat} {x y : Option Nat × Session}
    (h : MirroredReport b f x y) :
    ∃ position? s t, x = (position?, s) ∧ y = (position?.map f, t) ∧ s.Mirrors b f t :=
  ⟨x.1, x.2, y.2, rfl, Prod.ext h.1 rfl, h.2⟩

variable {α : Type} {g : Setup} {b : Source} {f : Nat → Nat} {s t : Session}

theorem Mirrored.mk {a : α} (h : s.Mirrors b f t) : Mirrored b f (a, s) (a, t) := ⟨rfl, h⟩

theorem Mirrored.exists_eq {x y : α × Session} (h : Mirrored b f x y) :
    ∃ a s t, x = (a, s) ∧ y = (a, t) ∧ s.Mirrors b f t :=
  ⟨x.1, x.2, y.2, rfl, Prod.ext h.1 rfl, h.2⟩

namespace Mirrors

theorem note (h : s.Mirrors b f t) (e e' : Event) : (s.note e).Mirrors b f (t.note e') := { h with }

theorem recordCall (h : s.Mirrors b f t) (step : Step) (v w : Value) :
    (s.recordCall step v).Mirrors b f (t.recordCall step w) := { h with }

theorem seek (h : s.Mirrors b f t) {p q : Nat} (hq : q = f p) :
    { s with position := p }.Mirrors b f { t with position := q } := { h with position := hq }

theorem setLog (h : s.Mirrors b f t) {log log' : MarkerLog} (hlog : log' = log.move f) :
    { s with log }.Mirrors b f { t with log := log' } := { h with log := hlog }

theorem setFrames (h : s.Mirrors b f t) {frames frames' : List Frame}
    (hframes : frames' = frames.map (·.move b f)) :
    { s with frames }.Mirrors b f { t with frames := frames' } := { h with frames := hframes }

theorem setLevel (h : s.Mirrors b f t) (level : Nat) :
    { s with level }.Mirrors b f { t with level } := { h with level := rfl }

theorem setQuiet (h : s.Mirrors b f t) (quiet : Bool) :
    { s with quiet }.Mirrors b f { t with quiet } := { h with quiet := rfl }

theorem setLookahead (h : s.Mirrors b f t) (lookahead : Lookahead) :
    { s with lookahead }.Mirrors b f { t with lookahead } := { h with lookahead := rfl }

theorem modifyFrame (h : s.Mirrors b f t) {change change' : Frame → Frame}
    (hchange : ∀ frame, change' (frame.move b f) = (change frame).move b f) :
    (s.modifyFrame change).Mirrors b f (t.modifyFrame change') := by
  have hframes : t.frames.modifyHead change' = (s.frames.modifyHead change).map (·.move b f) := by
    rw [h.frames]
    cases s.frames with
    | nil => rfl
    | cons frame frames => simp [hchange]
  exact h.setFrames hframes

variable (hb : Stretches f (g.source.glimpses g.language) (b.glimpses g.language))
  (h : s.Mirrors b f t)
include hb h

/-! ## Positions -/

theorem toSignificant : (s.toSignificant g).Mirrors b f (t.toSignificant (g.on b)) :=
  h.seek (by rw [h.position, hb.significant])

theorem step (hs : g.isTriviaAt s.position = false) :
    { s with position := s.position + 1 }.Mirrors b f { t with position := t.position + 1 } :=
  h.seek (by rw [h.position, hb.succ hs])

theorem kindHere? (hs : g.isTriviaAt s.position = false) : t.kindHere? (g.on b) = s.kindHere? g := by
  rw [Session.kindHere?, h.position]
  exact hb.kind? hs

theorem isAtEnd (hs : g.isTriviaAt s.position = false) : t.isAtEnd (g.on b) = s.isAtEnd g := by
  rw [Session.isAtEnd, h.kindHere? hb hs]
  rfl

theorem stepOver : Mirrored b f (s.stepOver g) (t.stepOver (g.on b)) := by
  have h' := h.toSignificant hb
  have hs := (g.significant_spec s.position).1
  unfold Session.stepOver
  dsimp only
  rw [h'.isAtEnd hb hs]
  split
  · exact .mk h'
  · exact .mk (h'.step hb hs)

theorem abort (error error' : Fatal) : (s.abort g error).Mirrors b f (t.abort (g.on b) error') := by
  unfold Session.abort
  rw [h.isAborted]
  split
  · exact h
  · exact { (h.note (.aborted error) (.aborted error')).toSignificant hb with isAborted := rfl }

/-! ## Markers -/

theorem openMarker : Mirrored b f (s.openMarker g) (t.openMarker (g.on b)) := by
  have h' := h.toSignificant hb
  have hopen : (t.toSignificant (g.on b)).log.openAt (t.toSignificant (g.on b)).position =
      ((s.toSignificant g).log.fresh,
        ((s.toSignificant g).log.openAt (s.toSignificant g).position).2.move f) := by
    rw [h'.log, h'.position, MarkerLog.openAt_move]
  have hmarker := congrArg Prod.fst hopen
  exact ⟨hmarker, h'.setLog (congrArg Prod.snd hopen)⟩

theorem commit (m : Marker) (kind : Kind) (error : Option SyntaxError) :
    (s.commit m kind error).Mirrors b f (t.commit m kind error) := by
  have hcommit {u v : Session} (huv : u.Mirrors b f v) :
      { u with log := u.log.commit m kind error u.position }.Mirrors b f
        { v with log := v.log.commit m kind error v.position } :=
    huv.setLog (by rw [huv.log, huv.position, MarkerLog.commit_move _ _ hb.strictMono.monotone])
  have hstage : t.log.stage? m = s.log.stage? m := by rw [h.log, MarkerLog.stage?_move]
  unfold Session.commit
  dsimp only
  rw [hstage]
  split
  · exact hcommit h
  · exact hcommit h
  · exact hcommit (h.note _ _)

theorem commitAs (m : Marker) (kind : Kind) : (s.commitAs m kind).Mirrors b f (t.commitAs m kind) :=
  h.commit hb m kind none

omit hb in
theorem drop (m : Marker) : (s.drop m).Mirrors b f (t.drop m) := by
  refine { h with log := ?_ }
  rw [Session.drop, h.log, MarkerLog.drop_move]
  rfl

omit hb in
theorem rollback (m : Marker) : (s.rollback m).Mirrors b f (t.rollback m) := by
  unfold Session.rollback
  rw [h.log, MarkerLog.rollback_move]
  cases s.log.rollback m with
  | none => exact h
  | some x => exact { h with position := rfl, log := rfl }

theorem wrap (m : Marker) : Mirrored b f (s.wrap m) (t.wrap m) := by
  have hwrap {u v : Session} (huv : u.Mirrors b f v) :
      Mirrored b f ((u.log.wrap m).1, { u with log := (u.log.wrap m).2 })
        ((v.log.wrap m).1, { v with log := (v.log.wrap m).2 }) := by
    have hlog : v.log.wrap m = (u.log.fresh, (u.log.wrap m).2.move f) := by
      rw [huv.log, MarkerLog.wrap_move _ _ hb.zero]
    have hmarker := congrArg Prod.fst hlog
    exact ⟨hmarker, huv.setLog (congrArg Prod.snd hlog)⟩
  have hstarted : t.log.isStarted m = s.log.isStarted m := by
    rw [h.log, MarkerLog.isStarted_move]
  unfold Session.wrap
  dsimp only
  rw [hstarted]
  split
  · exact hwrap h
  · exact hwrap (h.note _ _)

theorem widen (m : Marker) : (s.widen m).Mirrors b f (t.widen m) := by
  unfold Session.widen
  rw [h.log, MarkerLog.kind?_move]
  cases s.log.kind? m with
  | none => exact h
  | some kind =>
    obtain ⟨wider, u, v, hu, hv, hwrap⟩ := (h.wrap hb m).exists_eq
    dsimp only
    rw [hu, hv, hwrap.log, MarkerLog.error?_move]
    cases u.log.error? m with
    | none => exact (hwrap.commitAs hb wider kind).drop m
    | some error => exact (hwrap.commit hb wider .error (some error)).drop m

/-! ## Reports -/

theorem expectedHere : t.expectedHere (g.on b) = s.expectedHere g := by
  unfold Session.expectedHere Attempts.listAt
  rw [h.position, h.attempts]
  have hlist : (s.attempts.move f).expected.toList = s.attempts.expected.toList.map (·.move f) :=
    Array.toList_map
  rw [hlist, Attempts.textsAt_move hb.strictMono.injective]

theorem errorHere (hs : g.isTriviaAt s.position = false) (expected : String) :
    t.errorHere (g.on b) expected = s.errorHere g expected := by
  have hquoted : (g.on b).quotedText t.position = g.quotedText s.position := by
    unfold Setup.quotedText
    rw [h.position]
    exact congrArg (fun text => Text.shorten (Text.trim text) _) (hb.textAt hs)
  unfold Session.errorHere
  rw [hquoted]
  rfl

theorem insertError (error : SyntaxError) :
    (s.insertError g error).Mirrors b f (t.insertError (g.on b) error) := by
  obtain ⟨m, u, v, hu, hv, hopen⟩ := (h.openMarker hb).exists_eq
  unfold Session.insertError
  rw [hu, hv]
  exact hopen.commit hb m .error (some error)

theorem widenOver (node : Option Marker) (site : Nat) :
    (s.widenOver node site).Mirrors b f (t.widenOver node (f site)) := by
  unfold Session.widenOver
  cases node with
  | none => exact h
  | some m =>
    have hover : t.log.start m ≤ f site ∧ f site ≤ t.log.stop m ↔
        s.log.start m ≤ site ∧ site ≤ s.log.stop m := by
      rw [h.log, MarkerLog.start_move _ _ hb.zero, MarkerLog.stop_move _ _ hb.zero,
        hb.strictMono.le_iff_le, hb.strictMono.le_iff_le]
    simp only [hover]
    split
    · exact h.widen hb m
    · exact h

theorem report (site : Nat) (inner force : Bool) :
    MirroredReport b f (s.report g site inner force) (t.report (g.on b) (f site) inner force) := by
  have h' := h.toSignificant hb
  have hs := (g.significant_spec s.position).1
  unfold Session.report
  rw [h.isAborted]
  split
  · exact ⟨rfl, h⟩
  · dsimp only
    rw [h'.expectedHere hb]
    split
    · exact ⟨rfl, h'⟩
    · rw [h'.errorHere hb hs, h'.position]
      generalize (s.toSignificant g).errorHere g _ = error
      have hnoted := h'.note (.errorReported (s.toSignificant g).position error false inner)
        (.errorReported (f (s.toSignificant g).position) error false inner)
      have hinserted := hnoted.insertError hb error
      have hend {u v : Session} (huv : u.Mirrors b f v) :
          MirroredReport b f (some (u.toSignificant g).position, u.toSignificant g)
            (some (v.toSignificant (g.on b)).position, v.toSignificant (g.on b)) :=
        ⟨congrArg some (huv.toSignificant hb).position, huv.toSignificant hb⟩
      split
      · rw [hnoted.log, MarkerLog.lastWidenable?_move]
        exact hend (hinserted.widenOver hb _ site)
      · exact hend hinserted

theorem reportInFrame (site : Nat) (inner : Bool) :
    (s.reportInFrame g site inner).Mirrors b f (t.reportInFrame (g.on b) (f site) inner) := by
  obtain ⟨position?, u, v, hu, hv, hreport⟩ := (h.report hb site inner true).exists_eq
  unfold Session.reportInFrame
  rw [hu, hv]
  cases position? with
  | none => exact hreport
  | some position => exact hreport.modifyFrame fun _ => rfl

theorem reportHere : (s.reportHere g).Mirrors b f (t.reportHere (g.on b)) := by
  have h' := h.toSignificant hb
  unfold Session.reportHere
  dsimp only
  rw [h'.frames]
  cases (s.toSignificant g).frames with
  | nil => exact h'.note _ _
  | cons frame frames =>
    have hreports : (!(frame.move b f).hasErrorFrom (t.toSignificant (g.on b)).position &&
        (frame.move b f).attemptAt.any (· ≤ (t.toSignificant (g.on b)).position)) =
        (!frame.hasErrorFrom (s.toSignificant g).position &&
          frame.attemptAt.any (· ≤ (s.toSignificant g).position)) := by
      rw [h'.position, Frame.hasErrorFrom_move hb.strictMono]
      simp only [Frame.move, Option.any_map, hb.strictMono.le_iff_le]
    simp only [List.map_cons, hreports]
    split
    · exact h'.reportInFrame hb frame.position false
    · exact h'

theorem reportAgain : (s.reportAgain g).Mirrors b f (t.reportAgain (g.on b)) := by
  unfold Session.reportAgain
  rw [h.quiet, h.isAborted]
  split
  · exact h
  · rw [h.frames]
    cases s.frames with
    | nil => exact h
    | cons frame frames =>
      simp only [List.map_cons]
      rw [h.position, Frame.hasErrorAfter_move hb.strictMono]
      split
      · have hreport {x y : Bool} (hxy : y = x) :
            ((s.toSignificant g).reportInFrame g frame.position x).Mirrors b f
              ((t.toSignificant (g.on b)).reportInFrame (g.on b) (f frame.position) y) :=
          hxy ▸ (h.toSignificant hb).reportInFrame hb frame.position x
        refine hreport ?_
        rw [h.log, MarkerLog.lastCommitted?_move]
        cases s.log.lastCommitted? with
        | none =>
          -- without a node the stop is past the position, wherever that is moved
          have hbehind (p : Nat) (q : Bool) : (decide (p + 1 ≤ p) && q) = false := by simp
          exact (hbehind (f s.position) _).trans (hbehind s.position _).symm
        | some m =>
          simp only [MarkerLog.stop_move _ _ hb.zero, hb.significant, hb.strictMono.le_iff_le,
            hb.strictMono.injective.eq_iff]
      · exact h

/-! ## Token tests -/

theorem recordAttempt (position : Nat) (target : Target) :
    (s.recordAttempt position target).Mirrors b f (t.recordAttempt (f position) target) := by
  have hattempts : t.attempts.push t.lookahead.positive ⟨f position, target⟩ =
      (s.attempts.push s.lookahead.positive ⟨position, target⟩).move f := by
    rw [h.attempts, h.lookahead]
    exact Attempts.push_move f s.attempts _ ⟨position, target⟩
  have hpushed : { s with attempts := s.attempts.push s.lookahead.positive ⟨position, target⟩ }.Mirrors
      b f { t with attempts := t.attempts.push t.lookahead.positive ⟨f position, target⟩ } :=
    { h with attempts := hattempts }
  unfold Session.recordAttempt
  dsimp only
  simp only [h.lookahead] at hpushed ⊢
  split
  · exact hpushed.modifyFrame fun frame => Frame.recordAttempt_move hb.strictMono frame position
  · exact hpushed

omit hb in
theorem offerIfPositive (text : String) :
    (s.offerIfPositive g text).Mirrors b f (t.offerIfPositive (g.on b) text) := by
  unfold Session.offerIfPositive Session.offer
  rw [h.lookahead, h.completion.1, h.completion.2]
  split <;> exact h

theorem announce (target : Target) :
    (s.announce g target).Mirrors b f (t.announce (g.on b) target) := by
  have h' := h.toSignificant hb
  unfold Session.announce
  dsimp only
  rw [h'.position]
  exact (h'.recordAttempt hb _ target).offerIfPositive _

omit hb in
theorem records : t.records (g.on b) = s.records g := by
  rw [Session.records, h.quiet, h.lookahead]
  rfl

theorem expect (target : Target) :
    (s.expect g target).Mirrors b f (t.expect (g.on b) target) := by
  have h' := h.toSignificant hb
  unfold Session.expect
  dsimp only
  rw [h'.records]
  split
  · exact h'.announce hb target
  · exact h'

theorem peekAny (kinds : List Kind) :
    Mirrored b f (s.peekAny g kinds) (t.peekAny (g.on b) kinds) := by
  have h' := h.toSignificant hb
  unfold Session.peekAny
  rw [h.isAborted]
  split
  · exact .mk h
  · dsimp only
    rw [h'.kindHere? hb (g.significant_spec s.position).1]
    exact .mk h'

theorem next (kind : Kind) : Mirrored b f (s.next g kind) (t.next (g.on b) kind) := by
  unfold Session.next
  rw [h.isAborted, h.completion.1, h.completion.2]
  split
  · exact .mk h
  · exact (h.expect hb (.token kind)).peekAny hb [kind]

theorem nextAny (name : Option String) (kinds : List Kind) :
    Mirrored b f (s.nextAny g name kinds) (t.nextAny (g.on b) name kinds) := by
  have h' := h.toSignificant hb
  have hannounced {u v : Session} (huv : u.Mirrors b f v) :
      (kinds.foldl (fun s kind => s.announce g (.token kind)) u).Mirrors b f
        (kinds.foldl (fun s kind => s.announce (g.on b) (.token kind)) v) := by
    induction kinds generalizing u v with
    | nil => exact huv
    | cons kind kinds ih => exact ih (huv.announce hb (.token kind))
  unfold Session.nextAny
  rw [h.isAborted, h.completion.1, h.completion.2, h.records, h.lookahead]
  dsimp only
  split
  · exact .mk h
  · split
    · exact absurd ‹_› Bool.false_ne_true
    · split
      · cases name with
        | none => exact (hannounced h').peekAny hb kinds
        | some name =>
          dsimp only
          rw [h'.position]
          exact (h'.recordAttempt hb _ (.name name)).peekAny hb kinds
      · exact h.peekAny hb kinds

theorem take (kind : Kind) : Mirrored b f (s.take g kind) (t.take (g.on b) kind) := by
  have h' := h.toSignificant hb
  have hs := (g.significant_spec s.position).1
  unfold Session.take Session.peek Session.peekAny
  rw [h.isAborted]
  cases s.isAborted with
  | true => exact .mk h
  | false =>
    simp only [Bool.false_eq_true, if_false]
    rw [h'.kindHere? hb hs]
    cases ((s.toSignificant g).kindHere? g).any _ with
    | true => exact .mk (h'.step hb hs)
    | false => exact .mk h'

theorem consume (kind : Kind) : Mirrored b f (s.consume g kind) (t.consume (g.on b) kind) := by
  unfold Session.consume
  rw [h.isAborted]
  split
  · exact .mk h
  · exact (h.expect hb (.token kind)).take hb kind

theorem takeOffered (kind : Kind) :
    Mirrored b f (s.takeOffered g kind) (t.takeOffered (g.on b) kind) :=
  (h.offerIfPositive _).take hb kind

theorem guardLevel (level : Nat) (rule : String) :
    Mirrored b f (s.guardLevel g level rule) (t.guardLevel (g.on b) level rule) := by
  unfold Session.guardLevel
  rw [h.isAborted]
  split
  · exact .mk h
  · change Mirrored b f _ (if g.limits.recursionCeiling < level then _ else _)
    dsimp only
    split
    · exact .mk ((h.toSignificant hb).abort hb _ _)
    · exact .mk h

theorem guardProgress (rule : String) (position : Nat) :
    Mirrored b f (s.guardProgress g rule position) (t.guardProgress (g.on b) rule (f position)) := by
  unfold Session.guardProgress
  simp only [h.position, hb.strictMono.injective.ne_iff]
  split
  · exact .mk h
  · exact .mk ((h.toSignificant hb).abort hb _ _)

/-! ## Sequences -/

theorem consumeRest (silent : Bool) (pin : Pin) (kinds : List Kind) (index : Nat)
    (result pinned : Bool) :
    Mirrored b f (s.consumeRest g silent pin index result pinned kinds)
      (t.consumeRest (g.on b) silent pin index result pinned kinds) := by
  induction kinds generalizing index result pinned s t with
  | nil => exact .mk h
  | cons kind kinds ih =>
    simp only [Session.consumeRest]
    generalize (if 0 < index && pin == .after index then result else pinned) = pinned'
    split
    · have hone : Mirrored b f (if silent && index == 0 then s.take g kind else s.consume g kind)
          (if silent && index == 0 then t.take (g.on b) kind else t.consume (g.on b) kind) := by
        split
        · exact h.take hb kind
        · exact h.consume hb kind
      obtain ⟨consumed, u, v, hu, hv, huv⟩ := hone.exists_eq
      rw [hu, hv]
      refine ih ?_ ..
      dsimp only
      split
      · exact huv.reportHere hb
      · exact huv
    · exact ih h ..

theorem consumeKinds (silent : Bool) (pin : Pin) (kinds : List Kind) :
    Mirrored b f (s.consumeKinds g silent pin kinds) (t.consumeKinds (g.on b) silent pin kinds) := by
  have h₁ := h.offerIfPositive (g := g) (" ".intercalate (kinds.map g.language.nameOf))
  have h₂ : { s.offerIfPositive g (" ".intercalate (kinds.map g.language.nameOf)) with
      completion := none }.Mirrors b f
      { t.offerIfPositive (g.on b) (" ".intercalate (kinds.map g.language.nameOf)) with
        completion := none } := { h₁ with completion := ⟨rfl, rfl⟩ }
  obtain ⟨hresult, h₃⟩ := h₂.consumeRest hb silent pin kinds 0 true false
  exact ⟨hresult, { h₃ with completion := h₁.completion }⟩

theorem tryKinds (silent : Bool) (pin : Pin) (kinds : List Kind) :
    Mirrored b f (s.tryKinds g silent pin kinds) (t.tryKinds (g.on b) silent pin kinds) := by
  obtain ⟨m, u, v, hu, hv, h₁⟩ := (h.openMarker hb).exists_eq
  obtain ⟨result, u', v', hu', hv', h₂⟩ := (h₁.consumeKinds hb silent pin kinds).exists_eq
  unfold Session.tryKinds
  rw [hu, hv]
  dsimp only
  rw [hu', hv']
  cases result with
  | true => exact .mk (h₂.drop m)
  | false => exact .mk (h₂.rollback m)

end Mirrors

end Session

end Descent
