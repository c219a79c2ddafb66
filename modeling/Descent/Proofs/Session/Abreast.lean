import Descent.Proofs.MarkerLog.MapErrors
import Descent.Proofs.Session.SkipAll

/-!
# Two states abreast

Two runs of a parse are compared that may put errors into different words and collect different
candidates for completion. What is compared of errors and candidates, and after which fatal errors
nothing is, a `Comparison` says; all else has to be the same (`Session.Twins`). Errors and candidates
never decide what is done next, so a step makes twins of twins. This module has the steps on markers, the
reports of errors and the token tests.

Three primitives ask whether candidates are collected, and three more go over trivia to offer theirs even
after a fatal error. What is said of those supposes that both runs collect candidates or neither does
(`Comparison.Collects`).
-/

namespace Descent

/-! ## Wordings -/

/-- How errors are put into words. -/
structure Wording where
  render : Renderer
  listedTargets : Nat
  quotedCharacters : Nat
  listedTargets_ge : 1 ≤ listedTargets

namespace Setup

def wording (g : Setup) : Wording :=
  ⟨g.render, g.limits.listedTargets, g.limits.quotedCharacters, g.limits.listedTargets_ge⟩

/-- The same parse with errors put into other words. -/
def reword (g : Setup) (w : Wording) : Setup :=
  { g with
    render := w.render
    limits := { g.limits with
      listedTargets := w.listedTargets
      quotedCharacters := w.quotedCharacters
      listedTargets_ge := w.listedTargets_ge } }

/-- In its own wording a parse says the same. -/
theorem reword_wording (g : Setup) : g.reword g.wording = g := rfl

end Setup

/-- Whether all steps of an expression are allowed, those of its hooks too. -/
def Expr.all (allows : Primitive → Bool) : Expr → Bool
  | const _ | flag _ | call _ | has _ | groupRun .. => true
  | prim p => allows p
  | seq a b | and a b | or a b | leave _ _ a b _ _ => a.all allows && b.all allows
  | ite c t f => c.all allows && (t.all allows && f.all allows)
  | not a | set _ a | loop a | guarded _ a | reporting a | leaveSimple _ _ a | hook a =>
    a.all allows

/-- The event with its error changed. -/
def Event.mapError (f : SyntaxError → SyntaxError) : Event → Event
  | errorReported position error advance inner => errorReported position (f error) advance inner
  | e => e

/-! ## Comparisons -/

/-- What is compared when a parse is run a second time in another wording. The second run tells the
same of what is compared. -/
structure Comparison (g : Setup) where
  wording : Wording
  /-- What is compared of an error. -/
  error : SyntaxError → SyntaxError
  /-- What is compared of a fatal error. -/
  aborted : Aborted → Aborted
  /-- What is compared of the candidates. -/
  completion : Option Completion → Option Completion
  /-- The fatal errors after which nothing is compared. -/
  ends : Aborted → Prop
  /-- The steps that hooks take. -/
  allows : Primitive → Bool
  isEmpty_expectedHere (s : Session) :
    (s.expectedHere (g.reword wording)).isEmpty = (s.expectedHere g).isEmpty
  error_errorHere (s : Session) :
    error (s.errorHere (g.reword wording) (s.expectedHere (g.reword wording))) =
      error (s.errorHere g (s.expectedHere g))
  aborted_label (fatal : Fatal) (span : Span) (position : Nat) :
    aborted ⟨fatal, span, (g.reword wording).labelFor ((g.reword wording).quotedText position)⟩ =
      aborted ⟨fatal, span, g.labelFor (g.quotedText position)⟩
  completion_offer {c c' : Option Completion} (h : completion c' = completion c) (position : Nat)
    (text : String) :
    completion (c'.map (·.offer g.source g.language position text)) =
      completion (c.map (·.offer g.source g.language position text))

namespace Comparison

variable {g : Setup} (k : Comparison g)

/-- The setup of the second run. -/
abbrev other : Setup := g.reword k.wording

/-- Nothing is compared any more. -/
def Over (s : Session) : Prop := ∃ a, s.aborted = some a ∧ k.ends a

/-- Both runs collect candidates, or neither does. -/
def Collects : Prop :=
  ∀ {c c' : Option Completion}, k.completion c' = k.completion c → c'.isSome = c.isSome

end Comparison

namespace Session

variable {g : Setup}

/-- Two states are the same as far as they are compared. -/
structure Twins (k : Comparison g) (s t : Session) : Prop where
  position : t.position = s.position
  log : t.log.mapErrors k.error = s.log.mapErrors k.error
  frames : t.frames = s.frames
  lookahead : t.lookahead = s.lookahead
  attempts : t.attempts = s.attempts
  completion : k.completion t.completion = k.completion s.completion
  hooks : t.hooks = s.hooks
  allowed : ∀ hook ∈ s.hooks, hook.body.all k.allows = true
  level : t.level = s.level
  quiet : t.quiet = s.quiet
  aborted : t.aborted.map k.aborted = s.aborted.map k.aborted
  trace : t.trace.map (·.mapError k.error) = s.trace.map (·.mapError k.error)
  calls : t.calls = s.calls

end Session

/-- Results that come with a state can be compared, too. -/
class Comparable (γ : Type) where
  state : γ → Session
  /-- The results are the same as far as they are compared. -/
  Alike {g : Setup} : Comparison g → γ → γ → Prop

open Comparable (state Alike)

instance : Comparable Session := ⟨id, Session.Twins⟩

instance {α γ : Type} [Comparable γ] : Comparable (α × γ) :=
  ⟨fun x => state x.2, fun k x y => y.1 = x.1 ∧ Alike k x.2 y.2⟩

section
variable {g : Setup} {k : Comparison g} {α γ : Type} [Comparable γ]

theorem Comparable.Alike.pair {a : α} {x y : γ} (h : Alike k x y) : Alike k (a, x) (a, y) :=
  ⟨rfl, h⟩

theorem Comparable.Alike.exists_eq {x y : α × γ} (h : Alike k x y) :
    ∃ a u v, x = (a, u) ∧ y = (a, v) ∧ Alike k u v :=
  ⟨x.1, x.2, y.2, rfl, Prod.ext h.1 rfl, h.2⟩

end

/-- Where there is no trivia, an offer does not move. -/
theorem Session.offer_eq {g : Setup} {s : Session} (hs : g.significant s.position = s.position)
    (text : String) : s.offer g text =
      { s with completion := s.completion.map (·.offer g.source g.language s.position text) } := by
  obtain ⟨position, _, _, _, _, completion⟩ := s
  have hs : g.significant position = position := hs
  cases completion with
  | none => rfl
  | some c => simp only [offer, toSignificant, hs, Option.map_some]

theorem Session.position_recordAttempt (s : Session) (position : Nat) (target : Target) :
    (s.recordAttempt position target).position = s.position := by
  unfold recordAttempt
  dsimp only
  split <;> rfl

namespace Session.Twins

variable {g : Setup} {k : Comparison g} {s t : Session}

/-! ## What twins have in common -/

theorem refl (hs : ∀ hook ∈ s.hooks, hook.body.all k.allows = true) : s.Twins k s :=
  ⟨rfl, rfl, rfl, rfl, rfl, rfl, rfl, hs, rfl, rfl, rfl, rfl, rfl⟩

theorem isAborted (h : s.Twins k t) : t.isAborted = s.isAborted := by
  have haborted := congrArg Option.isSome h.aborted
  rwa [Option.isSome_map, Option.isSome_map] at haborted

theorem stage? (h : s.Twins k t) (m : Marker) : t.log.stage? m = s.log.stage? m := by
  have hstage := congrArg (·.stage? m) h.log
  simpa only [MarkerLog.stage?_mapErrors] using hstage

theorem kind? (h : s.Twins k t) (m : Marker) : t.log.kind? m = s.log.kind? m := by
  have hkind := congrArg (·.kind? m) h.log
  simpa only [MarkerLog.kind?_mapErrors] using hkind

theorem start (h : s.Twins k t) (m : Marker) : t.log.start m = s.log.start m := by
  have hstart := congrArg (·.start m) h.log
  simpa only [MarkerLog.start_mapErrors] using hstart

theorem stop (h : s.Twins k t) (m : Marker) : t.log.stop m = s.log.stop m := by
  have hstop := congrArg (·.stop m) h.log
  simpa only [MarkerLog.stop_mapErrors] using hstop

theorem isStarted (h : s.Twins k t) (m : Marker) : t.log.isStarted m = s.log.isStarted m :=
  congrArg (·.isStarted m) h.log

theorem lastCommitted? (h : s.Twins k t) : t.log.lastCommitted? = s.log.lastCommitted? := by
  have hlast := congrArg (·.lastCommitted?) h.log
  simpa only [MarkerLog.lastCommitted?_mapErrors] using hlast

theorem lastWidenable? (h : s.Twins k t) : t.log.lastWidenable? = s.log.lastWidenable? := by
  have hlast := congrArg (·.lastWidenable?) h.log
  simpa only [MarkerLog.lastWidenable?_mapErrors] using hlast

/-! ## Single fields -/

theorem note (h : s.Twins k t) (e : Event) : (s.note e).Twins k (t.note e) :=
  { h with trace := congrArg (e.mapError k.error :: ·) h.trace }

theorem recordCall (h : s.Twins k t) (step : Step) (value : Value) :
    (s.recordCall step value).Twins k (t.recordCall step value) :=
  { h with calls := by simp only [Session.recordCall, h.calls, h.position] }

theorem seek (h : s.Twins k t) (p : Nat) :
    { s with position := p }.Twins k { t with position := p } := { h with position := rfl }

theorem setLog (h : s.Twins k t) {log log' : MarkerLog}
    (hlog : log'.mapErrors k.error = log.mapErrors k.error) :
    { s with log }.Twins k { t with log := log' } := { h with log := hlog }

theorem setFrames (h : s.Twins k t) (frames : List Frame) :
    { s with frames }.Twins k { t with frames } := { h with frames := rfl }

theorem setLevel (h : s.Twins k t) (level : Nat) : { s with level }.Twins k { t with level } :=
  { h with level := rfl }

theorem setQuiet (h : s.Twins k t) (quiet : Bool) : { s with quiet }.Twins k { t with quiet } :=
  { h with quiet := rfl }

theorem setLookahead (h : s.Twins k t) (lookahead : Lookahead) :
    { s with lookahead }.Twins k { t with lookahead } := { h with lookahead := rfl }

theorem setCompletion (h : s.Twins k t) {c c' : Option Completion}
    (hc : k.completion c' = k.completion c) :
    { s with completion := c }.Twins k { t with completion := c' } := { h with completion := hc }

theorem setAborted (h : s.Twins k t) {a a' : Aborted} (ha : k.aborted a' = k.aborted a) :
    { s with aborted := some a }.Twins k { t with aborted := some a' } :=
  { h with aborted := congrArg some ha }

theorem modifyFrame (h : s.Twins k t) (change : Frame → Frame) :
    (s.modifyFrame change).Twins k (t.modifyFrame change) :=
  { h with frames := congrArg (·.modifyHead change) h.frames }

section
variable (h : s.Twins k t)
include h

/-! ## Positions -/

theorem toSignificant : (s.toSignificant g).Twins k (t.toSignificant k.other) := by
  unfold Session.toSignificant
  rw [h.position]
  exact h.seek _

theorem kindHere? : t.kindHere? k.other = s.kindHere? g := by
  rw [Session.kindHere?, h.position]
  rfl

theorem isAtEnd : t.isAtEnd k.other = s.isAtEnd g := by
  rw [Session.isAtEnd, h.kindHere?]
  rfl

theorem offset : t.offset k.other = s.offset g := by
  rw [Session.offset, h.position]
  rfl

theorem stepOver : Alike k (s.stepOver g) (t.stepOver k.other) := by
  have h' := h.toSignificant
  unfold Session.stepOver
  dsimp only
  rw [h'.isAtEnd, h'.position]
  split
  · exact .pair h'
  · exact .pair (h'.seek _)

theorem abort (error : Fatal) : (s.abort g error).Twins k (t.abort k.other error) := by
  have h' := (h.note (.aborted error)).toSignificant
  unfold Session.abort
  rw [h.isAborted]
  split
  · exact h
  · refine h'.setAborted ?_
    rw [h'.position]
    exact k.aborted_label ..

/-! ## Markers -/

theorem openMarker : Alike k (s.openMarker g) (t.openMarker k.other) := by
  have h' := h.toSignificant
  have hopen := congrArg (·.openAt (s.toSignificant g).position) h'.log
  simp only [MarkerLog.openAt_mapErrors] at hopen
  obtain ⟨hmarker, hlog⟩ := Prod.mk.inj hopen
  refine ⟨hmarker, h'.setLog ?_⟩
  rw [h'.position]
  exact hlog

theorem commit (m : Marker) (kind : Kind) {error error' : Option SyntaxError}
    (herror : error'.map k.error = error.map k.error) :
    (s.commit m kind error).Twins k (t.commit m kind error') := by
  have hcommit {u v : Session} (huv : u.Twins k v) :
      { u with log := u.log.commit m kind error u.position }.Twins k
        { v with log := v.log.commit m kind error' v.position } := by
    refine huv.setLog ?_
    rw [← MarkerLog.commit_mapErrors, ← MarkerLog.commit_mapErrors, huv.log, huv.position, herror]
  unfold Session.commit
  dsimp only
  rw [h.stage?]
  split
  · exact hcommit h
  · exact hcommit h
  · exact hcommit (h.note _)

theorem commitAs (m : Marker) (kind : Kind) : (s.commitAs m kind).Twins k (t.commitAs m kind) :=
  h.commit m kind rfl

theorem drop (m : Marker) : (s.drop m).Twins k (t.drop m) := by
  refine h.setLog ?_
  rw [← MarkerLog.drop_mapErrors, ← MarkerLog.drop_mapErrors, h.log]

theorem rollback (m : Marker) : (s.rollback m).Twins k (t.rollback m) := by
  have hrollback := congrArg (·.rollback m) h.log
  simp only [MarkerLog.rollback_mapErrors] at hrollback
  unfold Session.rollback
  cases hs : s.log.rollback m with
  | none =>
    rw [hs, Option.map_none, Option.map_eq_none_iff] at hrollback
    rw [hrollback]
    exact h
  | some x =>
    rw [hs, Option.map_some, Option.map_eq_some_iff] at hrollback
    obtain ⟨y, hy, hxy⟩ := hrollback
    obtain ⟨hposition, hlog⟩ := Prod.mk.inj hxy
    rw [hy]
    exact { h with position := hposition, log := hlog }

theorem wrap (m : Marker) : Alike k (s.wrap m) (t.wrap m) := by
  have hwrap {u v : Session} (huv : u.Twins k v) :
      Alike k ((u.log.wrap m).1, { u with log := (u.log.wrap m).2 })
        ((v.log.wrap m).1, { v with log := (v.log.wrap m).2 }) := by
    have hlog := congrArg (·.wrap m) huv.log
    simp only [MarkerLog.wrap_mapErrors] at hlog
    obtain ⟨hmarker, hlog⟩ := Prod.mk.inj hlog
    exact ⟨hmarker, huv.setLog hlog⟩
  unfold Session.wrap
  dsimp only
  rw [h.isStarted]
  split
  · exact hwrap h
  · exact hwrap (h.note _)

theorem widen (m : Marker) : (s.widen m).Twins k (t.widen m) := by
  unfold Session.widen
  rw [h.kind?]
  cases s.log.kind? m with
  | none => exact h
  | some kind =>
    obtain ⟨wider, u, v, hu, hv, hwrap⟩ := (h.wrap m).exists_eq
    dsimp only
    rw [hu, hv]
    have herror := congrArg (·.error? m) hwrap.log
    simp only [MarkerLog.error?_mapErrors] at herror
    dsimp only
    cases hu : u.log.error? m with
    | none =>
      rw [hu, Option.map_none, Option.map_eq_none_iff] at herror
      rw [herror]
      exact (hwrap.commitAs wider kind).drop m
    | some error =>
      rw [hu, Option.map_some, Option.map_eq_some_iff] at herror
      obtain ⟨error', hv, herror⟩ := herror
      have hsome : (some error').map k.error = (some error).map k.error := congrArg some herror
      rw [hv]
      exact (hwrap.commit wider .error hsome).drop m

/-! ## Reports -/

theorem isEmpty_expectedHere :
    (t.expectedHere k.other).isEmpty = (s.expectedHere g).isEmpty := by
  have hsame : t.expectedHere k.other = s.expectedHere k.other := by
    unfold Session.expectedHere
    rw [h.attempts, h.position]
  rw [hsame, k.isEmpty_expectedHere]

theorem errorHere :
    k.error (t.errorHere k.other (t.expectedHere k.other)) =
      k.error (s.errorHere g (s.expectedHere g)) := by
  have hsame : t.errorHere k.other (t.expectedHere k.other) =
      s.errorHere k.other (s.expectedHere k.other) := by
    unfold Session.errorHere Session.expectedHere
    rw [h.attempts, h.position]
  rw [hsame, k.error_errorHere]

theorem insertError {error error' : SyntaxError} (herror : k.error error' = k.error error) :
    (s.insertError g error).Twins k (t.insertError k.other error') := by
  obtain ⟨m, u, v, hu, hv, hopen⟩ := h.openMarker.exists_eq
  have hsome : (some error').map k.error = (some error).map k.error := congrArg some herror
  unfold Session.insertError
  rw [hu, hv]
  exact hopen.commit m .error hsome

theorem widenOver (node : Option Marker) (site : Nat) :
    (s.widenOver node site).Twins k (t.widenOver node site) := by
  unfold Session.widenOver
  cases node with
  | none => exact h
  | some m =>
    dsimp only
    rw [h.start, h.stop]
    split
    · exact h.widen m
    · exact h

theorem reported {error error' : SyntaxError} (herror : k.error error' = k.error error)
    (position : Nat) (advance inner : Bool) :
    (s.note (.errorReported position error advance inner)).Twins k
      (t.note (.errorReported position error' advance inner)) := by
  have hevent := congrArg (Event.errorReported position · advance inner) herror
  exact { h with trace := congrArg₂ List.cons hevent h.trace }

theorem report (site : Nat) (inner force : Bool) :
    Alike k (s.report g site inner force) (t.report k.other site inner force) := by
  have h' := h.toSignificant
  unfold Session.report
  rw [h.isAborted]
  split
  · exact .pair h
  · dsimp only
    rw [h'.isEmpty_expectedHere]
    split
    · exact .pair h'
    · have herror := h'.errorHere
      rw [h'.position]
      generalize (s.toSignificant g).errorHere g _ = error at herror
      generalize (t.toSignificant k.other).errorHere k.other _ = error' at herror
      have hnoted := h'.reported herror (s.toSignificant g).position false inner
      have hinserted := hnoted.insertError herror
      have hend {u v : Session} (huv : u.Twins k v) :
          Alike k (some (u.toSignificant g).position, u.toSignificant g)
            (some (v.toSignificant k.other).position, v.toSignificant k.other) :=
        ⟨congrArg some huv.toSignificant.position, huv.toSignificant⟩
      split
      · rw [hnoted.lastWidenable?]
        exact hend (hinserted.widenOver _ site)
      · exact hend hinserted

theorem reportInFrame (site : Nat) (inner : Bool) :
    (s.reportInFrame g site inner).Twins k (t.reportInFrame k.other site inner) := by
  obtain ⟨position?, u, v, hu, hv, hreport⟩ := (h.report site inner true).exists_eq
  unfold Session.reportInFrame
  rw [hu, hv]
  cases position? with
  | none => exact hreport
  | some position => exact hreport.modifyFrame _

theorem reportHere : (s.reportHere g).Twins k (t.reportHere k.other) := by
  have h' := h.toSignificant
  unfold Session.reportHere
  dsimp only
  rw [h'.frames, h'.position]
  cases (s.toSignificant g).frames with
  | nil => exact h'.note _
  | cons frame frames =>
    dsimp only
    split
    · exact h'.reportInFrame frame.position false
    · exact h'

theorem reportAgain : (s.reportAgain g).Twins k (t.reportAgain k.other) := by
  unfold Session.reportAgain
  rw [h.quiet, h.isAborted, h.frames, h.lastCommitted?]
  split
  · exact h
  · cases s.frames with
    | nil => exact h
    | cons frame frames =>
      dsimp only
      rw [h.position]
      split
      · cases s.log.lastCommitted? with
        | none => exact h.toSignificant.reportInFrame frame.position _
        | some m =>
          simp only [h.stop]
          exact h.toSignificant.reportInFrame frame.position _
      · exact h

/-! ## Token tests -/

theorem recordAttempt (position : Nat) (target : Target) :
    (s.recordAttempt position target).Twins k (t.recordAttempt position target) := by
  have hpushed : { s with attempts := s.attempts.push s.lookahead.positive ⟨position, target⟩ }.Twins
      k { t with attempts := t.attempts.push t.lookahead.positive ⟨position, target⟩ } :=
    { h with attempts := by rw [h.attempts, h.lookahead] }
  unfold Session.recordAttempt
  dsimp only
  simp only [h.lookahead] at hpushed ⊢
  split
  · exact hpushed.modifyFrame _
  · exact hpushed

theorem offerIfPositive (hs : g.significant s.position = s.position) (text : String) :
    (s.offerIfPositive g text).Twins k (t.offerIfPositive k.other text) := by
  have ht : k.other.significant t.position = t.position := by
    rw [h.position]
    exact hs
  unfold Session.offerIfPositive
  rw [h.lookahead]
  split
  · rw [offer_eq hs, offer_eq ht]
    refine h.setCompletion ?_
    rw [h.position]
    exact k.completion_offer h.completion s.position text
  · exact h

theorem announce (target : Target) :
    (s.announce g target).Twins k (t.announce k.other target) := by
  have h' := h.toSignificant
  have hs : g.significant (s.toSignificant g).position = (s.toSignificant g).position :=
    significant_significant g s.position
  unfold Session.announce
  dsimp only
  rw [h'.position]
  refine (h'.recordAttempt _ target).offerIfPositive ?_ _
  rw [position_recordAttempt]
  exact hs

theorem records : t.records k.other = s.records g := by
  rw [Session.records, h.quiet, h.lookahead]
  rfl

theorem expect (target : Target) : (s.expect g target).Twins k (t.expect k.other target) := by
  have h' := h.toSignificant
  unfold Session.expect
  dsimp only
  rw [h'.records]
  split
  · exact h'.announce target
  · exact h'

theorem peekAny (kinds : List Kind) : Alike k (s.peekAny g kinds) (t.peekAny k.other kinds) := by
  have h' := h.toSignificant
  unfold Session.peekAny
  rw [h.isAborted]
  split
  · exact .pair h
  · dsimp only
    rw [h'.kindHere?]
    exact .pair h'

theorem take (kind : Kind) : Alike k (s.take g kind) (t.take k.other kind) := by
  obtain ⟨b, u, v, hu, hv, huv⟩ := (h.peekAny [kind]).exists_eq
  unfold Session.take Session.peek
  rw [hu, hv]
  cases b with
  | true =>
    dsimp only
    rw [huv.position]
    exact .pair (huv.seek _)
  | false => exact .pair huv

theorem consume (kind : Kind) : Alike k (s.consume g kind) (t.consume k.other kind) := by
  unfold Session.consume
  rw [h.isAborted]
  split
  · exact .pair h
  · exact (h.expect (.token kind)).take kind

theorem literalLength? (literal : String) :
    t.literalLength? k.other literal = s.literalLength? g literal := by
  unfold Session.literalLength?
  rw [h.offset, h.position]
  rfl

theorem consumeLiteral (literal : String) :
    Alike k (s.consumeLiteral g literal) (t.consumeLiteral k.other literal) := by
  have h' := h.expect (.text literal)
  unfold Session.consumeLiteral
  rw [h.isAborted]
  dsimp only
  rw [h'.literalLength?]
  split
  · exact .pair h
  · cases (s.expect g (.text literal)).literalLength? g literal with
    | none => exact .pair h'
    | some n =>
      dsimp only
      rw [h'.position]
      exact .pair (h'.seek _)

theorem guardLevel (level : Nat) (rule : String) :
    Alike k (s.guardLevel g level rule) (t.guardLevel k.other level rule) := by
  have h' := h.toSignificant
  unfold Session.guardLevel
  rw [h.isAborted]
  split
  · exact .pair h
  · dsimp only
    rw [h'.offset]
    change Alike k _ (if g.limits.recursionCeiling < level then _ else _)
    split
    · exact .pair (h'.abort _)
    · exact .pair h

theorem guardProgress (rule : String) (position : Nat) :
    Alike k (s.guardProgress g rule position) (t.guardProgress k.other rule position) := by
  have h' := h.toSignificant
  unfold Session.guardProgress
  dsimp only
  rw [h.position, h'.offset]
  split
  · exact .pair h
  · exact .pair (h'.abort _)

/-! ## Sequences -/

theorem consumeRest (silent : Bool) (pin : Pin) (kinds : List Kind) (index : Nat)
    (result pinned : Bool) :
    Alike k (s.consumeRest g silent pin index result pinned kinds)
      (t.consumeRest k.other silent pin index result pinned kinds) := by
  induction kinds generalizing index result pinned s t with
  | nil => exact .pair h
  | cons kind kinds ih =>
    simp only [Session.consumeRest]
    generalize (if 0 < index && pin == .after index then result else pinned) = pinned'
    split
    · have hone : Alike k (if silent && index == 0 then s.take g kind else s.consume g kind)
          (if silent && index == 0 then t.take k.other kind else t.consume k.other kind) := by
        split
        · exact h.take kind
        · exact h.consume kind
      obtain ⟨consumed, u, v, hu, hv, huv⟩ := hone.exists_eq
      rw [hu, hv]
      refine ih ?_ ..
      dsimp only
      split
      · exact huv.reportHere
      · exact huv
    · exact ih h ..

/-! ## Tests that depend on the candidates being collected -/

section
variable (hk : k.Collects)
include hk

/-- Where both runs collect candidates or neither does, an offer moves both or neither. -/
theorem offerAlways (text : String) :
    (s.offerIfPositive g text).Twins k (t.offerIfPositive k.other text) := by
  have h' := h.toSignificant
  have hcollects := hk h.completion
  have hoffer : k.completion (t.completion.map
      (·.offer g.source g.language (t.toSignificant k.other).position text)) =
      k.completion (s.completion.map
        (·.offer g.source g.language (s.toSignificant g).position text)) := by
    rw [h'.position]
    exact k.completion_offer h.completion _ text
  unfold Session.offerIfPositive Session.offer
  rw [h.lookahead]
  split
  · cases hs : s.completion with
    | none =>
      rw [hs, Option.isSome_none, Option.isSome_eq_false_iff, Option.isNone_iff_eq_none]
        at hcollects
      rw [hcollects]
      exact h
    | some c =>
      rw [hs, Option.isSome_some, Option.isSome_iff_exists] at hcollects
      obtain ⟨c', ht⟩ := hcollects
      rw [hs, ht] at hoffer
      rw [ht]
      exact h'.setCompletion hoffer
  · exact h

theorem takeOffered (kind : Kind) :
    Alike k (s.takeOffered g kind) (t.takeOffered k.other kind) :=
  (h.offerAlways hk _).take kind

theorem next (kind : Kind) : Alike k (s.next g kind) (t.next k.other kind) := by
  unfold Session.next
  rw [h.isAborted, hk h.completion]
  split
  · exact .pair h
  · split
    · exact .pair h
    · exact (h.expect (.token kind)).peekAny [kind]

theorem nextAny (name : Option String) (kinds : List Kind) :
    Alike k (s.nextAny g name kinds) (t.nextAny k.other name kinds) := by
  have h' := h.toSignificant
  have hannounced {u v : Session} (huv : u.Twins k v) :
      (kinds.foldl (fun s kind => s.announce g (.token kind)) u).Twins k
        (kinds.foldl (fun s kind => s.announce k.other (.token kind)) v) := by
    induction kinds generalizing u v with
    | nil => exact huv
    | cons kind kinds ih => exact ih (huv.announce (.token kind))
  unfold Session.nextAny
  rw [h.isAborted, hk h.completion, h.records, h.lookahead]
  dsimp only
  split
  · exact .pair h
  · split
    · exact .pair h
    · split
      · cases name with
        | none => exact (hannounced h').peekAny kinds
        | some name =>
          dsimp only
          rw [h'.position]
          exact (h'.recordAttempt _ (.name name)).peekAny kinds
      · exact h.peekAny kinds

theorem nextLiteral (literal : String) :
    Alike k (s.nextLiteral g literal) (t.nextLiteral k.other literal) := by
  have h' := h.expect (.text literal)
  unfold Session.nextLiteral
  rw [h.isAborted, hk h.completion]
  dsimp only
  rw [h'.literalLength?]
  split
  · exact .pair h
  · split
    · exact .pair h
    · exact .pair h'

end

end

/-- A sequence is consumed alike if it is offered alike. -/
theorem consumeKinds_of_offered {text : String}
    (h : (s.offerIfPositive g text).Twins k (t.offerIfPositive k.other text)) (silent : Bool)
    (pin : Pin) {kinds : List Kind} (htext : text = " ".intercalate (kinds.map g.language.nameOf)) :
    Alike k (s.consumeKinds g silent pin kinds) (t.consumeKinds k.other silent pin kinds) := by
  subst htext
  obtain ⟨hresult, hrest⟩ := (h.setCompletion (c := none) rfl).consumeRest silent pin kinds 0 true
    false
  exact ⟨hresult, hrest.setCompletion h.completion⟩

/-- A sequence is tried alike if it is consumed alike. -/
theorem tryKinds_of_consumed (h : s.Twins k t) (silent : Bool) (pin : Pin) {kinds : List Kind}
    (hconsume : ∀ {u v : Session}, u.Twins k v → u.isAborted = s.isAborted →
      Alike k (u.consumeKinds g silent pin kinds) (v.consumeKinds k.other silent pin kinds)) :
    Alike k (s.tryKinds g silent pin kinds) (t.tryKinds k.other silent pin kinds) := by
  obtain ⟨m, u, v, hu, hv, huv⟩ := h.openMarker.exists_eq
  have haborted : u.isAborted = s.isAborted := (congrArg (·.2.isAborted) hu).symm
  obtain ⟨result, u', v', hu', hv', huv'⟩ := (hconsume huv haborted).exists_eq
  unfold Session.tryKinds
  rw [hu, hv]
  dsimp only
  rw [hu', hv']
  cases result with
  | true => exact .pair (huv'.drop m)
  | false => exact .pair (huv'.rollback m)

end Session.Twins

end Descent
