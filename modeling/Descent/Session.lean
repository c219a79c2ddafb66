import Descent.Attempt
import Descent.Completion
import Descent.Grammar
import Descent.Lookahead
import Descent.Trace

/-!
# Sessions

A session is the state of one parse: the position in the source, the log of markers, the open
sections, and what is kept for error messages, completion and hooks. What stays the same during a
parse is its setup. This module has the steps that everything else is made of: looking at tokens,
working with markers, and ending a session with a fatal error.
-/

namespace Descent

/-- What a parse is given. -/
structure Setup where
  source : Source
  language : Language
  limits : Limits := default
  /-- How messages are put into words. -/
  render : Renderer := Message.english
  /-- How recovery steps over a token. -/
  advancer : RuleRef := .advance
  /-- Whether recovery widens committed nodes even in sections without a kind. -/
  widensAlways : Bool := false
  grammar : Grammar := []

/-- An expression to be run when the section at its level is left. -/
structure Hook where
  level : Nat
  body : Expr
  deriving DecidableEq, Repr

/-- A fatal error, where it is to be shown, and what was found there. -/
structure Aborted where
  error : Fatal
  span : Span
  label : String
  deriving DecidableEq, Repr

/-- The outcome of a step as it is recorded. -/
inductive Value where
  | unit
  | bool (b : Bool)
  | nat (n : Nat)
  | text (s : String)
  deriving DecidableEq, Repr

/-- What a recorded step was. -/
inductive Step where
  | primitive (p : Primitive)
  | guarded (rule : String)
  | leave
  | leaveSimple
  | reporting
  | groupRun
  /-- A hook was left to be run. -/
  | hook
  /-- A hook was run. -/
  | hookRun
  deriving DecidableEq, Repr

/-- A recorded step, its outcome, and the position it ended at. -/
structure Call where
  step : Step
  value : Value
  position : Nat
  deriving DecidableEq, Repr

/-- The state of a parse. -/
structure Session where
  /-- The index of the current token, trivia counted. -/
  position : Nat := 0
  log : MarkerLog := {}
  /-- The open sections that have a frame, the innermost first. -/
  frames : List Frame := []
  lookahead : Lookahead := {}
  attempts : Attempts := {}
  completion : Option Completion := none
  /-- The hooks still to be run, the latest first. -/
  hooks : List Hook := []
  /-- The number of open sections. -/
  level : Nat := 0
  /-- Whether a recovery is under way, during which nothing is recorded or reported. -/
  quiet : Bool := false
  aborted : Option Aborted := none
  /-- What happened, the latest first. -/
  trace : List Event := []
  /-- The steps of the grammar, the latest first. -/
  calls : List Call := []
  deriving DecidableEq, Repr

/-- A way to run rules at a level. There is no answer if the run does not end in time. -/
abbrev Runner := RuleRef → Nat → Session → Option (Bool × Session)

namespace Setup

/-- Whether the token at a position is trivia. -/
def isTriviaAt (g : Setup) (i : Nat) : Bool := g.language.isTrivia? (g.source.kind? i)

/-- The first position from `i` on that has no trivia. -/
def significant (g : Setup) (i : Nat) : Nat :=
  i + ((g.source.tokens.drop i).takeWhile fun t => g.language.isTrivia t.kind).length

/-- The text at a position as an error quotes it: trimmed, and cut to a number of characters. -/
def quotedText (g : Setup) (position : Nat) : String :=
  Text.shorten (Text.trim (g.source.textAt position)) g.limits.quotedCharacters

/-- What an error says about the text at its place. -/
def labelFor (g : Setup) (text : String) : String :=
  g.render (if text.isEmpty then .foundEndOfInput else .found text)

end Setup

namespace Session

instance : Inhabited Session := ⟨{}⟩

/-- Adds an event to the trace. -/
def note (s : Session) (e : Event) : Session := { s with trace := e :: s.trace }

/-- Records a step. -/
def recordCall (s : Session) (step : Step) (value : Value) : Session :=
  { s with calls := ⟨step, value, s.position⟩ :: s.calls }

/-- Whether the session was ended by a fatal error. -/
def isAborted (s : Session) : Bool := s.aborted.isSome

/-! ## Tokens -/

/-- Goes on to the next token that is no trivia. -/
def toSignificant (g : Setup) (s : Session) : Session :=
  { s with position := g.significant s.position }

/-- The kind of the token at the position, none at the end of the source. -/
def kindHere? (g : Setup) (s : Session) : Option Kind := g.source.kind? s.position

def isAtEnd (g : Setup) (s : Session) : Bool := (s.kindHere? g).isNone

/-- The byte offset of the token at the position. -/
def offset (g : Setup) (s : Session) : Nat := g.source.start s.position

/-- Steps over one significant token, if there is one. The answer is whether there was. -/
def stepOver (g : Setup) (s : Session) : Bool × Session :=
  let s := s.toSignificant g
  if s.isAtEnd g then (false, s) else (true, { s with position := s.position + 1 })

/-! ## Markers -/

/-- Opens a marker at the next significant token. -/
def openMarker (g : Setup) (s : Session) : Marker × Session :=
  let s := s.toSignificant g
  let (m, log) := s.log.openAt s.position
  (m, { s with log })

/-- Commits a marker as a node that ends at the position. A marker that is not open stays as it
is, which is noted. -/
def commit (m : Marker) (kind : Kind) (error : Option SyntaxError) (s : Session) : Session :=
  let s := match s.log.stage? m with
    | none | some .opened => s
    | some stage => s.note (.commitNotOpen m stage)
  { s with log := s.log.commit m kind error s.position }

/-- Commits a marker as a node of a kind. -/
def commitAs (m : Marker) (kind : Kind) (s : Session) : Session := s.commit m kind none

/-- Forgets a marker, but nothing inside it. -/
def drop (m : Marker) (s : Session) : Session := { s with log := s.log.drop m }

/-- Erases a marker with everything after it and goes back to where it was opened. -/
def rollback (m : Marker) (s : Session) : Session :=
  match s.log.rollback m with
  | some (position, log) => { s with position, log }
  | none => s

/-- Opens a marker that will wrap another one. -/
def wrap (m : Marker) (s : Session) : Marker × Session :=
  let s := if s.log.isStarted m then s else s.note (.wrapUnstarted m)
  let (outer, log) := s.log.wrap m
  (outer, { s with log })

/-- Commits a committed node anew so that it ends at the position. -/
def widen (m : Marker) (s : Session) : Session :=
  match s.log.kind? m with
  | none => s
  | some kind =>
    let (wider, s) := s.wrap m
    let s := match s.log.error? m with
      | some error => s.commit wider .error (some error)
      | none => s.commitAs wider kind
    s.drop m

/-! ## Fatal errors -/

/-- Ends the session. Only the first fatal error is kept. -/
def abort (g : Setup) (error : Fatal) (s : Session) : Session :=
  if s.isAborted then s
  else
    let s := (s.note (.aborted error)).toSignificant g
    { s with aborted := some ⟨error, .point error.offset, g.labelFor (g.quotedText s.position)⟩ }

end Session

end Descent
