import Descent.Session.Report

/-!
# Token tests

A test looks at the next significant token and, in its consuming forms, steps over it. It first
records what it looks for; `peek` and `take` leave that out. After a fatal error every test fails
and consumes nothing.
-/

namespace Descent.Session

/-! ## Recording -/

/-- Records an attempt, and if it counts as expected, how far the innermost section has come. -/
def recordAttempt (position : Nat) (target : Target) (s : Session) : Session :=
  let s' := { s with attempts := s.attempts.push s.lookahead.positive ⟨position, target⟩ }
  if s.lookahead.positive then s'.modifyFrame (·.recordAttempt position) else s'

/-- Offers a text as a candidate for completion, if one is asked for. -/
def offer (g : Setup) (text : String) (s : Session) : Session :=
  match s.completion with
  | none => s
  | some c =>
    let s := s.toSignificant g
    { s with completion := some (c.offer g.source g.language s.position text) }

/-- Offers a candidate where tests count as expected. -/
def offerIfPositive (g : Setup) (text : String) (s : Session) : Session :=
  if s.lookahead.positive then s.offer g text else s

/-- Records what is looked for at the next significant token and offers it. -/
def announce (g : Setup) (target : Target) (s : Session) : Session :=
  let s := s.toSignificant g
  (s.recordAttempt s.position target).offerIfPositive g (target.describe g.language)

/-- Whether tests record what they look for. -/
def records (g : Setup) (s : Session) : Bool :=
  !s.quiet && s.lookahead.records g.limits.lookaheadDepth

/-- Goes to the next significant token and announces what a test looks for there. -/
def expect (g : Setup) (target : Target) (s : Session) : Session :=
  let s := s.toSignificant g
  if s.records g then s.announce g target else s

/-! ## Single tokens -/

/-- Whether the next significant token has one of the kinds. -/
def peekAny (g : Setup) (kinds : List Kind) (s : Session) : Bool × Session :=
  if s.isAborted then (false, s)
  else
    let s := s.toSignificant g
    ((s.kindHere? g).any kinds.contains, s)

/-- Whether the next significant token has the kind. -/
def peek (g : Setup) (kind : Kind) (s : Session) : Bool × Session := s.peekAny g [kind]

/-- Like `peek`, recording the kind. While candidates are collected it always holds, so that
every alternative gets to offer its own. -/
def next (g : Setup) (kind : Kind) (s : Session) : Bool × Session :=
  if s.isAborted then (false, s)
  else if s.completion.isSome then (true, s)
  else (s.expect g (.token kind)).peek g kind

/-- Like `peekAny`, recording the name if there is one, else every kind. Nothing is recorded
where tests count as unexpected. -/
def nextAny (g : Setup) (name : Option String) (kinds : List Kind) (s : Session) : Bool × Session :=
  if s.isAborted then (false, s)
  else if s.completion.isSome then (true, s)
  else if s.records g && s.lookahead.positive then
    let s := s.toSignificant g
    let s := match name with
      | some name => s.recordAttempt s.position (.name name)
      | none => kinds.foldl (fun s kind => s.announce g (.token kind)) s
    s.peekAny g kinds
  else s.peekAny g kinds

/-- Consumes a token of the kind. -/
def take (g : Setup) (kind : Kind) (s : Session) : Bool × Session :=
  match s.peek g kind with
  | (true, s) => (true, { s with position := s.position + 1 })
  | (false, s) => (false, s)

/-- Consumes a token of the kind, recording the kind. -/
def consume (g : Setup) (kind : Kind) (s : Session) : Bool × Session :=
  if s.isAborted then (false, s) else (s.expect g (.token kind)).take g kind

/-- Consumes a token of the kind, offering the kind but not recording it. -/
def takeOffered (g : Setup) (kind : Kind) (s : Session) : Bool × Session :=
  (s.offerIfPositive g (g.language.nameOf kind)).take g kind

/-! ## Literal texts -/

/-- Whether two texts are the same to a language. -/
def sameText (language : Language) (a b : String) : Bool :=
  if language.caseSensitive then a == b else Text.equalAsciiLetters a b

/-- The number of tokens, trivia counted, that a literal takes up at the position. There is none
if the source reads otherwise or the literal ends inside a token. -/
def literalLength? (g : Setup) (literal : String) (s : Session) : Option Nat :=
  let start := s.offset g
  let stop := start + literal.utf8ByteSize
  if !literal.isEmpty && (Text.slice? g.source.text start stop).any (sameText g.language · literal)
  then
    ((List.range' 1 (g.source.size - s.position)).find? fun n =>
      stop ≤ g.source.start (s.position + n)).filter fun n =>
        g.source.start (s.position + n) = stop
  else none

/-- Consumes a literal, which may span several tokens but has to end with one. -/
def consumeLiteral (g : Setup) (literal : String) (s : Session) : Bool × Session :=
  if s.isAborted then (false, s)
  else
    let s := s.expect g (.text literal)
    match s.literalLength? g literal with
    | some n => (true, { s with position := s.position + n })
    | none => (false, s)

/-- Whether a literal comes next. -/
def nextLiteral (g : Setup) (literal : String) (s : Session) : Bool × Session :=
  if s.isAborted then (false, s)
  else if s.completion.isSome then (true, s)
  else
    let s := s.expect g (.text literal)
    ((s.literalLength? g literal).isSome, s)

/-! ## Sequences -/

/-- Consumes the rest of a sequence, from the kind at `index` on. `result` says whether all kinds
so far have matched, `pinned` whether the sequence is no longer optional. -/
def consumeRest (g : Setup) (silentFirst : Bool) (pin : Pin) (index : Nat) (result pinned : Bool) :
    List Kind → Session → Bool × Session
  | [], s => (pinned || result, s)
  | kind :: kinds, s =>
    let pinned := if 0 < index && pin == .after index then result else pinned
    if result || pinned then
      let (consumed, s) :=
        if silentFirst && index == 0 then s.take g kind else s.consume g kind
      let s := if !consumed && (pin == .report || pinned) then s.reportHere g else s
      consumeRest g silentFirst pin (index + 1) (result && consumed) pinned kinds s
    else consumeRest g silentFirst pin (index + 1) result pinned kinds s

/-- Consumes tokens of the kinds in order. The sequence is offered as one candidate and its tokens
are not offered one by one. -/
def consumeKinds (g : Setup) (silentFirst : Bool) (pin : Pin) (kinds : List Kind) (s : Session) :
    Bool × Session :=
  let s := s.offerIfPositive g (" ".intercalate (kinds.map g.language.nameOf))
  let completion := s.completion
  let (result, s) := consumeRest g silentFirst pin 0 true false kinds { s with completion := none }
  (result, { s with completion })

/-- Consumes tokens of the kinds in order, or else goes back to where it began. -/
def tryKinds (g : Setup) (silentFirst : Bool) (pin : Pin) (kinds : List Kind) (s : Session) :
    Bool × Session :=
  let (m, s) := s.openMarker g
  match s.consumeKinds g silentFirst pin kinds with
  | (true, s) => (true, s.drop m)
  | (false, s) => (false, s.rollback m)

/-! ## Guards -/

/-- Fails, and ends the session, at a level past the recursion ceiling. -/
def guardLevel (g : Setup) (level : Nat) (rule : String) (s : Session) : Bool × Session :=
  if s.isAborted then (false, s)
  else
    let limit := g.limits.recursionCeiling
    if limit < level then
      let s := s.toSignificant g
      (false, s.abort g (.tooDeep limit rule (s.offset g)))
    else (true, s)

/-- Fails, and ends the session, if nothing was consumed since `position`. -/
def guardProgress (g : Setup) (rule : String) (position : Nat) (s : Session) : Bool × Session :=
  if position ≠ s.position then (true, s)
  else
    let s := s.toSignificant g
    (false, s.abort g (.emptyRound rule (s.offset g)))

end Descent.Session
