import Descent.Session

/-!
# Error reports

An error is reported at a position as a node of its own, made from the attempts recorded there. A
frame remembers the position of the last error inside its section and hands it on when the section
is left, so that no error is reported twice.
-/

namespace Descent.Session

/-- Changes the innermost frame. -/
def modifyFrame (f : Frame → Frame) (s : Session) : Session :=
  { s with frames := s.frames.modifyHead f }

/-- The list of what would have been accepted at the position, empty if nothing was recorded. -/
def expectedHere (g : Setup) (s : Session) : String :=
  Attempts.listAt s.attempts.expected.toList s.position g.language g.render g.limits.listedTargets

/-- The error at the position: what would have been accepted, else the token that is there. -/
def errorHere (g : Setup) (expected : String) (s : Session) : SyntaxError :=
  let text := g.quotedText s.position
  let (code, message) : Code × Message :=
    if !expected.isEmpty then (.expected, .expected expected)
    else if !text.isEmpty then (.unexpected, .unexpected text)
    else (.leftover, .unexpectedInput)
  ⟨code, g.render message, g.labelFor text⟩

/-- Puts an empty error node at the position. -/
def insertError (g : Setup) (error : SyntaxError) (s : Session) : Session :=
  let (m, s) := s.openMarker g
  s.commit m .error (some error)

/-- Widens a committed node if it reaches over the position `site`. -/
def widenOver (node : Option Marker) (site : Nat) (s : Session) : Session :=
  match node with
  | some m => if s.log.start m ≤ site ∧ site ≤ s.log.stop m then s.widen m else s
  | none => s

/-- Reports an error at the next significant token, in a section that began at `site`. Without
`force` nothing is reported where nothing was expected. With `inner` the node committed just before
is widened over the error. The answer is the position to remember the error by. -/
def report (g : Setup) (site : Nat) (inner force : Bool) (s : Session) : Option Nat × Session :=
  if s.isAborted then (none, s)
  else
    let s := s.toSignificant g
    let expected := s.expectedHere g
    if !force && expected.isEmpty then (none, s)
    else
      let error := s.errorHere g expected
      let s := s.note (.errorReported s.position error false inner)
      let s :=
        if inner then
          let last := s.log.lastWidenable?
          (s.insertError g error).widenOver last site
        else s.insertError g error
      let s := s.toSignificant g
      (some s.position, s)

/-- Reports an error whose node takes in what the advancer steps over at the given level. -/
def reportSwallowing (g : Setup) (run : Runner) (level : Nat) (s : Session) :
    Option (Option Nat × Session) :=
  if s.isAborted then some (none, s)
  else do
    let s := s.toSignificant g
    let error := s.errorHere g (s.expectedHere g)
    let s := s.note (.errorReported s.position error true false)
    let (m, s) := s.openMarker g
    let (_, s) ← run g.advancer level s
    let s := (s.commit m .error (some error)).toSignificant g
    some (some s.position, s)

/-- Reports an error for the innermost frame. -/
def reportInFrame (g : Setup) (site : Nat) (inner : Bool) (s : Session) : Session :=
  match s.report g site inner true with
  | (some position, s) => s.modifyFrame fun f => { f with errorAt := some position }
  | (none, s) => s

/-- Reports an error at the next significant token unless the innermost section has already
reported one there or further ahead, or has recorded no attempt up to there. -/
def reportHere (g : Setup) (s : Session) : Session :=
  let s := s.toSignificant g
  match s.frames with
  | [] => s.note .reportOutsideSection
  | f :: _ =>
    if !f.hasErrorFrom s.position && f.attemptAt.any (· ≤ s.position) then
      s.reportInFrame g f.position false
    else s

/-- Reports an error once more that the innermost section reported further ahead, on input that
has been given back since. -/
def reportAgain (g : Setup) (s : Session) : Session :=
  if s.quiet || s.isAborted then s
  else
    match s.frames with
    | [] => s
    | f :: _ =>
      if f.hasErrorAfter s.position then
        let stop := match s.log.lastCommitted? with
          | some m => s.log.stop m
          | none => s.position + 1
        let inner := stop ≤ s.position && g.significant stop = s.position
        (s.toSignificant g).reportInFrame g f.position inner
      else s

end Descent.Session
