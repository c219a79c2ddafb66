import Descent.Session.Chunks

/-!
# Recovery

A section may be left with a condition under which it eats more. Then tokens are skipped up to the
furthest position at which anything was expected, one error is reported for what was skipped, and
what the condition still holds for is grouped into chunks. Meanwhile nothing is recorded and no
other error is reported.
-/

namespace Descent.Session

/-- Reports for a frame that is no longer open. -/
def reportFor (g : Setup) (frame : Frame) (inner force : Bool) (s : Session) :
    Bool × Frame × Session :=
  match s.report g frame.position inner force with
  | (some position, s) => (true, { frame with errorAt := some position }, s)
  | (none, s) => (false, frame, s)

/-- Reports for a frame that is no longer open, swallowing a token. -/
def reportSwallowingFor (g : Setup) (run : Runner) (frame : Frame) (s : Session) :
    Option (Bool × Frame × Session) := do
  match ← s.reportSwallowing g run (frame.level + 1) with
  | (some position, s) => some (true, { frame with errorAt := some position }, s)
  | (none, s) => some (false, frame, s)

/-- How much deeper inside delimiters a token leads. -/
def depthStep (g : Setup) (token : Option Kind) : Int :=
  match g.language.delimiters.head? with
  | none => 0
  | some pair =>
    if token = some pair.opening then 1 else if token = some pair.closing then -1 else 0

/-- Steps over tokens while the condition holds or a region entered on the way is open, but not
past `lastError`, in at most `rounds` rounds. The answer is whether the condition held last. -/
def skipRun (g : Setup) (run : Runner) (eatMore : RuleRef) (name : String) (level lastError : Nat) :
    (rounds : Nat) → (more : Bool) → (depth : Int) → Session → Option (Bool × Session)
  | 0, _, _, _ => none
  | rounds + 1, more, depth, s =>
    if (more || 0 < depth) && s.position < lastError then do
      let s := s.toSignificant g
      let depth := depth + depthStep g (s.kindHere? g)
      let before := s.position
      if lastError ≤ before then some (more, s)
      else
        let (_, s) ← run g.advancer level s
        if s.position = before then
          let s := s.toSignificant g
          some (more, s.abort g (.stuckRecovery name (s.offset g)))
        else
          let (more, s) ← run eatMore level s
          skipRun g run eatMore name level lastError rounds more depth s
    else some (more, s)

/-- Makes the counts of attempts start from nothing, from the innermost frame up to the first one
whose count already does. -/
def resetCounts : List Frame → List Frame
  | [] => []
  | f :: fs =>
    if f.attemptsBefore = 0 then f :: fs else { f with attemptsBefore := 0 } :: resetCounts fs

/-- Forgets all attempts once they have been reported or are no longer of use. -/
def clearAttempts (frame : Frame) (s : Session) : Frame × Session :=
  ({ frame with attemptAt := none, attemptsBefore := 0 },
    { s with
      attempts := s.attempts.clear
      frames := if 0 < frame.attemptsBefore then resetCounts s.frames else s.frames })

/-- Reports what was skipped and groups what the condition still holds for. The first answer is
whether an error has been reported. -/
def reportSkipped (g : Setup) (run : Runner) (rounds : Nat) (frame : Frame) (kind : Option Kind)
    (result pinned : Bool) (eatMore : RuleRef) (initial : Nat) (eatsFirst more : Bool)
    (s : Session) : Option (Bool × Frame × Session) := do
  let level := frame.level + 1
  let reported := frame.errorAt == some initial || (!result && frame.hasErrorFrom frame.position)
  if reported || more then
    let (reported, frame, s) ←
      if !reported then reportSwallowingFor g run frame s
      else if more then (run g.advancer level s).map fun (_, s) => (true, frame, s)
      else some (true, frame, s)
    if s.isAborted then some (reported, frame, s)
    else
      let (again, s) ← run eatMore level s
      if again then
        let (_, s) ← s.groupRun g run rounds level .chunk true g.advancer eatMore
        some (reported, frame, s)
      else some (reported, frame, s)
  else if eatsFirst || (!result && frame.position ≠ s.position) || frame.hasErrorAfter initial then
    some (reportFor g frame false true s)
  else if !result && pinned && frame.errorAt.isNone then
    some (reportFor g frame kind.isSome false s)
  else some (false, frame, s)

/-- Skips what the section of `frame` left behind. `initial` is where it ended, `lastError` the
furthest position at which anything was expected inside. -/
def recover (g : Setup) (run : Runner) (rounds : Nat) (frame : Frame) (kind : Option Kind)
    (result pinned : Bool) (eatMore : RuleRef) (initial lastError : Nat) (s : Session) :
    Option (Frame × Session) := do
  let level := frame.level + 1
  let s := { s with quiet := true }.toSignificant g
  let (eatsFirst, s) ← if s.isAtEnd g then some (false, s) else run eatMore level s
  let more :=
    eatsFirst || (!result && frame.position == initial && decide (frame.position < lastError))
  let last :=
    if (pinned || result) && (g.widensAlways || kind.isSome) && eatsFirst then s.log.lastWidenable?
    else none
  let name := frame.name.getD "<section>"
  let (more, s) ← skipRun g run eatMore name level lastError rounds more 0 s
  let s := s.note (.skipped s.position lastError more)
  let (reported, frame, s) ←
    reportSkipped g run rounds frame kind result pinned eatMore initial eatsFirst more s
  let s := { s.widenOver last frame.position with quiet := false }
  if reported || result then some (clearAttempts frame s) else some (frame, s)

end Descent.Session
