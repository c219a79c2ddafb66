import Descent.Session.Recovery

/-!
# Sections

A rule encloses what it does in a section. When the section is left, its modifiers decide what
becomes of its marker: it is committed as a node, keeps a single fitting child in its place, takes
up the node before it, or hands its kind to a section further out. A section that looks ahead
always gives its input back. A section that failed is erased unless it was pinned.
-/

namespace Descent

/-- A way to run hooks: the body of the hook and the marker it is given, if any. -/
abbrev HookRunner := Expr → Option Marker → Session → Option (Option Marker × Session)

namespace Session

/-! ## Opening -/

/-- Puts a frame on the stack. -/
def openFrame (g : Setup) (level : Nat) (modifiers : Modifiers) (kind : Option Kind)
    (name : Option String) (s : Session) : Session :=
  let s := { s with level := s.level + 1 }.toSignificant g
  let frame : Frame :=
    { kind, offset := s.offset g, position := s.position, level, modifiers, name
      attemptsBefore := s.attempts.count
      leftNode :=
        if modifiers.takesLeft && !s.frames.isEmpty then s.log.lastCommitted? else none }
  let admitted := s.lookahead.admits modifiers
  let s := { s with lookahead := s.lookahead.enter modifiers }
  let s := if admitted then s else s.abort g (.misplacedLookahead frame.offset)
  let s := s.note (.sectionEntered frame)
  { s with frames := frame :: s.frames }

/-- Opens a section with a frame. -/
def enter (g : Setup) (level : Nat) (modifiers : Modifiers) (kind : Option Kind)
    (name : Option String) (s : Session) : Marker × Session :=
  let (m, s) := (s.reportAgain g).openMarker g
  (m, s.openFrame g level modifiers kind name)

/-- Opens a section without a frame: it is committed or erased as it is. -/
def enterSimple (g : Setup) (s : Session) : Marker × Session :=
  let s := s.reportAgain g
  { s with level := s.level + 1 }.openMarker g

/-! ## Shaping -/

/-- The node committed last, if it starts where the section started, reaches up to the position
but for trivia, and may stand in for the kind. -/
def absorbable? (g : Setup) (frame : Frame) (kind : Kind) (s : Session) : Option Marker :=
  s.log.lastCommitted?.filter fun m =>
    (s.log.kind? m).any (g.language.standsFor · kind) &&
      s.log.start m == frame.position && decide (s.log.stop m ≤ s.position) &&
      (List.range' (s.log.stop m) (s.position - s.log.stop m)).all g.isTriviaAt

/-- Gives the innermost section without a kind its kind. -/
def supplyKind (kind : Kind) : List Frame → List Frame
  | [] => []
  | f :: fs => if f.kind.isNone then { f with kind := some kind } :: fs else f :: supplyKind kind fs

/-- Commits the node of a section that succeeded or was pinned. -/
def commitShaped (g : Setup) (frame : Frame) (m : Marker) (kind : Kind) (s : Session) : Session :=
  let (kind, s) :=
    match if frame.modifiers.collapse then s.absorbable? g frame kind else none with
    | some child => ((s.log.kind? child).getD kind, (s.note (.childKept child)).drop child)
    | none => (kind, s)
  if frame.modifiers.upper then
    let s := s.drop m
    { s with frames := supplyKind kind s.frames }
  else
    match frame.leftNode with
    | some left =>
      if frame.modifiers.leftInner then (s.commitAs m kind).widen left
      else
        let (parent, s) := (s.drop m).wrap left
        s.commitAs parent kind
    | none =>
      let s := if frame.level = 0 then s.toSignificant g else s
      s.commitAs m kind

/-- Erases a section. Its frame forgets the errors reported inside, for which the enclosing section
stands in. -/
def eraseSection (frame : Frame) (m : Marker) (s : Session) : Frame × Session :=
  (frame.forgetErrorsAfter (s.log.start m) (s.frames.head?.bind (·.errorAt)), s.rollback m)

/-- Ends a section that looked ahead: its input is given back, and if the section is to leave a
node, the answer has a marker for it. -/
def endLookahead (g : Setup) (frame : Frame) (m : Marker) (keeps : Bool) (s : Session) :
    Option Marker × Frame × Session :=
  let resets := !s.quiet && frame.attemptAt.isNone && decide (frame.position < s.position)
  let (frame, s) := s.eraseSection frame m
  let s := { s with lookahead := s.lookahead.leave frame.modifiers }
  let (m?, s) :=
    if keeps then
      let (m, s) := s.openMarker g
      (some m, s)
    else (none, s)
  (m?, if resets then { frame with attemptAt := some s.position } else frame, s)

/-- Decides what becomes of the marker of a section that is left. -/
def shapeSection (g : Setup) (frame : Frame) (m : Marker) (kind : Option Kind) (stays : Bool)
    (s : Session) : Frame × Session :=
  let (m?, frame, s) :=
    if frame.modifiers.looksAhead then s.endLookahead g frame m (kind.isSome && stays)
    else (some m, frame, s)
  if stays then
    match kind, m? with
    | some kind, some m => (frame, s.commitShaped g frame m kind)
    | _, m? =>
      let s := match m? with
        | some m => s.drop m
        | none => s
      match frame.leftNode with
      | some left => (frame, if frame.modifiers.leftInner then s.widen left else s)
      | none => (frame, s)
  else
    match m? with
    | some m => s.eraseSection frame m
    | none => (frame, s)

/-! ## Errors and hooks -/

/-- Lets the name of a section that failed where it began stand for all it looked for. -/
def attemptsByName (g : Setup) (frame : Frame) (kind : Option Kind) (stays : Bool) (s : Session) :
    Frame × Session :=
  match frame.name with
  | none => (frame, s)
  | some name =>
    let slack := if kind.isSome then g.limits.nameSlack else 0
    if !stays && s.position == frame.position && frame.attemptAt == some frame.position &&
        decide (frame.attemptsBefore + slack ≤ s.attempts.count) then
      let attempts := (s.attempts.truncate frame.attemptsBefore).push s.lookahead.positive
        ⟨s.position, .name name⟩
      (if s.lookahead.positive then frame.recordAttempt s.position else frame,
        { s with attempts })
    else (frame, s)

/-- Reports an error for a section that was pinned but failed, at its end or not at all. -/
def reportPinned (g : Setup) (frame : Frame) (kind : Option Kind) (initial lastError : Nat)
    (s : Session) : Frame × Session :=
  if lastError = initial then
    let (_, frame, s) := s.reportFor g frame (kind.isSome && !frame.modifiers.upper) false
    (frame, s)
  else if initial < lastError then ({ frame with errorAt := some lastError }, s)
  else (frame, s)

/-- Reports what is wrong in a section that is left, skipping what it left behind if a condition
for that is given. -/
def settleErrors (g : Setup) (run : Runner) (rounds : Nat) (frame : Frame) (kind : Option Kind)
    (result pinned : Bool) (eatMore : Option RuleRef) (s : Session) : Option Session := do
  let initial := s.position
  let (frame, s) := s.attemptsByName g frame kind (result || pinned)
  let lastError := frame.errorPosition
  let condition := if s.quiet || s.isAborted then none else eatMore
  let (frame, s) ← match condition with
    | some eatMore => s.recover g run rounds frame kind result pinned eatMore initial lastError
    | none =>
      some (if !result && pinned && frame.errorAt.isNone then
        s.reportPinned g frame kind initial lastError
      else (frame, s))
  some (s.modifyFrame (·.absorb frame))

/-- Runs the hooks of the section that is being left, in at most `rounds` rounds. Each one is given
what the one before it returned. Hooks of sections further in are dropped. -/
def runHooksFrom (hook : HookRunner) :
    (rounds : Nat) → Option Marker → Session → Option Session
  | 0, _, _ => none
  | rounds + 1, m?, s =>
    match s.hooks with
    | [] => some s
    | h :: hooks =>
      if h.level < s.level then some s
      else
        let s := { s with hooks }
        if h.level = s.level then do
          let (m?, s) ← hook h.body m? s
          runHooksFrom hook rounds m? s
        else runHooksFrom hook rounds m? s

/-- Runs the hooks of the section that is being left. The first one is given the node committed
last, if the section produced a node of a kind. -/
def runLevelHooks (g : Setup) (hook : HookRunner) (rounds : Nat) (kind : Option Kind)
    (s : Session) : Option Session :=
  if s.hooks.isEmpty then some s
  else
    match kind, s.log.lastCommitted? with
    | none, _ => runHooksFrom hook rounds none s
    | some _, some m => runHooksFrom hook rounds (some m) s
    | some kind, none =>
      let s := s.toSignificant g
      runHooksFrom hook rounds none
        (s.abort g (.nothingCommitted (g.language.nameOf kind) (s.offset g)))

/-! ## Leaving -/

/-- Counts one open section less. -/
def closeLevel (s : Session) : Session := { s with level := s.level - 1 }

/-- Leaves a section at another level than it was entered at, which ends the session. -/
def leaveUnbalanced (g : Setup) (level found : Nat) (m : Marker) (s : Session) : Session :=
  let s := s.toSignificant g
  ((s.abort g (.unbalanced level found (s.offset g))).rollback m).closeLevel

/-- Leaves a section that was opened with a frame. A pinned section stays although it failed. -/
def leave (g : Setup) (run : Runner) (hook : HookRunner) (rounds level : Nat) (m : Marker)
    (kind : Option Kind) (result pinned : Bool) (eatMore : Option RuleRef) (s : Session) :
    Option Session :=
  match s.frames with
  | [] => some (s.leaveUnbalanced g level s.level m)
  | frame :: frames =>
    let s := { s with frames }
    let kind := frame.kind <|> kind
    if frame.level = level then do
      let s := s.note (.sectionLeft frame result pinned)
      let (frame, s) := s.shapeSection g frame m kind (result || pinned)
      let s ← s.settleErrors g run rounds frame kind result pinned eatMore
      let s ← s.runLevelHooks g hook rounds (if pinned || result then kind else none)
      some s.closeLevel
    else some (s.leaveUnbalanced g level frame.level m)

/-- Leaves a section that was opened without a frame. -/
def leaveSimple (g : Setup) (hook : HookRunner) (rounds : Nat) (m : Marker) (kind : Option Kind)
    (result : Bool) (s : Session) : Option Session := do
  let s :=
    if result then
      match kind with
      | some kind => s.commitAs m kind
      | none => s.drop m
    else
      let fallback := s.frames.tail.head?.bind (·.errorAt)
      let start := s.log.start m
      (s.modifyFrame (·.forgetErrorsAfter start fallback)).rollback m
  let s ← s.runLevelHooks g hook rounds (if result then kind else none)
  some s.closeLevel

/-- Leaves a hook to be run when the innermost section is left. -/
def addHook (body : Expr) (s : Session) : Session :=
  let s := s.note (.hookRegistered s.level)
  { s with hooks := ⟨s.level, body⟩ :: s.hooks }

end Session

end Descent
