import Descent.Session.TokenTest

/-!
# Chunks

A long run of items is grouped into chunks instead of one flat list. So many items make a chunk of
the first generation, so many neighbouring chunks of one generation make a chunk of the next, and
the nesting grows only with the logarithm of the number of items. When delimiters are minded, every
delimited region is a chunk of its own, and nothing is folded across an open delimiter.
-/

namespace Descent

/-- A finished chunk and its generation. -/
structure Chunk where
  marker : Marker
  generation : Nat
  deriving DecidableEq, Repr

/-- A delimited region that is still open, and the chunk before it. -/
structure Region where
  marker : Marker
  before : Option Marker
  deriving DecidableEq, Repr

/-- A run of items that is being grouped. -/
structure Grouping where
  /-- The open regions, the innermost first. -/
  regions : List Region := []
  /-- The chunks that are not part of another one, the latest first. -/
  chunks : List Chunk := []
  /-- The chunk that items are being added to. -/
  current : Option Marker := none
  /-- The items in it. -/
  inCurrent : Nat := 0
  /-- The items so far. -/
  total : Nat := 0
  deriving DecidableEq, Repr

namespace Grouping

/-- The chunk before the innermost open region; it is out of reach, with those before it. -/
def boundary (c : Grouping) : Option Marker := c.regions.head?.bind (·.before)

/-- The latest chunks within reach that are of one generation. -/
def latestRun (c : Grouping) : List Chunk :=
  match c.chunks with
  | [] => []
  | x :: _ =>
    c.chunks.takeWhile fun y => y.generation == x.generation && some y.marker != c.boundary

end Grouping

namespace Session

/-- Wraps full runs of chunks, at most `rounds` times. A wrapped run becomes a chunk itself, so
`rounds` need not be more than the number of chunks. -/
def foldRounds (g : Setup) (kind : Kind) : (rounds : Nat) → Grouping → Session → Grouping × Session
  | 0, c, s => (c, s)
  | rounds + 1, c, s =>
    let size := g.limits.fanOut
    let run := c.latestRun
    match (run.take size).getLast? with
    | none => (c, s)
    | some oldest =>
      if run.length < size then (c, s)
      else
        let (parent, s) := s.wrap oldest.marker
        let generation := oldest.generation + 1
        let s := (s.commitAs parent kind).note (.chunkFolded generation)
        let chunks := ⟨parent, generation⟩ :: c.chunks.drop size
        foldRounds g kind rounds { c with chunks } s

/-- Wraps runs of chunks of one generation until none is full. -/
def foldFull (g : Setup) (kind : Kind) (c : Grouping) (s : Session) : Grouping × Session :=
  foldRounds g kind c.chunks.length c s

/-- Commits the chunk that items are being added to. -/
def closeCurrent (kind : Kind) (c : Grouping) (s : Session) : Grouping × Session :=
  match c.current with
  | none => (c, s)
  | some m =>
    ({ c with current := none, inCurrent := 0, chunks := ⟨m, 1⟩ :: c.chunks }, s.commitAs m kind)

/-- The region whose open delimiter was swallowed by the error right before the position. -/
def swallowedRegion (g : Setup) (pair : Delimiters) (s : Session) : List Region × Session :=
  let before? := (List.range s.position).reverse.find? fun i => !g.isTriviaAt i
  match before?, s.log.lastCommitted? with
  | some i, some m =>
    if g.source.kind? i = some pair.opening ∧ s.log.kind? m = some .error ∧ s.log.start m = i then
      let (outer, s) := s.wrap m
      ([⟨outer, none⟩], s)
    else ([], s)
  | _, _ => ([], s)

/-- Steps over a delimiter, which opens a region or closes the innermost one. -/
def delimiterStep (g : Setup) (run : Runner) (level : Nat) (kind : Kind) (pair : Delimiters)
    (c : Grouping) (s : Session) : Option (Grouping × Session) := do
  let token := s.kindHere? g
  let (c, s) := closeCurrent kind c s
  let (c, s) :=
    if token = some pair.opening then
      let (m, s) := s.openMarker g
      ({ c with regions := ⟨m, c.chunks.head?.map (·.marker)⟩ :: c.regions }, s)
    else (c, s)
  let (c, s) := foldFull g kind c s
  let (_, s) ← run g.advancer level s
  if token = some pair.closing then
    match c.regions with
    | [] => some (c, s)
    | region :: regions =>
      let s := s.commitAs region.marker kind
      let before := c.chunks.dropWhile fun x => some x.marker != region.before
      some (foldFull g kind { c with regions, chunks := ⟨region.marker, 1⟩ :: before } s)
  else some (c, s)

/-- Runs the item rule once, in a chunk, where the condition holds or a region is open. -/
def itemStep (g : Setup) (run : Runner) (level : Nat) (item eatMore : RuleRef) (c : Grouping)
    (s : Session) : Option (Bool × Grouping × Session) := do
  let (c, s) := match c.current with
    | some _ => (c, s)
    | none =>
      let (m, s) := s.openMarker g
      ({ c with current := some m }, s)
  let (more, s) ← if c.regions.isEmpty then run eatMore (level + 1) s else some (true, s)
  let (parsed, s) ← if more then run item (level + 1) s else some (false, s)
  if parsed then some (true, { c with inCurrent := c.inCurrent + 1, total := c.total + 1 }, s)
  else some (false, c, s)

/-- Repeats until no item is left, in at most `rounds` rounds. -/
def groupItems (g : Setup) (run : Runner) (level : Nat) (kind : Kind) (pair? : Option Delimiters)
    (item eatMore : RuleRef) : (rounds : Nat) → Grouping → Session → Option (Grouping × Session)
  | 0, _, _ => none
  | rounds + 1, c, s => do
    let start := s.position
    let s := s.toSignificant g
    let token := s.kindHere? g
    let delimiter? := pair?.filter fun pair =>
      token == some pair.opening || (token == some pair.closing && !c.regions.isEmpty)
    let (parsed, c, s) ← match delimiter? with
      | some pair => (delimiterStep g run level kind pair c s).map fun (c, s) => (true, c, s)
      | none => itemStep g run level item eatMore c s
    if !parsed then some (c, s)
    else
      let (c, s) :=
        if g.limits.fanOut ≤ c.inCurrent then
          let (c, s) := closeCurrent kind c s
          foldFull g kind c s
        else (c, s)
      match s.guardProgress g "parse_as_tree" start with
      | (true, s) => groupItems g run level kind pair? item eatMore rounds c s
      | (false, s) => some (c, s)

/-- Runs the item rule again and again while the condition holds or a region is open, and groups
the items into chunks. The answer is whether there was an item. -/
def groupRun (g : Setup) (run : Runner) (rounds level : Nat) (kind : Kind) (checkDelimiters : Bool)
    (item eatMore : RuleRef) (s : Session) : Option (Bool × Session) := do
  let pair? := if checkDelimiters then g.language.delimiters.head? else none
  let (regions, s) := match pair? with
    | some pair => s.swallowedRegion g pair
    | none => ([], s)
  let (c, s) ← groupItems g run level kind pair? item eatMore rounds { regions } s
  let s := match c.current with
    | some m => s.drop m
    | none => s
  let s := c.regions.reverse.foldl (fun s region => s.drop region.marker) s
  some (c.total != 0, s.note (.chunksFinished c.total))

end Session

end Descent
