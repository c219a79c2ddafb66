import Descent.Language
import Descent.MarkerLog
import Descent.Tree

/-!
# From marker logs to trees

The log is read from its oldest entry. The start of a committed marker opens a node and its
commitment closes it, and each time the tokens before the marker's position go to the innermost
open node, so every token lands in the tree once and in order. Trivia at either end of a node stay
outside. Markers may cross: what closes a node closes every node that was opened inside it, and a
node that was closed in this way is not closed again.
-/

namespace Descent

/-- A node that is still open. -/
structure Pending where
  marker : Marker
  kind : Kind
  error : Option SyntaxError
  /-- The offset of the node if it stays empty. -/
  offset : Nat
  /-- The children so far, the latest first. -/
  children : List Tree := []

namespace Pending

/-- The node, its span taken from its first and its last child. -/
def toTree (p : Pending) : Tree :=
  .node p.kind
    (match p.children.getLast?, p.children.head? with
      | some first, some last => ⟨first.span.start, last.span.stop⟩
      | _, _ => .point p.offset)
    p.error p.children.reverse

end Pending

/-- A tree under construction. -/
structure Assembly where
  /-- The open nodes, the innermost first. -/
  pending : List Pending := []
  /-- The children of the root so far, the latest first. -/
  base : List Tree := []
  /-- The position of the first token not yet in the tree. -/
  next : Nat := 0

namespace Assembly

/-- Adds children, the latest first, to the innermost open node. -/
def attach (a : Assembly) (ts : List Tree) : Assembly :=
  match a.pending with
  | [] => { a with base := ts ++ a.base }
  | p :: ps => { a with pending := { p with children := ts ++ p.children } :: ps }

/-- Adds the tokens before a position. -/
def emit (source : Source) (stop : Nat) (a : Assembly) : Assembly :=
  let ts := (source.tokens.drop a.next).take (stop - a.next)
  { a.attach (ts.reverse.map .leaf) with next := a.next + ts.length }

/-- Closes the innermost open node. -/
def closeOne (a : Assembly) : Assembly :=
  match a.pending with
  | [] => a
  | p :: ps => { a with pending := ps }.attach [p.toTree]

/-- Closes `n` open nodes. -/
def close (a : Assembly) : Nat → Assembly
  | 0 => a
  | n + 1 => a.closeOne.close n

/-- The number of open nodes from the innermost one to that of a marker, none if it is not open. -/
def openTo (a : Assembly) (m : Marker) : Nat :=
  match a.pending.findIdx? (·.marker = m) with
  | some i => i + 1
  | none => 0

/-! ## What is in the tree so far -/

/-- The trees under construction, from left to right. -/
def contents (a : Assembly) : List Tree := (a.pending.flatMap (·.children) ++ a.base).reverse

/-- The tokens that are in the tree so far. -/
def leaves (a : Assembly) : List Token := Tree.leavesAll a.contents

@[simp] theorem contents_attach (a : Assembly) (ts : List Tree) :
    (a.attach ts).contents = a.contents ++ ts.reverse := by
  obtain ⟨ps, base, next⟩ := a
  cases ps <;> simp [attach, contents]

/-- Closing a node moves no token. -/
@[simp] theorem leaves_closeOne (a : Assembly) : a.closeOne.leaves = a.leaves := by
  obtain ⟨ps, base, next⟩ := a
  cases ps with
  | nil => rfl
  | cons p ps =>
    simp only [closeOne, leaves, contents_attach]
    simp [contents, Pending.toTree, Tree.leavesAll, Tree.leaves]

@[simp] theorem leaves_close (n : Nat) (a : Assembly) : (a.close n).leaves = a.leaves := by
  induction n generalizing a with
  | zero => rfl
  | succ n ih => simp [close, ih]

/-- Adding tokens puts them behind those that are in the tree. -/
theorem leaves_emit (source : Source) (stop : Nat) (a : Assembly) :
    (a.emit source stop).leaves =
      a.leaves ++ (source.tokens.drop a.next).take (stop - a.next) := by
  have h (b : Assembly) (n : Nat) : { b with next := n }.leaves = b.leaves := rfl
  rw [emit, h, leaves, contents_attach, ← List.map_reverse, List.reverse_reverse]
  rw [Tree.leavesAll_append, Tree.leavesAll_map_leaf, leaves]

end Assembly

/-- The first position from `start` on, at most `start + length`, that is no trivia. -/
def trimFront (isTrivia : Nat → Bool) (start : Nat) : (length : Nat) → Nat
  | 0 => start
  | length + 1 => if isTrivia start then trimFront isTrivia (start + 1) length else start

/-- The end of a range from `start` without the trivia at its end. -/
def trimBack (isTrivia : Nat → Bool) (start : Nat) : (length : Nat) → Nat
  | 0 => start
  | length + 1 =>
    if isTrivia (start + length) then trimBack isTrivia start length else start + (length + 1)

namespace MarkerInfo

/-- The positions of a marker without the trivia at either end. -/
def trimmed (info : MarkerInfo) (isTrivia : Nat → Bool) : Nat × Nat :=
  let start := trimFront isTrivia info.start (info.stop - info.start)
  (start, trimBack isTrivia start (max info.start info.stop - start))

end MarkerInfo

namespace MarkerLog

/-- The committed marker that was started first, if it has the given kind. It stands for the root
itself. -/
def rootMarker? (log : MarkerLog) (root : Kind) : Option Marker :=
  let first? := log.entries.reverse.findSome? fun
    | .start m => if log.isCommitted m then some m else none
    | _ => none
  first?.filter fun m => log.kind? m == some root

/-- What an entry does to the tree under construction. -/
def assemble (log : MarkerLog) (source : Source) (isTrivia : Nat → Bool) (merged : Option Marker)
    (a : Assembly) : Entry → Assembly
  | .start m =>
    match log.info? m with
    | some info =>
      if info.stage = .committed ∧ merged ≠ some m then
        let a := a.emit source (info.trimmed isTrivia).1
        { a with
          pending :=
            { marker := m, kind := info.kind.getD .error, error := info.error
              offset := source.start a.next } :: a.pending }
      else a
    | none => a
  | .commit m =>
    match log.info? m with
    | some info =>
      if info.stage = .committed ∧ merged ≠ some m ∧ a.openTo m ≠ 0 then
        (a.emit source (info.trimmed isTrivia).2).close (a.openTo m)
      else a
    | none => a
  | .drop .. => a

/-- The tree of a log, under a root node that spans the whole source. -/
def toTree (log : MarkerLog) (source : Source) (language : Language) (root : Kind) : Tree :=
  let isTrivia := fun i => language.isTrivia? (source.kind? i)
  let merged := log.rootMarker? root
  let a := log.entries.reverse.foldl (log.assemble source isTrivia merged) {}
  let a := a.emit source source.size
  let a := a.close a.pending.length
  .node root ⟨0, source.endOffset⟩ none a.base.reverse

end MarkerLog

end Descent
