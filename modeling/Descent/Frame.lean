import Descent.Kind
import Descent.MarkerLog
import Descent.Modifiers

/-!
# Frames

A frame is what a session knows of a section it is inside of: where it began, how its result is to
be merged into the tree, and how far errors and attempts inside it have come. The two positions of
that kind only rise, except where the input they refer to is given back.
-/

namespace Descent

/-- The later of two positions; no position is before any. -/
def later : Option Nat → Option Nat → Option Nat
  | none, b => b
  | some a, none => some a
  | some a, some b => some (max a b)

/-- An open section. -/
structure Frame where
  /-- The kind of the node the section becomes. A section inside may supply it. -/
  kind : Option Kind := none
  /-- The byte offset of the first significant token. -/
  offset : Nat
  /-- The position of the first significant token. -/
  position : Nat
  level : Nat
  modifiers : Modifiers
  name : Option String
  /-- The number of expected attempts recorded before the section. -/
  attemptsBefore : Nat
  /-- The position of the last error reported inside. -/
  errorAt : Option Nat := none
  /-- The furthest position at which an expected attempt was recorded inside. -/
  attemptAt : Option Nat := none
  /-- The node committed right before the section, if the section is to take it up. -/
  leftNode : Option Marker := none
  deriving DecidableEq, Repr

namespace Frame

/-- Whether an error was reported past a position. -/
def hasErrorAfter (f : Frame) (position : Nat) : Bool := f.errorAt.any (position < ·)

/-- Whether an error was reported at a position or past it. -/
def hasErrorFrom (f : Frame) (position : Nat) : Bool := f.errorAt.any (position ≤ ·)

/-- Forgets an error reported past `start`, where the input is given back from. -/
def forgetErrorsAfter (f : Frame) (start : Nat) (fallback : Option Nat) : Frame :=
  if f.hasErrorAfter start then { f with errorAt := fallback } else f

/-- The position that errors of the section belong to. -/
def errorPosition (f : Frame) : Nat := f.attemptAt.getD f.position

/-- Notes that an expected attempt was recorded at a position. -/
def recordAttempt (f : Frame) (position : Nat) : Frame :=
  { f with attemptAt := later f.attemptAt (some position) }

/-- Takes over how far a section inside has come. -/
def absorb (f inner : Frame) : Frame :=
  { f with
    errorAt := later f.errorAt inner.errorAt
    attemptAt := later f.attemptAt inner.attemptAt }

/-- The frame as traces show it. -/
def display (f : Frame) : String :=
  "<" ++ f.name.getD "section" ++ "> at " ++ toString f.offset ++ "(" ++ toString f.level ++ ")" ++
    (if f.modifiers.isEmpty then "" else " " ++ f.modifiers.debug)

end Frame

end Descent
