/-!
# Modifiers

The modifiers of a section say what becomes of its result when the section is left.
-/

namespace Descent

/-- A set of modifiers. -/
@[ext]
structure Modifiers where
  /-- Keep a single child of a fitting kind instead of wrapping it. -/
  collapse : Bool := false
  /-- Wrap the node committed just before the section. -/
  left : Bool := false
  /-- Widen the node committed just before the section over the section. -/
  leftInner : Bool := false
  /-- Positive lookahead: consume nothing. -/
  ahead : Bool := false
  /-- Negative lookahead: consume nothing, and turn expected into unexpected. -/
  notAhead : Bool := false
  /-- Hand the kind to the nearest enclosing section without one. -/
  upper : Bool := false
  deriving DecidableEq, Repr, Inhabited

namespace Modifiers

def none : Modifiers := {}

/-- The modifiers in the order of their bits. -/
def toList (m : Modifiers) : List Bool :=
  [m.collapse, m.left, m.leftInner, m.ahead, m.notAhead, m.upper]

/-- The names of the modifiers in the order of their bits. -/
def names : List String := ["COLLAPSE", "LEFT", "LEFT_INNER", "AND", "NOT", "UPPER"]

/-- The modifiers whose bits are set in a number; further bits mean nothing. -/
def ofBits (n : Nat) : Modifiers :=
  ⟨n.testBit 0, n.testBit 1, n.testBit 2, n.testBit 3, n.testBit 4, n.testBit 5⟩

/-- The number whose bits are the modifiers. -/
def toBits (m : Modifiers) : Nat := m.toList.foldr (fun b n => 2 * n + b.toNat) 0

def isEmpty (m : Modifiers) : Bool := m == none

def union (a b : Modifiers) : Modifiers :=
  ⟨a.collapse || b.collapse, a.left || b.left, a.leftInner || b.leftInner, a.ahead || b.ahead,
    a.notAhead || b.notAhead, a.upper || b.upper⟩

def inter (a b : Modifiers) : Modifiers :=
  ⟨a.collapse && b.collapse, a.left && b.left, a.leftInner && b.leftInner, a.ahead && b.ahead,
    a.notAhead && b.notAhead, a.upper && b.upper⟩

/-- Whether `a` has all modifiers of `b`. -/
def contains (a b : Modifiers) : Bool := a.inter b == b

/-- Whether `a` and `b` have a modifier in common. -/
def intersects (a b : Modifiers) : Bool := !(a.inter b).isEmpty

/-- Whether the section looks ahead, one way or the other. -/
def looksAhead (m : Modifiers) : Bool := m.ahead || m.notAhead

/-- Whether the section takes up the node committed before it. -/
def takesLeft (m : Modifiers) : Bool := m.left || m.leftInner

/-- The names of the modifiers, or a zero if there are none. -/
def debug (m : Modifiers) : String :=
  let set := (names.zip m.toList).filterMap fun (name, b) => if b then some name else .none
  "Modifiers(" ++ (if set.isEmpty then "0x0" else " | ".intercalate set) ++ ")"

@[simp] theorem ofBits_toBits (m : Modifiers) : ofBits m.toBits = m := by
  obtain ⟨a, b, c, d, e, f⟩ := m
  revert a b c d e f
  decide

end Modifiers

end Descent
