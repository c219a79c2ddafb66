import Descent.Modifiers

/-!
# Lookahead

Sections that look ahead nest. The context counts the open ones and knows whether what is tested
inside counts as expected. Outside all of them it does; a negative lookahead turns it over, a
positive one keeps it.
-/

namespace Descent

/-- How many lookahead sections are open, and whether tests inside count as expected. -/
@[ext]
structure Lookahead where
  depth : Nat := 0
  positive : Bool := true
  deriving DecidableEq, Repr, Inhabited

namespace Lookahead

/-- Whether a section may open in the context: a positive lookahead at the outermost level needs a
positive context. -/
def admits (c : Lookahead) (m : Modifiers) : Bool :=
  !(m.ahead && c.depth == 0 && !c.positive)

/-- The context inside a section. -/
def enter (c : Lookahead) (m : Modifiers) : Lookahead :=
  if m.ahead then { c with depth := c.depth + 1 }
  else if m.notAhead then ⟨c.depth + 1, c.depth != 0 && !c.positive⟩
  else c

/-- The context after a section. -/
def leave (c : Lookahead) (m : Modifiers) : Lookahead :=
  if m.ahead then { c with depth := c.depth - 1 }
  else if m.notAhead then ⟨c.depth - 1, !c.positive⟩
  else c

/-- Whether attempts are still recorded at this depth. -/
def records (c : Lookahead) (limit : Nat) : Bool := c.depth < limit

/-- Leaving a section gives the context back that it was entered in, if that was positive or
inside another lookahead. -/
theorem leave_enter {c : Lookahead} (m : Modifiers) (h : c.depth = 0 → c.positive = true) :
    (c.enter m).leave m = c := by
  obtain ⟨depth, positive⟩ := c
  cases depth <;> cases positive <;> cases ha : m.ahead <;> cases hn : m.notAhead <;>
    simp_all [enter, leave]

end Lookahead

end Descent
