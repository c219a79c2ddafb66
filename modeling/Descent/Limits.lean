import Descent.Text.Blank
import Descent.Text.Numeral

/-!
# Limits

Every threshold of a session in one place. Three of them have a least value, which their setters
enforce. The recursion ceiling can also be set by the environment, that is, by a text.
-/

namespace Descent

/-- The thresholds of a session. -/
structure Limits where
  /-- The deepest level at which a guarded rule may run. -/
  recursionCeiling : Nat := 1000
  /-- The attempts kept in a list before its oldest quarter is given up. -/
  attemptCapacity : Nat := 10000
  /-- The targets that an error spells out. -/
  listedTargets : Nat := 50
  /-- The characters of a token that an error quotes. -/
  quotedCharacters : Nat := 20
  /-- The number of items that make a chunk. -/
  fanOut : Nat := 10
  /-- The depth of nested lookahead at which attempts are no longer recorded. -/
  lookaheadDepth : Nat := 2
  /-- The attempts that a named section with a kind must have recorded before its name replaces
  them. -/
  nameSlack : Nat := 2
  attemptCapacity_ge : 4 ≤ attemptCapacity := by decide
  listedTargets_ge : 1 ≤ listedTargets := by decide
  fanOut_ge : 2 ≤ fanOut := by decide
  deriving DecidableEq, Repr

namespace Limits

instance : Inhabited Limits := ⟨{}⟩

def withRecursionCeiling (l : Limits) (n : Nat) : Limits := { l with recursionCeiling := n }

/-- At least 4, so that giving up a quarter makes room. -/
def withAttemptCapacity (l : Limits) (n : Nat) : Limits :=
  { l with attemptCapacity := max n 4, attemptCapacity_ge := Nat.le_max_right n 4 }

/-- At least 1. -/
def withListedTargets (l : Limits) (n : Nat) : Limits :=
  { l with listedTargets := max n 1, listedTargets_ge := Nat.le_max_right n 1 }

def withQuotedCharacters (l : Limits) (n : Nat) : Limits := { l with quotedCharacters := n }

/-- At least 2, as chunks of one item would never shrink a list. -/
def withFanOut (l : Limits) (n : Nat) : Limits :=
  { l with fanOut := max n 2, fanOut_ge := Nat.le_max_right n 2 }

def withLookaheadDepth (l : Limits) (n : Nat) : Limits := { l with lookaheadDepth := n }

def withNameSlack (l : Limits) (n : Nat) : Limits := { l with nameSlack := n }

/-- The variable of the environment that sets the recursion ceiling. -/
def recursionVariable : String := "GRIT_MAX_RECURSION_LEVEL"

/-- A text that was to set the recursion ceiling but could not be read. -/
structure IgnoredSetting where
  text : String
  error : Text.NumeralError
  deriving DecidableEq, Repr

/-- Sets the recursion ceiling from a text, white space around it aside. A blank text sets
nothing, and neither does one that is no numeral, which is handed back. -/
def withRecursionSetting (l : Limits) : Option String → Limits × Option IgnoredSetting
  | none => (l, none)
  | some setting =>
    let text := Text.trim setting
    if text.isEmpty then (l, none)
    else
      match Text.readNumeral text with
      | .ok n => (l.withRecursionCeiling n, none)
      | .error error => (l, some ⟨text, error⟩)

end Limits

end Descent
