import Descent.Language
import Descent.Message
import Descent.Text.Alphabetic
import Descent.Text.Ascending

/-!
# Attempts

Every token test first records what it looks for, and where. When an error is reported, what was
recorded at its place becomes the list of what would have been accepted. The lists are bounded:
when one is full, its oldest quarter is given up, since the parse has long moved past it.
-/

namespace Descent

/-- What a token test looks for. -/
inductive Target where
  | token (kind : Kind)
  /-- A literal or a phrase. -/
  | text (s : String)
  /-- The name of a section, which stands for everything the section looked for. -/
  | name (s : String)
  deriving DecidableEq, Repr

namespace Target

/-- How the target is called in messages. -/
def describe (language : Language) : Target → String
  | token kind => language.nameOf kind
  | text s => s
  | name s => s

end Target

/-- What was looked for at a position. -/
structure Attempt where
  position : Nat
  target : Target
  deriving DecidableEq, Repr

/-- The attempts recorded so far, the oldest first. -/
structure Attempts where
  expected : Array Attempt := #[]
  unexpected : Array Attempt := #[]
  /-- The number of expected attempts given up since the lists were last cleared. -/
  givenUp : Nat := 0
  /-- The number of attempts a list may hold. -/
  capacity : Nat := 10000
  deriving DecidableEq, Repr

namespace Attempts

/-- Empty lists. They hold at least four attempts. -/
def ofCapacity (n : Nat) : Attempts := { capacity := max n 4 }

/-- The number of attempts that a full list gives up. -/
def quarter (a : Attempts) : Nat := a.capacity / 4

/-- Adds an attempt to a list, giving up the oldest ones of a full list. -/
def pushTo (a : Attempts) (list : Array Attempt) (x : Attempt) : Array Attempt :=
  (if a.capacity ≤ list.size then list.extract a.quarter list.size else list).push x

/-- Adds an attempt to the expected or to the unexpected ones. -/
def push (a : Attempts) (isExpected : Bool) (x : Attempt) : Attempts :=
  if isExpected then
    { a with
      expected := a.pushTo a.expected x
      givenUp := if a.capacity ≤ a.expected.size then a.givenUp + a.quarter else a.givenUp }
  else { a with unexpected := a.pushTo a.unexpected x }

/-- The number of expected attempts since the lists were cleared, with those given up. -/
def count (a : Attempts) : Nat := a.givenUp + a.expected.size

/-- Cuts the expected attempts back to a number taken from `count`. -/
def truncate (a : Attempts) (n : Nat) : Attempts :=
  { a with expected := a.expected.take (n - a.givenUp) }

def clear (a : Attempts) : Attempts :=
  { a with expected := #[], unexpected := #[], givenUp := 0 }

/-- An expected attempt counts, whether others are given up for it or not. -/
theorem count_push_expected (a : Attempts) (x : Attempt) :
    (a.push true x).count = a.count + 1 := by
  have hq : a.quarter ≤ a.capacity := Nat.div_le_self ..
  simp only [push, pushTo, count, if_true]
  by_cases h : a.capacity ≤ a.expected.size
  · simp only [if_pos h, Array.size_push, Array.size_extract]
    omega
  · simp only [if_neg h, Array.size_push]
    omega

@[simp] theorem count_push_unexpected (a : Attempts) (x : Attempt) :
    (a.push false x).count = a.count := rfl

/-! ## Lists of what would have been accepted -/

/-- The texts of the targets at a position, each once, in ascending order. -/
def textsAt (attempts : List Attempt) (position : Nat) (language : Language) : List String :=
  let here := attempts.filter (·.position = position)
  Text.ascending ((here.map (·.target.describe language)).filter (!·.isEmpty))

/-- A text in a list: bare if it begins like a name or a placeholder, else between quotes. -/
def listed (s : String) : String :=
  match s.toList with
  | c :: _ =>
    if c = '<' || c = '_' || c = '$' || Text.isAlphabetic c then s else "'" ++ s ++ "'"
  | [] => "'" ++ s ++ "'"

/-- Joins texts to a list of at most `limit`, with a word before the last one, or with the number of
those left out behind it. -/
def joinTexts (texts : List String) (render : Renderer) (limit : Nat) : String :=
  let shown := (texts.take limit).map listed
  if limit < texts.length then
    if shown.isEmpty then ""
    else ", ".intercalate shown ++ ", " ++ render (.andMore (texts.length - shown.length))
  else
    match shown with
    | [] => ""
    | [text] => text
    | _ =>
      ", ".intercalate shown.dropLast ++ " " ++ render .or ++ " " ++ shown.getLast?.getD ""

/-- The list of what would have been accepted at a position. -/
def listAt (attempts : List Attempt) (position : Nat) (language : Language) (render : Renderer)
    (limit : Nat) : String :=
  joinTexts (textsAt attempts position language) render limit

end Attempts

end Descent
