import Descent.Span
import Descent.Text.Slice

/-!
# Diagnostics

A diagnostic has a code, a message and labels that point into the source. Codes come in two
families: errors in the input, from which a parse recovers, and defects of a grammar, which end it.
-/

namespace Descent

/-- What a diagnostic is about. -/
inductive Code where
  /-- The input matches none of the expected alternatives. -/
  | expected
  /-- The input stands where nothing in particular was expected. -/
  | unexpected
  /-- Input without text is left over. -/
  | leftover
  /-- A section was left at another level than it was entered at. -/
  | unbalanced
  /-- The recursion ceiling was reached. -/
  | tooDeep
  /-- A repetition or a recovery made no progress. -/
  | stalled
  /-- A positive lookahead was opened in a negative context that never ended. -/
  | misplacedLookahead
  /-- A hook was to run on a node that was never finished. -/
  | unfinished
  deriving DecidableEq, Repr

namespace Code

/-- All codes, errors in the input first. -/
def all : List Code :=
  [expected, unexpected, leftover, unbalanced, tooDeep, stalled, misplacedLookahead, unfinished]

/-- The code as it is shown. -/
def text : Code → String
  | expected => "E1001"
  | unexpected => "E1002"
  | leftover => "E1003"
  | unbalanced => "E9001"
  | tooDeep => "E9002"
  | stalled => "E9003"
  | misplacedLookahead => "E9004"
  | unfinished => "E9005"

/-- The code shown as the given text, up to the case of its letter. -/
def ofText? (s : String) : Option Code := all.find? fun c => Text.equalAsciiLetters c.text s

/-- Whether the code belongs to an error in the input. -/
def isSyntaxError : Code → Bool
  | expected | unexpected | leftover => true
  | _ => false

/-- Whether the code belongs to a defect that ends a parse. -/
def isFatal (c : Code) : Bool := !c.isSyntaxError

theorem mem_all (c : Code) : c ∈ all := by cases c <;> decide

end Code

/-- A place in the source and a text beside it. -/
structure Label where
  span : Span
  message : String
  deriving DecidableEq, Repr

/-- Something wrong: what it is, how it reads, and where it is. -/
structure Diagnostic where
  code : Code
  message : String := ""
  /-- Places in the source, the place of the error first. -/
  labels : List Label := []
  deriving DecidableEq, Repr

namespace Diagnostic

def setMessage (d : Diagnostic) (message : String) : Diagnostic := { d with message }

/-- Adds a label behind the others. -/
def addLabel (d : Diagnostic) (span : Span) (message : String) : Diagnostic :=
  { d with labels := d.labels ++ [⟨span, message⟩] }

/-- The place of the error, if there is a label. -/
def primary? (d : Diagnostic) : Option Span := d.labels.head?.map (·.span)

/-- The head line, then one line for each label. -/
def display (d : Diagnostic) : String :=
  "error [" ++ d.code.text ++ "]: " ++ d.message ++
    String.join (d.labels.map fun l => "\n  --> " ++ l.span.display ++ ": " ++ l.message)

end Diagnostic

/-- An error in the input as a node of the tree carries it; its place is the node's. -/
structure SyntaxError where
  code : Code
  message : String
  /-- What was found at the place of the error. -/
  label : String
  deriving DecidableEq, Repr

/-- The diagnostic of an error whose node has the given span. -/
def SyntaxError.diagnostic (e : SyntaxError) (span : Span) : Diagnostic :=
  { code := e.code, message := e.message, labels := [⟨span, e.label⟩] }

end Descent
