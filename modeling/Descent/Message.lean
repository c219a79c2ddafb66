/-!
# Messages

Everything that is shown to a user is first a `Message`, which a `Renderer` turns into text. A
parse never looks at the text, so any renderer may be used.
-/

namespace Descent

/-- What there is to say to a user. -/
inductive Message where
  /-- The head of an error that lists what would have been accepted. -/
  | expected (list : String)
  /-- The head of an error where nothing in particular would have been accepted. -/
  | unexpected (text : String)
  /-- The same where there is no text to show. -/
  | unexpectedInput
  /-- What stands at the place of an error. -/
  | found (text : String)
  /-- Nothing stands there any more. -/
  | foundEndOfInput
  /-- The word between the last two alternatives. -/
  | or
  /-- The tail of a list that was cut. -/
  | andMore (count : Nat)
  | tooDeep (limit : Nat) (rule : String)
  | emptyRound (rule : String) (offset : Nat)
  | unbalanced (entered left : Nat)
  | stuckRecovery (rule : String) (offset : Nat)
  | misplacedLookahead
  | nothingCommitted (kind : String) (offset : Nat)
  deriving DecidableEq, Repr

/-- A way to put messages into words. -/
abbrev Renderer := Message → String

namespace Message

/-- English wording. -/
def english : Renderer
  | expected list => "expected: " ++ list
  | unexpected text => "unexpected '" ++ text ++ "'"
  | unexpectedInput => "unexpected input"
  | found text => "found '" ++ text ++ "'"
  | foundEndOfInput => "found end of input"
  | or => "or"
  | andMore count => "\u2026 and " ++ toString count ++ " more"
  | tooDeep limit rule =>
    "maximum recursion level (" ++ toString limit ++ ") reached in '" ++ rule ++ "'"
  | emptyRound rule offset =>
    "empty element parsed in '" ++ rule ++ "' at offset " ++ toString offset
  | unbalanced entered left =>
    "unbalanced section: expected level " ++ toString entered ++ ", got " ++ toString left
  | stuckRecovery rule offset =>
    "no progress made while recovering in '" ++ rule ++ "' at offset " ++ toString offset
  | misplacedLookahead => "negative predicate context cannot open a positive-only predicate"
  | nothingCommitted kind offset =>
    "no done marker for '" ++ kind ++ "' at offset " ++ toString offset

/-- The key of a message with its arguments in brackets, for wordings that are kept elsewhere. -/
def keyed : Renderer
  | expected list => "expected[" ++ list ++ "]"
  | unexpected text => "unexpected[" ++ text ++ "]"
  | unexpectedInput => "unexpected_input"
  | found text => "found[" ++ text ++ "]"
  | foundEndOfInput => "found_end"
  | or => "|"
  | andMore count => "more[" ++ toString count ++ "]"
  | tooDeep limit rule => "recursion_limit[" ++ toString limit ++ "," ++ rule ++ "]"
  | emptyRound rule offset => "empty_element[" ++ rule ++ "," ++ toString offset ++ "]"
  | unbalanced entered left =>
    "unbalanced[" ++ toString entered ++ "," ++ toString left ++ "]"
  | stuckRecovery rule offset => "no_progress[" ++ rule ++ "," ++ toString offset ++ "]"
  | misplacedLookahead => "predicate_sign"
  | nothingCommitted kind offset => "missing_done_marker[" ++ kind ++ "," ++ toString offset ++ "]"

end Message

end Descent
