import Descent.Diagnostic
import Descent.Message

/-!
# Fatal errors

A fatal error says that a grammar is broken, not its input. It ends the session it is raised in.
-/

namespace Descent

/-- Why a session had to end, and the byte offset at which that was noticed. -/
inductive Fatal where
  | unbalanced (expected found offset : Nat)
  | tooDeep (limit : Nat) (rule : String) (offset : Nat)
  /-- A round of a repetition succeeded without consuming anything. -/
  | emptyRound (rule : String) (offset : Nat)
  /-- A recovery step consumed nothing. -/
  | stuckRecovery (rule : String) (offset : Nat)
  | misplacedLookahead (offset : Nat)
  | nothingCommitted (kind : String) (offset : Nat)
  deriving DecidableEq, Repr

namespace Fatal

def code : Fatal → Code
  | unbalanced .. => .unbalanced
  | tooDeep .. => .tooDeep
  | emptyRound .. => .stalled
  | stuckRecovery .. => .stalled
  | misplacedLookahead .. => .misplacedLookahead
  | nothingCommitted .. => .unfinished

def offset : Fatal → Nat
  | unbalanced _ _ offset => offset
  | tooDeep _ _ offset => offset
  | emptyRound _ offset => offset
  | stuckRecovery _ offset => offset
  | misplacedLookahead offset => offset
  | nothingCommitted _ offset => offset

def message : Fatal → Message
  | unbalanced expected found _ => .unbalanced expected found
  | tooDeep limit rule _ => .tooDeep limit rule
  | emptyRound rule offset => .emptyRound rule offset
  | stuckRecovery rule offset => .stuckRecovery rule offset
  | misplacedLookahead _ => .misplacedLookahead
  | nothingCommitted kind offset => .nothingCommitted kind offset

/-- The error in English, whatever renderer the session uses. -/
def display (f : Fatal) : String := Message.english f.message

/-- The diagnostic of the error, with a label for what was found at a place. -/
def diagnostic (f : Fatal) (render : Renderer) (span : Span) (label : String) : Diagnostic :=
  { code := f.code, message := render f.message, labels := [⟨span, label⟩] }

theorem code_isFatal (f : Fatal) : f.code.isFatal = true := by cases f <;> rfl

end Fatal

end Descent
