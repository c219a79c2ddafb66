import Descent.Kind
import Descent.Span
import Descent.Text.Slice

/-!
# Sources

A source is a text with the tokens it was cut into. Tokens are addressed by their index, and the
position behind the last token has an offset like any other: the end of the text.
-/

namespace Descent

/-- A piece of a source text and what it is. -/
structure Token where
  kind : Kind
  span : Span
  deriving DecidableEq, Repr, Inhabited

/-- A text and its tokens, in order. -/
structure Source where
  text : String := ""
  tokens : List Token := []
  deriving DecidableEq, Repr, Inhabited

namespace Source

/-- The number of tokens. -/
def size (s : Source) : Nat := s.tokens.length

def isEmpty (s : Source) : Bool := s.tokens.isEmpty

/-- The number of bytes of the text. -/
def endOffset (s : Source) : Nat := s.text.utf8ByteSize

/-- The kind of a token, none past the end. -/
def kind? (s : Source) (i : Nat) : Option Kind := s.tokens[i]?.map (·.kind)

/-- The span of a token, the empty span at the end of the text past the end. -/
def span (s : Source) (i : Nat) : Span :=
  match s.tokens[i]? with
  | some t => t.span
  | none => .point s.endOffset

/-- The offset at which a token starts. -/
def start (s : Source) (i : Nat) : Nat := (s.span i).start

/-- The offset at which a token ends. -/
def stop (s : Source) (i : Nat) : Nat := (s.span i).stop

/-- The part of the text that a span covers, empty if there is none. -/
def textOf (s : Source) (span : Span) : String := (Text.slice? s.text span.start span.stop).getD ""

/-- The text of a token, empty past the end. -/
def textAt (s : Source) (i : Nat) : String :=
  match s.tokens[i]? with
  | some t => s.textOf t.span
  | none => ""

end Source

end Descent
