/-!
# Spans

A span is a range of byte offsets into the source text.
-/

namespace Descent

/-- The bytes from `start` up to `stop`, the latter excluded. -/
@[ext]
structure Span where
  start : Nat
  stop : Nat
  deriving DecidableEq, Repr, Inhabited

namespace Span

/-- The empty span at an offset. -/
def point (offset : Nat) : Span := ⟨offset, offset⟩

/-- The number of bytes, none for a span that ends before it starts. -/
def length (s : Span) : Nat := s.stop - s.start

/-- Both ends, two dots between them. -/
def display (s : Span) : String := toString s.start ++ ".." ++ toString s.stop

end Span

end Descent
