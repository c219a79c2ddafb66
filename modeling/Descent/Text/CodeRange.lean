/-!
# Tables of code points

Classes of characters are tables of ascending ranges. A search stops at the first range that
begins past the code point, so common characters are found early.
-/

namespace Descent.Text

/-- Whether the number lies in one of the ascending ranges, both ends included. -/
def inRanges : List (Nat × Nat) → Nat → Bool
  | [], _ => false
  | (first, last) :: rest, n => first ≤ n && (n ≤ last || inRanges rest n)

/-- Like `inRanges`, for ranges of which only every `step`-th number counts. -/
def inRuns : List (Nat × Nat × Nat) → Nat → Bool
  | [], _ => false
  | (first, last, step) :: rest, n =>
    first ≤ n && (n ≤ last && (n - first) % step == 0 || inRuns rest n)

end Descent.Text
