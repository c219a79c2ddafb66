/-!
# Numerals of 32-bit numbers

A numeral is a run of decimal digits, which a plus sign may precede. It is read from the left, and
the first digit that is no digit or leads past the largest number decides the error.
-/

namespace Descent.Text

/-- Why a text is not the numeral of a 32-bit number. -/
inductive NumeralError where
  | empty
  | invalidDigit
  | tooLarge
  deriving DecidableEq, Repr

/-- The wording of the error. -/
def NumeralError.message : NumeralError → String
  | empty => "cannot parse integer from empty string"
  | invalidDigit => "invalid digit found in string"
  | tooLarge => "number too large to fit in target type"

/-- Reads further digits behind those whose value is `n`. -/
def readDigits (n : Nat) : List Char → Except NumeralError Nat
  | [] => .ok n
  | c :: cs =>
    if c.isDigit then
      let m := 10 * n + (c.toNat - '0'.toNat)
      if m < 2 ^ 32 then readDigits m cs else .error .tooLarge
    else .error .invalidDigit

/-- Reads a numeral. A sign alone lacks its digit. -/
def readNumeral (s : String) : Except NumeralError Nat :=
  match s.toList with
  | [] => .error .empty
  | ['+'] => .error .invalidDigit
  | '+' :: c :: cs => readDigits 0 (c :: cs)
  | cs => readDigits 0 cs

end Descent.Text
