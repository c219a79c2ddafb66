import Descent.Language
import Descent.Text.Alphabetic
import Descent.Text.Ascending
import Descent.Text.Blank
import Descent.Text.LetterCase
import Descent.Source

/-!
# Completion

With a caret in the text, every token test also offers what it looks for as a candidate. A
candidate is accepted when the text before the caret abbreviates it: the abbreviation follows the
candidate character by character and may jump to the start of a later word, as `fB` does in
`fooBar`.
-/

namespace Descent

namespace Completion

/-- Blanks and underscores are the same to an abbreviation. -/
def underscored (c : Char) : Char := if c = ' ' then '_' else c

/-- Whether a word starts at a place of a name. -/
def startsWord (name : List Char) (i : Nat) : Bool :=
  match name[i]?, i with
  | none, _ => false
  | some _, 0 => true
  | some c, j + 1 =>
    match name[j]? with
    | none => true
    | some d =>
      d = '_' || d = '-' || d = '.' || (Text.isUppercase c && Text.isLowercase d) ||
        (c.isDigit && !d.isDigit)

/-- Whether an abbreviation matches a name from a place on: its first character there, every
further one either right behind the one before or at the start of a later word. -/
def follows (name : List Char) : List Char → Nat → Bool
  | [], _ => true
  | p :: ps, i =>
    name[i]?.any (Text.sameLetter · p) &&
      (ps.isEmpty || follows name ps (i + 1) ||
        (List.range' (i + 2) (name.length - (i + 2))).any fun j =>
          startsWord name j && follows name ps j)

/-- Whether a text abbreviates a candidate. A text that ends in white space must also be its
literal beginning. -/
def abbreviates (text candidate : String) : Bool :=
  let pattern := text.toList
  (pattern.isEmpty || follows (candidate.toList.map underscored) (pattern.map underscored) 0) &&
    (!pattern.getLast?.any Text.isBlank || Text.startsWithLetters candidate.toList pattern)

/-- Whether a text is worth offering: single characters, placeholders in angle brackets and short
quoted literals are not. -/
def isOfferable (text : String) : Bool :=
  let cs := text.toList
  1 < cs.length && !(cs.head? = some '<' && cs.getLast? = some '>') &&
    !(cs.head? = some '\'' && cs.getLast? = some '\'' && cs.length < 5)

/-- Whether the source from an offset up to the caret abbreviates a candidate. -/
def fragmentAbbreviates (source : Source) (start caret : Nat) (candidate : String) : Bool :=
  (Text.slice? source.text start caret).any (abbreviates · candidate)

/-- How far the caret is past the token it belongs to, seen from a position behind the caret: past
the trivia right before the position, and past the token before these if the text from there on
abbreviates the candidate. -/
def caretBack (source : Source) (language : Language) (caret : Nat) (candidate : String) :
    (position : Nat) → Int → Int
  | 0, distance => distance
  | i + 1, distance =>
    if language.isTrivia? (source.kind? i) then
      caretBack source language caret candidate i (caret - source.start i)
    else if source.start i < caret &&
        fragmentAbbreviates source (source.start i) caret candidate then
      caret - source.start i
    else distance

/-- Whether a candidate fits the text before the caret, seen from a position. -/
def fits (source : Source) (language : Language) (caret position : Nat) (candidate : String) :
    Bool :=
  let here := source.start position
  if caret = here then true
  else if here < caret then
    caret - here ≤ candidate.utf8ByteSize && fragmentAbbreviates source here caret candidate
  else
    let distance := caretBack source language caret candidate position ((caret : Int) - here)
    0 ≤ distance && distance < candidate.utf8ByteSize

/-- Whether a candidate is accepted at a significant token or at the end of the input. Nothing is
accepted at a token without text. -/
def accepts (source : Source) (language : Language) (caret position : Nat)
    (candidate : String) : Bool :=
  if (source.kind? position).isSome && source.start position = source.start (position + 1) then
    false
  else isOfferable candidate && fits source language caret position candidate

end Completion

/-- A caret and the candidates accepted so far, in ascending order. -/
structure Completion where
  caret : Nat
  items : List String := []
  deriving DecidableEq, Repr

namespace Completion

/-- Adds a candidate if it is accepted at the position. -/
def offer (c : Completion) (source : Source) (language : Language) (position : Nat)
    (candidate : String) : Completion :=
  if accepts source language c.caret position candidate then
    { c with items := Text.insertAscending candidate c.items }
  else c

end Completion

end Descent
