import Descent.Language
import Descent.Text.Quoted
import Descent.Tree

/-!
# Tree dumps

A tree as text, a line for each node and each token, indented by two blanks a level. A node shows
its kind, its span and the message of its error; a token shows its kind, its span and its text.
-/

namespace Descent.Tree

/-- The beginning of a line: indentation, kind and span. -/
def dumpHead (language : Language) (indent : Nat) (kind : Kind) (span : Span) : String :=
  String.ofList (List.replicate indent ' ') ++ language.nameOf kind ++ "@" ++ span.display

mutual

/-- The lines of a tree. -/
def dumpFrom (source : Source) (language : Language) (indent : Nat) : Tree → String
  | leaf t =>
    dumpHead language indent t.kind t.span ++ " " ++ Text.quoted (source.textOf t.span) ++ "\n"
  | node kind span error ts =>
    dumpHead language indent kind span ++
      (match error with
        | some e => " " ++ Text.quoted e.message
        | none => "") ++
      "\n" ++ dumpAll source language (indent + 2) ts

def dumpAll (source : Source) (language : Language) (indent : Nat) : List Tree → String
  | [] => ""
  | t :: ts => dumpFrom source language indent t ++ dumpAll source language indent ts

end

/-- The tree as text. -/
def dump (t : Tree) (source : Source) (language : Language) : String :=
  t.dumpFrom source language 0

end Descent.Tree
