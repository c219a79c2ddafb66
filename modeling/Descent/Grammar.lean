import Descent.Kind
import Descent.Modifiers

/-!
# Grammars

A grammar is a set of named rules. A rule is an expression that drives a parse step by step: it
tests tokens, opens and closes sections, calls other rules, and answers whether it succeeded.
Expressions have variables of three sorts, for answers, markers and positions, which belong to one
run of a rule.
-/

namespace Descent

/-- What may be run in place of a rule. -/
inductive RuleRef where
  | named (name : String)
  /-- Steps over one significant token and fails at the end of the input. -/
  | advance
  /-- Succeeds without doing anything. -/
  | always
  deriving DecidableEq, Repr

/-- Where a sequence of tokens is no longer optional. -/
inductive Pin where
  /-- It fails at the first token that does not match. -/
  | none
  /-- Once the token at this index is reached, the sequence succeeds and later mismatches are
  reported. -/
  | after (index : Nat)
  /-- It stays optional, but mismatches are reported. -/
  | report
  deriving DecidableEq, Repr

/-- A step that runs no other rule. Sections take a number of levels they are deeper than the rule
they are in. -/
inductive Primitive where
  /-- Fails past the recursion ceiling. -/
  | guardLevel (rule : String) (deeper : Nat)
  | enter (marker : String) (modifiers : Modifiers) (kind : Option Kind) (name : Option String)
      (deeper : Nat)
  | enterSimple (marker : String)
  /-- Consumes a token of the kind. -/
  | consume (kind : Kind)
  /-- Consumes a token of the kind, recording nothing. -/
  | take (kind : Kind)
  /-- Consumes a token of the kind, offering the kind but not recording it. -/
  | takeOffered (kind : Kind)
  | consumeLiteral (literal : String)
  /-- Whether the literal comes next. -/
  | nextLiteral (literal : String)
  /-- Whether a token of the kind comes next. -/
  | next (kind : Kind)
  /-- The same, recording nothing. -/
  | peek (kind : Kind)
  /-- Whether a token of one of the kinds comes next. -/
  | nextAny (name : Option String) (kinds : List Kind)
  /-- The same, recording nothing. -/
  | peekAny (kinds : List Kind)
  /-- Consumes tokens of the kinds in order. -/
  | sequence (pin : Pin) (kinds : List Kind)
  /-- The same, consuming nothing when it fails. -/
  | trySequence (pin : Pin) (kinds : List Kind)
  /-- The same, taking the first token without recording it. -/
  | trySequenceSilent (pin : Pin) (kinds : List Kind)
  /-- Records a phrase as something that is looked for. -/
  | announce (phrase : String)
  /-- Steps over a token. -/
  | advance
  | isAtEnd
  /-- Whether a fatal error has ended the session. -/
  | isAborted
  /-- Binds the position. -/
  | remember (place : String)
  /-- Fails if nothing was consumed since a remembered position. -/
  | guardProgress (rule place : String)
  | kindHere
  | textHere
  | offset
  | recursionCeiling
  | openMarker (marker : String)
  /-- Binds a new marker that will wrap a bound one. -/
  | wrap (outer marker : String)
  /-- Binds the marker committed last. -/
  | lastCommitted (marker : String)
  | kindOf (marker : String)
  | commit (marker : String) (kind : Kind)
  | rollback (marker : String)
  | drop (marker : String)
  /-- Binds a marker by its number, whether the session has it or not. -/
  | foreign (marker : String) (number : Nat)
  deriving DecidableEq, Repr

/-- An expression. -/
inductive Expr where
  | const (value : Bool)
  | flag (name : String)
  | seq (first second : Expr)
  | and (first second : Expr)
  | or (first second : Expr)
  | not (e : Expr)
  | ite (condition yes no : Expr)
  /-- Binds the answer of the expression. -/
  | set (flag : String) (e : Expr)
  /-- Repeats the expression until it fails. -/
  | loop (e : Expr)
  | call (rule : RuleRef)
  /-- Whether a marker variable is bound. -/
  | has (marker : String)
  | prim (p : Primitive)
  /-- Runs the expression unless the recursion ceiling is reached. -/
  | guarded (rule : String) (e : Expr)
  /-- Leaves a section; with a rule `eatMore`, what is left over is skipped while that holds. -/
  | leave (marker : String) (kind : Option Kind) (result pinned : Expr) (eatMore : Option RuleRef)
      (deeper : Nat)
  | leaveSimple (marker : String) (kind : Option Kind) (result : Expr)
  /-- Reports an error if the expression fails. -/
  | reporting (e : Expr)
  /-- Runs the item rule again and again and groups the items into chunks. -/
  | groupRun (chunk : Kind) (checkDelimiters : Bool) (item eatMore : RuleRef)
  /-- Leaves an expression to be run when the section is left. -/
  | hook (e : Expr)
  deriving DecidableEq, Repr

/-- Rules by name. Of two rules of one name the first counts. -/
abbrev Grammar := List (String × Expr)

end Descent
