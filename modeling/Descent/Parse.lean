import Descent.Grammar.Eval
import Descent.Tree.Assembly

/-!
# Parsing

A parse runs a root rule inside a root section, which eats whatever the rule left over, so that
every token ends up in the tree. The errors of the tree, and the fatal error if there is one, become
the diagnostics.
-/

namespace Descent

/-- What a parse produces. -/
structure Output where
  tree : Tree
  /-- The errors in the input, in source order, and the fatal error behind them. -/
  diagnostics : List Diagnostic
  fatal : Option Fatal
  /-- The accepted candidates in ascending order. -/
  completions : List String
  /-- The state the parse ended in. -/
  session : Session

namespace Output

def hasErrors (o : Output) : Bool := !o.diagnostics.isEmpty

/-- Whether the parse came to its end. -/
def isOk (o : Output) : Bool := o.fatal.isNone

/-- The recorded steps in order. -/
def calls (o : Output) : List Call := o.session.calls.reverse

/-- What happened in order. -/
def trace (o : Output) : List Event := o.session.trace.reverse

end Output

namespace Session

/-- The state in which a parse begins. With a caret, candidates are collected for it. -/
def start (limits : Limits) (caret : Option Nat) : Session :=
  { attempts := .ofCapacity limits.attemptCapacity
    completion := caret.map fun caret => { caret } }

/-- Builds the tree and collects what the parse produced. -/
def output (g : Setup) (root : Kind) (s : Session) : Output :=
  let tree := s.log.toTree g.source g.language root
  let fatal := s.aborted.toList.map fun a => a.error.diagnostic g.render a.span a.label
  let diagnostics := tree.diagnostics ++ fatal
  { tree, diagnostics
    fatal := s.aborted.map (·.error)
    completions := (s.completion.map (·.items)).getD []
    session := s.note (.parseFinished diagnostics.length s.isAborted) }

/-- Evaluates expressions one after another at level 0 with common variables. -/
def prepare (g : Setup) (fuel : Nat) : List Expr → Vars → Session → Option Session
  | [], _, s => some s
  | e :: es, vars, s => do
    let (_, vars, s) ← Grammar.eval g fuel 0 vars e s
    prepare g fuel es vars s

/-- Parses with a root rule and builds the tree under a root node. -/
def parse (g : Setup) (fuel : Nat) (root : Kind) (rule : RuleRef) (s : Session) :
    Option Output := do
  let run := Grammar.runRef g (Grammar.eval g fuel)
  let hook := Grammar.runHook (Grammar.eval g fuel)
  let s := s.note (.parseStarted g.source.size)
  let (m, s) := s.enter g 0 { collapse := true } none none
  let (result, s) ← run rule 1 s
  let s ← s.leave g run hook fuel 0 m (some root) result true (some .always)
  some (s.output g root)

end Session

end Descent
