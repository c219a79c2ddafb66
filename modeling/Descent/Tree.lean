import Descent.Diagnostic
import Descent.Source

/-!
# Syntax trees

A tree has the tokens of the input as its leaves, in order. A node has a kind, the span its
children cover, and an error if it stands for one.
-/

namespace Descent

/-- A syntax tree. -/
inductive Tree where
  | leaf (token : Token)
  | node (kind : Kind) (span : Span) (error : Option SyntaxError) (children : List Tree)
  deriving Repr, Inhabited

namespace Tree

def kind : Tree → Kind
  | leaf t => t.kind
  | node k _ _ _ => k

def span : Tree → Span
  | leaf t => t.span
  | node _ s _ _ => s

def error? : Tree → Option SyntaxError
  | leaf _ => none
  | node _ _ e _ => e

def children : Tree → List Tree
  | leaf _ => []
  | node _ _ _ ts => ts

def isNode : Tree → Bool
  | leaf _ => false
  | node .. => true

/-- The children that are nodes. -/
def nodeChildren (t : Tree) : List Tree := t.children.filter isNode

mutual

/-- The tokens below a tree, from left to right. -/
def leaves : Tree → List Token
  | leaf t => [t]
  | node _ _ _ ts => leavesAll ts

def leavesAll : List Tree → List Token
  | [] => []
  | t :: ts => t.leaves ++ leavesAll ts

end

mutual

/-- The nesting of nodes; a node without nodes inside has depth 1. -/
def depth : Tree → Nat
  | leaf _ => 0
  | node _ _ _ ts => 1 + depthAll ts

def depthAll : List Tree → Nat
  | [] => 0
  | t :: ts => max t.depth (depthAll ts)

end

mutual

/-- A node and all nodes below it, each before those inside it. -/
def nodes : Tree → List Tree
  | leaf _ => []
  | node k s e ts => node k s e ts :: nodesAll ts

def nodesAll : List Tree → List Tree
  | [] => []
  | t :: ts => t.nodes ++ nodesAll ts

end

@[simp] theorem leavesAll_append (ts us : List Tree) :
    leavesAll (ts ++ us) = leavesAll ts ++ leavesAll us := by
  induction ts with
  | nil => simp [leavesAll]
  | cons t ts ih => simp [leavesAll, ih]

@[simp] theorem leavesAll_map_leaf (l : List Token) : leavesAll (l.map leaf) = l := by
  induction l with
  | nil => rfl
  | cons t l ih => simp [leavesAll, leaves, ih]

/-- The diagnostic of a node that stands for an error. -/
def diagnostic? (t : Tree) : Option Diagnostic := t.error?.map (·.diagnostic t.span)

/-- The diagnostics of all errors in the tree, outer ones first, from left to right. -/
def diagnostics (t : Tree) : List Diagnostic := t.nodes.filterMap diagnostic?

end Tree

end Descent
