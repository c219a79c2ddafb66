import Descent.Proofs.MarkerLog.Outermost
import Descent.Proofs.Tree.Brackets
import Descent.Proofs.Tree.Outline

/-!
# The errors of a tree

Every committed marker with an error has a node with this error in the tree, unless it stands for
the root, however the entries of the log are arranged, and the nodes come in the order in which
their markers start (`MarkerLog.errors_toTree`). So a tree has diagnostics exactly if there is such a
marker (`MarkerLog.diagnostics_toTree_ne_nil_iff`).
-/

namespace Descent

namespace Tree

/-- The errors of the nodes of a tree, outer ones first, from left to right. -/
def errors (t : Tree) : List SyntaxError := t.nodes.filterMap error?

def errorsAll (ts : List Tree) : List SyntaxError := (nodesAll ts).filterMap error?

theorem nodesAll_append (ts us : List Tree) : nodesAll (ts ++ us) = nodesAll ts ++ nodesAll us := by
  induction ts with
  | nil => rfl
  | cons t ts ih => rw [List.cons_append, nodesAll, nodesAll, ih, List.append_assoc]

@[simp] theorem errorsAll_nil : errorsAll [] = [] := rfl

theorem errorsAll_append (ts us : List Tree) :
    errorsAll (ts ++ us) = errorsAll ts ++ errorsAll us := by
  rw [errorsAll, nodesAll_append, List.filterMap_append]
  rfl

theorem errorsAll_singleton (t : Tree) : errorsAll [t] = t.errors := by
  rw [errorsAll, nodesAll, nodesAll, List.append_nil]
  rfl

theorem errorsAll_map_leaf (l : List Token) : errorsAll (l.map leaf) = [] := by
  induction l with
  | nil => rfl
  | cons t l ih =>
    rw [List.map_cons, errorsAll, nodesAll, nodes, List.nil_append]
    exact ih

theorem errors_node (kind : Kind) (span : Span) (error : Option SyntaxError) (ts : List Tree) :
    (node kind span error ts).errors = error.toList ++ errorsAll ts := by
  rw [errors, nodes]
  cases error <;> rfl

theorem diagnostics_eq_nil_iff (t : Tree) : t.diagnostics = [] ↔ t.errors = [] := by
  simp [diagnostics, errors, diagnostic?, List.filterMap_eq_nil_iff]

end Tree

namespace Assembly

/-- The errors of the nodes that are open and of those inside them, behind those of other trees. -/
def errorsFrom (base : List Tree) : List Pending → List SyntaxError
  | [] => Tree.errorsAll base.reverse
  | p :: ps => errorsFrom base ps ++ (p.error.toList ++ Tree.errorsAll p.children.reverse)

/-- The errors of the nodes that are open and of those in the tree so far, in the same order. -/
def errors (a : Assembly) : List SyntaxError := errorsFrom a.base a.pending

theorem errors_pending (a : Assembly) (p : Pending) :
    { a with pending := p :: a.pending }.errors =
      a.errors ++ (p.error.toList ++ Tree.errorsAll p.children.reverse) :=
  rfl

theorem errors_attach (a : Assembly) (ts : List Tree) :
    (a.attach ts).errors = a.errors ++ Tree.errorsAll ts.reverse := by
  obtain ⟨ps, base, next⟩ := a
  cases ps <;> simp [attach, errors, errorsFrom, Tree.errorsAll_append]

theorem errors_emit (source : Source) (stop : Nat) (a : Assembly) :
    (a.emit source stop).errors = a.errors := by
  have h (b : Assembly) (n : Nat) : { b with next := n }.errors = b.errors := rfl
  rw [emit, h, errors_attach, ← List.map_reverse, List.reverse_reverse,
    Tree.errorsAll_map_leaf, List.append_nil]

theorem errors_closeOne (a : Assembly) : a.closeOne.errors = a.errors := by
  obtain ⟨ps, base, next⟩ := a
  cases ps with
  | nil => rfl
  | cons p ps =>
    rw [errors_pending ⟨ps, base, next⟩ p, closeOne, errors_attach, List.reverse_singleton, Tree.errorsAll_singleton,
      Pending.toTree, Tree.errors_node]

theorem errors_close (n : Nat) (a : Assembly) : (a.close n).errors = a.errors := by
  induction n generalizing a with
  | zero => rfl
  | succ n ih => rw [close, ih, errors_closeOne]

end Assembly

namespace MarkerLog

variable {log : MarkerLog} {source : Source} {isTrivia : Nat → Bool} {merged : Option Marker}

/-- The start of a marker opens a node with its error. -/
theorem errors_assemble_start {m : Marker} (hm : log.isCommitted m = true)
    (hmerged : merged ≠ some m) (a : Assembly) :
    (log.assemble source isTrivia merged a (.start m)).errors =
      a.errors ++ (log.error? m).toList := by
  obtain ⟨info, hi, hs⟩ := isCommitted_iff.1 hm
  rw [assemble_start hi hs hmerged]
  simp [Assembly.errors_pending, Assembly.errors_emit, pendingNode, error?, hi]

theorem errors_assemble_commit (a : Assembly) (m : Marker) :
    (log.assemble source isTrivia merged a (.commit m)).errors = a.errors := by
  simp only [assemble]
  split
  · split
    · rw [Assembly.errors_close, Assembly.errors_emit]
    · rfl
  · rfl

/-- Reading brackets adds the errors of the nodes that start there. -/
theorem errors_foldl {es : List Entry} (hes : ∀ e ∈ es, log.shapes e = true) (a : Assembly) :
    (es.foldl (log.assemble source isTrivia merged) a).errors =
      a.errors ++ ((starts es).filter fun m => merged ≠ some m).filterMap log.error? := by
  induction es generalizing a with
  | nil => simp [starts]
  | cons e es ih =>
    obtain ⟨he, hes⟩ := List.forall_mem_cons.1 hes
    rw [List.foldl_cons, ih hes]
    cases e with
    | start m =>
      rw [starts_cons_start]
      by_cases hm : merged = some m
      · rw [hm, (assemble_merged m a).1]
        simp
      · rw [errors_assemble_start he hm, List.filter_cons_of_pos (by simpa using hm)]
        cases herror : log.error? m <;> simp [herror]
    | commit m => rw [starts_cons_commit, errors_assemble_commit]
    | drop m prior => cases he

/-- The errors of a tree are those of the markers below the root, in the order of their starts. -/
theorem errors_toTree (log : MarkerLog) (source : Source) (language : Language) (root : Kind) :
    (log.toTree source language root).errors = (log.innerNodes root).filterMap log.error? := by
  have hbase (a : Assembly) (h : a.pending = []) : Tree.errorsAll a.base.reverse = a.errors := by
    rw [Assembly.errors, h]
    rfl
  have hshapes : ∀ e ∈ log.brackets, log.shapes e = true := fun e he => (List.mem_filter.1 he).2
  rw [toTree_eq, Assembly.toRoot, Tree.errors_node, hbase _ (Assembly.pending_close_length _),
    Assembly.errors_close, Assembly.errors_emit, errors_foldl hshapes]
  rfl

/-- The diagnostics of the tree come from the committed markers with an error. -/
theorem diagnostics_toTree_ne_nil_iff (hlog : log.Sound) (source : Source) (language : Language)
    (root : Kind) : (log.toTree source language root).diagnostics ≠ [] ↔
      ∃ m, log.IsError m ∧ log.rootMarker? root ≠ some m := by
  rw [ne_eq, Tree.diagnostics_eq_nil_iff, errors_toTree, List.filterMap_eq_nil_iff]
  constructor
  · intro h
    obtain ⟨m, h⟩ := not_forall.1 h
    obtain ⟨hm, herror⟩ := Classical.not_imp.1 h
    obtain ⟨hm, hroot⟩ := (mem_innerNodes hlog).1 hm
    exact ⟨m, ⟨hm, Option.isSome_iff_ne_none.2 herror⟩, hroot⟩
  · rintro ⟨m, ⟨hm, herror⟩, hroot⟩ h
    have hnone := h m ((mem_innerNodes hlog).2 ⟨hm, hroot⟩)
    rw [hnone] at herror
    cases herror

/-- If a committed marker and all that start before it have no error, then neither does the one that
stands for the root. -/
theorem error?_of_rootMarker? {later older : List Entry} {m x : Marker} {root : Kind}
    (hes : log.entries = later ++ .start m :: older) (hm : log.isCommitted m = true)
    (herror : log.error? m = none) (hold : ∀ e ∈ older, log.error? e.marker = none)
    (hx : log.rootMarker? root = some x) : log.error? x = none := by
  have hfirst := (Option.filter_eq_some_iff.1 hx).1
  rw [hes, List.reverse_append, List.reverse_cons, List.append_assoc, List.findSome?_append] at hfirst
  rcases Option.or_eq_some_iff.1 hfirst with hfirst | ⟨-, hfirst⟩
  · obtain ⟨e, he, hex⟩ := List.exists_of_findSome?_eq_some hfirst
    have hnone := hold e (List.mem_reverse.1 he)
    cases e with
    | start y =>
      obtain ⟨-, rfl⟩ : log.isCommitted y = true ∧ y = x := by simpa using hex
      exact hnone
    | commit | drop => cases hex
  · obtain rfl : m = x := by simpa [hm] using hfirst
    exact herror

end MarkerLog

end Descent
