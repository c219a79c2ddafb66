import Descent.Proofs.MarkerLog.MapErrors
import Descent.Tree.Assembly

/-!
# Changing the errors of a tree

The errors of a log end up in its tree, and nothing in a tree depends on what they are: the tree of a log
with other errors is the tree of the log with these errors (`MarkerLog.toTree_mapErrors`).
-/

namespace Descent

namespace Tree

variable (f : SyntaxError → SyntaxError)

mutual

/-- The tree with the errors of its nodes changed. -/
def mapErrors : Tree → Tree
  | leaf t => leaf t
  | node kind span error ts => node kind span (error.map f) (mapErrorsAll ts)

def mapErrorsAll : List Tree → List Tree
  | [] => []
  | t :: ts => t.mapErrors :: mapErrorsAll ts

end

theorem mapErrorsAll_eq_map (ts : List Tree) : mapErrorsAll f ts = ts.map (mapErrors f) := by
  induction ts with
  | nil => rfl
  | cons t ts ih => rw [mapErrorsAll, ih, List.map_cons]

@[simp] theorem span_mapErrors (t : Tree) : (t.mapErrors f).span = t.span := by
  cases t <;> rfl

@[simp] theorem error?_mapErrors (t : Tree) : (t.mapErrors f).error? = t.error?.map f := by
  cases t <;> rfl

mutual

theorem nodes_mapErrors : (t : Tree) → (t.mapErrors f).nodes = t.nodes.map (mapErrors f)
  | leaf _ => rfl
  | node kind span error ts => by
    rw [mapErrors, nodes, nodes, List.map_cons, nodesAll_mapErrorsAll ts, mapErrors]

theorem nodesAll_mapErrorsAll :
    (ts : List Tree) → nodesAll (mapErrorsAll f ts) = (nodesAll ts).map (mapErrors f)
  | [] => rfl
  | t :: ts => by
    rw [mapErrorsAll, nodesAll, nodesAll, List.map_append, nodes_mapErrors t,
      nodesAll_mapErrorsAll ts]

end

end Tree

/-! ## Trees under construction -/

variable {f : SyntaxError → SyntaxError}

namespace Pending

/-- The open node with its error and those inside it changed. -/
def mapErrors (f : SyntaxError → SyntaxError) (p : Pending) : Pending :=
  { p with error := p.error.map f, children := p.children.map (.mapErrors f) }

theorem toTree_mapErrors (p : Pending) : (p.mapErrors f).toTree = p.toTree.mapErrors f := by
  obtain ⟨marker, kind, error, offset, children⟩ := p
  simp only [toTree, mapErrors, Tree.mapErrors, Tree.mapErrorsAll_eq_map, List.map_reverse,
    List.getLast?_map, List.head?_map]
  cases children.getLast? <;> cases children.head? <;> simp

end Pending

namespace Assembly

/-- The tree under construction with the errors of its nodes changed. -/
def mapErrors (f : SyntaxError → SyntaxError) (a : Assembly) : Assembly :=
  { a with pending := a.pending.map (.mapErrors f), base := a.base.map (.mapErrors f) }

theorem attach_mapErrors (a : Assembly) (ts : List Tree) :
    (a.mapErrors f).attach (ts.map (.mapErrors f)) = (a.attach ts).mapErrors f := by
  obtain ⟨ps, base, next⟩ := a
  cases ps <;> simp [attach, mapErrors, Pending.mapErrors]

theorem emit_mapErrors (source : Source) (stop : Nat) (a : Assembly) :
    (a.mapErrors f).emit source stop = (a.emit source stop).mapErrors f := by
  have hleaves (l : List Token) : (l.map Tree.leaf).map (.mapErrors f) = l.map Tree.leaf := by
    rw [List.map_map]
    rfl
  simp only [emit]
  rw [← hleaves, attach_mapErrors]
  rfl

theorem closeOne_mapErrors (a : Assembly) :
    (a.mapErrors f).closeOne = a.closeOne.mapErrors f := by
  obtain ⟨ps, base, next⟩ := a
  cases ps with
  | nil => rfl
  | cons p ps =>
    have hattach := attach_mapErrors (f := f) ⟨ps, base, next⟩ [p.toTree]
    rw [List.map_singleton, ← Pending.toTree_mapErrors] at hattach
    exact hattach

theorem close_mapErrors (n : Nat) (a : Assembly) :
    (a.mapErrors f).close n = (a.close n).mapErrors f := by
  induction n generalizing a with
  | zero => rfl
  | succ n ih => rw [close, closeOne_mapErrors, ih, close]

theorem openTo_mapErrors (a : Assembly) (m : Marker) : (a.mapErrors f).openTo m = a.openTo m := by
  unfold openTo mapErrors
  rw [List.findIdx?_map]
  rfl

end Assembly

namespace MarkerLog

theorem rootMarker?_mapErrors (log : MarkerLog) (root : Kind) :
    (log.mapErrors f).rootMarker? root = log.rootMarker? root := by
  simp [rootMarker?]

theorem assemble_mapErrors (log : MarkerLog) (source : Source) (isTrivia : Nat → Bool)
    (merged : Option Marker) (a : Assembly) (e : Entry) :
    (log.mapErrors f).assemble source isTrivia merged (a.mapErrors f) e =
      (log.assemble source isTrivia merged a e).mapErrors f := by
  have hstage (info : MarkerInfo) : (info.mapError f).stage = info.stage := rfl
  have htrimmed (info : MarkerInfo) : (info.mapError f).trimmed isTrivia = info.trimmed isTrivia :=
    rfl
  cases e with
  | start m =>
    simp only [assemble, info?_mapErrors]
    cases log.info? m with
    | none => rfl
    | some info =>
      simp only [Option.map_some, hstage, htrimmed, Assembly.emit_mapErrors]
      split <;> rfl
  | commit m =>
    simp only [assemble, info?_mapErrors]
    cases log.info? m with
    | none => rfl
    | some info =>
      simp only [Option.map_some, hstage, htrimmed, Assembly.emit_mapErrors,
        Assembly.openTo_mapErrors, Assembly.close_mapErrors]
      split <;> rfl
  | drop m prior => rfl

/-- The tree of a log with other errors is the tree of the log with these errors. -/
theorem toTree_mapErrors (log : MarkerLog) (source : Source) (language : Language) (root : Kind) :
    (log.mapErrors f).toTree source language root =
      (log.toTree source language root).mapErrors f := by
  let isTrivia := fun i => language.isTrivia? (source.kind? i)
  have hfold (es : List Entry) (a : Assembly) :
      es.foldl ((log.mapErrors f).assemble source isTrivia (log.rootMarker? root))
          (a.mapErrors f) =
        (es.foldl (log.assemble source isTrivia (log.rootMarker? root)) a).mapErrors f := by
    induction es generalizing a with
    | nil => rfl
    | cons e es ih => rw [List.foldl_cons, List.foldl_cons, assemble_mapErrors, ih]
  have hread := hfold log.entries.reverse {}
  have hopen (a : Assembly) : (a.mapErrors f).pending.length = a.pending.length :=
    List.length_map ..
  have hclosed (a : Assembly) :
      ((a.mapErrors f).close (a.mapErrors f).pending.length).base.reverse =
        Tree.mapErrorsAll f (a.close a.pending.length).base.reverse := by
    rw [hopen, Assembly.close_mapErrors, Tree.mapErrorsAll_eq_map, List.map_reverse]
    rfl
  unfold toTree
  rw [rootMarker?_mapErrors]
  refine congrArg (Tree.node root ⟨0, source.endOffset⟩ none) ?_
  rw [← hclosed, ← Assembly.emit_mapErrors, ← hread]
  rfl

end MarkerLog

end Descent
