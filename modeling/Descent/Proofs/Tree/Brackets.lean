import Descent.Proofs.MarkerLog.History
import Descent.Tree.Assembly
import Mathlib.Data.List.Basic

/-!
# The entries that shape a tree

Of the entries of a log the tree depends on few: the starts and the commitments of the markers that
are committed in the end (`brackets`). Two logs that agree on these, and on what is known of those
markers, have the same tree (`toTree_congr`), whatever else is in them.
-/

namespace Descent

/-- The tree that is left when the rest of the source is added and all open nodes are closed. -/
def Assembly.toRoot (source : Source) (root : Kind) (a : Assembly) : Tree :=
  let a := a.emit source source.size
  .node root ⟨0, source.endOffset⟩ none (a.close a.pending.length).base.reverse

namespace MarkerLog

variable {log log' : MarkerLog} {m : Marker}

/-- Whether an entry opens or closes a node of the tree. -/
def shapes (log : MarkerLog) : Entry → Bool
  | .start m => log.isCommitted m
  | .commit m => log.isCommitted m
  | .drop .. => false

/-- The entries that open and close the nodes of the tree, the oldest first. -/
def brackets (log : MarkerLog) : List Entry := log.entries.reverse.filter log.shapes

/-- What is known of the committed markers, in the order of their starts. -/
def committedNodes (log : MarkerLog) : List MarkerInfo :=
  log.brackets.filterMap fun
    | .start m => log.info? m
    | _ => none

section
variable {source : Source} {isTrivia : Nat → Bool} {merged : Option Marker} {a : Assembly}

theorem assemble_of_not_shapes {e : Entry} (h : log.shapes e = false) :
    log.assemble source isTrivia merged a e = a := by
  have key (m : Marker) (hm : log.isCommitted m = false) (info : MarkerInfo)
      (hi : log.info? m = some info) : info.stage ≠ .committed := by
    intro hs
    rw [isCommitted_iff.2 ⟨info, hi, hs⟩] at hm
    cases hm
  cases e with
  | start m =>
    simp only [assemble]
    split
    · next info hi => rw [if_neg (fun hc => key m h info hi hc.1)]
    · rfl
  | commit m =>
    simp only [assemble]
    split
    · next info hi => rw [if_neg (fun hc => key m h info hi hc.1)]
    · rfl
  | drop m prior => rfl

theorem foldl_assemble_brackets (log : MarkerLog) (es : List Entry) (a : Assembly) :
    es.foldl (log.assemble source isTrivia merged) a =
      (es.filter log.shapes).foldl (log.assemble source isTrivia merged) a := by
  induction es generalizing a with
  | nil => rfl
  | cons e es ih =>
    cases h : log.shapes e with
    | true => simp [h, ih]
    | false => simp [h, ih, assemble_of_not_shapes h]

end

/-- The first node of the log that is committed in the end. -/
def firstCommitted? (log : MarkerLog) : Option Marker :=
  log.brackets.findSome? fun
    | .start m => some m
    | _ => none

theorem rootMarker?_eq (log : MarkerLog) (root : Kind) :
    log.rootMarker? root = log.firstCommitted?.filter fun m => log.kind? m == some root := by
  have key (es : List Entry) :
      (es.findSome? fun | .start m => if log.isCommitted m then some m else none | _ => none) =
        (es.filter log.shapes).findSome? fun | .start m => some m | _ => none := by
    induction es with
    | nil => rfl
    | cons e es ih =>
      cases e with
      | start m =>
        cases h : log.isCommitted m <;> simp [shapes, h, ih]
      | commit m =>
        cases h : log.isCommitted m <;> simp [shapes, h, ih]
      | drop m prior => simp [shapes, ih]
  rw [firstCommitted?, brackets, ← key]
  rfl

/-- The tree of a log, built from the entries that shape it. -/
theorem toTree_eq (log : MarkerLog) (source : Source) (language : Language) (root : Kind) :
    log.toTree source language root =
      (log.brackets.foldl (log.assemble source (fun i => language.isTrivia? (source.kind? i))
        (log.rootMarker? root)) {}).toRoot source root := by
  rw [toTree, brackets, ← foldl_assemble_brackets]
  rfl

theorem isCommitted_of_shapes {e : Entry} (h : log.shapes e = true) :
    log.isCommitted e.marker = true := by
  cases e <;> simp_all [shapes, Entry.marker]

theorem assemble_congr {source : Source} {isTrivia : Nat → Bool} {merged : Option Marker}
    {e : Entry} (h : log'.info? e.marker = log.info? e.marker) (a : Assembly) :
    log'.assemble source isTrivia merged a e = log.assemble source isTrivia merged a e := by
  cases e with
  | start m => simp only [assemble, show log'.info? m = log.info? m from h]
  | commit m => simp only [assemble, show log'.info? m = log.info? m from h]
  | drop m prior => rfl

theorem info?_of_mem_brackets (hi : ∀ m, log.isCommitted m = true → log'.info? m = log.info? m)
    {e : Entry} (he : e ∈ log.brackets) : log'.info? e.marker = log.info? e.marker :=
  hi _ (isCommitted_of_shapes (List.mem_filter.1 he).2)

theorem mem_brackets_of_firstCommitted? (h : log.firstCommitted? = some m) :
    .start m ∈ log.brackets := by
  obtain ⟨e, he, hm⟩ := List.exists_of_findSome?_eq_some h
  cases e <;> simp_all

/-- Logs with the same brackets and the same nodes have the same tree. -/
theorem toTree_congr (hb : log'.brackets = log.brackets)
    (hi : ∀ m, log.isCommitted m = true → log'.info? m = log.info? m) (source : Source)
    (language : Language) (root : Kind) :
    log'.toTree source language root = log.toTree source language root := by
  have hroot : log'.rootMarker? root = log.rootMarker? root := by
    have hfirst : log'.firstCommitted? = log.firstCommitted? := by
      rw [firstCommitted?, firstCommitted?, hb]
    rw [rootMarker?_eq, rootMarker?_eq, hfirst]
    cases h : log.firstCommitted? with
    | none => rfl
    | some m =>
      have hinfo : log'.info? m = log.info? m :=
        info?_of_mem_brackets hi (mem_brackets_of_firstCommitted? h)
      simp [Option.filter, kind?, hinfo]
  rw [toTree_eq, toTree_eq, hroot, hb, List.foldl_ext _ _ _ fun a e he =>
    assemble_congr (info?_of_mem_brackets hi he) a]

theorem committedNodes_congr (hb : log'.brackets = log.brackets)
    (hi : ∀ m, log.isCommitted m = true → log'.info? m = log.info? m) :
    log'.committedNodes = log.committedNodes := by
  rw [committedNodes, committedNodes, hb]
  refine List.filterMap_congr fun e he => ?_
  cases e with
  | start m => exact info?_of_mem_brackets hi he
  | commit m => rfl
  | drop m prior => rfl

end MarkerLog

end Descent
