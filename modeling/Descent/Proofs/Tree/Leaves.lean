import Descent.Parse

/-!
# The leaves of a tree

However the entries of a log are arranged, the tree built from it has the tokens of the source as its
leaves, each once and in order. What carries this through the assembly is `Assembly.Fed`: the
tokens added so far are the ones before `next`. Nothing is asked of the log, so the same holds for
every parse, whatever its grammar does to its markers (`Session.leaves_parse`).
-/

namespace Descent

namespace Assembly

variable {source : Source} {a : Assembly}

/-- The tokens in the tree so far are those before `next`. -/
def Fed (source : Source) (a : Assembly) : Prop := a.leaves = source.tokens.take a.next

theorem Fed.empty (source : Source) : Fed source {} := by
  simp [Fed, leaves, contents, Tree.leavesAll]

/-- Opening a node adds no token. -/
theorem Fed.openNode (h : Fed source a) (p : Pending) (hp : p.children = []) :
    Fed source { a with pending := p :: a.pending } := by
  simpa [Fed, leaves, contents, hp] using h

theorem Fed.emit (h : Fed source a) (stop : Nat) : Fed source (a.emit source stop) := by
  have hts : (source.tokens.drop a.next).take (stop - a.next) =
      (source.tokens.drop a.next).take
        ((source.tokens.drop a.next).take (stop - a.next)).length := by
    simp
  rw [Fed, leaves_emit, h]
  simp only [Assembly.emit]
  rw [List.take_add, ← hts]

@[simp] theorem next_attach (a : Assembly) (ts : List Tree) : (a.attach ts).next = a.next := by
  unfold attach
  split <;> rfl

@[simp] theorem next_closeOne (a : Assembly) : a.closeOne.next = a.next := by
  unfold closeOne
  split <;> simp

@[simp] theorem next_close (n : Nat) (a : Assembly) : (a.close n).next = a.next := by
  induction n generalizing a with
  | zero => rfl
  | succ n ih => simp [close, ih]

theorem Fed.close (h : Fed source a) (n : Nat) : Fed source (a.close n) := by
  simpa [Fed] using h

/-- The assembly reaches the end of the source with the last tokens. -/
theorem size_le_next_emit (source : Source) (a : Assembly) :
    source.size ≤ (a.emit source source.size).next := by
  simp [Assembly.emit, Source.size]
  omega

@[simp] theorem length_pending_attach (a : Assembly) (ts : List Tree) :
    (a.attach ts).pending.length = a.pending.length := by
  unfold attach
  split <;> simp_all

theorem length_pending_closeOne (a : Assembly) :
    a.closeOne.pending.length = a.pending.length - 1 := by
  unfold closeOne
  split <;> simp_all

/-- Closing as many nodes as are open closes all of them. -/
theorem pending_close_length (a : Assembly) : (a.close a.pending.length).pending = [] := by
  suffices h : ∀ n (a : Assembly), a.pending.length = n → (a.close n).pending = [] from h _ a rfl
  intro n
  induction n with
  | zero => exact fun a h => List.length_eq_zero_iff.1 h
  | succ n ih => exact fun a h => ih a.closeOne (by rw [length_pending_closeOne, h]; rfl)

end Assembly

namespace MarkerLog

variable {source : Source} {isTrivia : Nat → Bool} {merged : Option Marker} {a : Assembly}

open Assembly in
theorem fed_assemble (log : MarkerLog) (h : Fed source a) (e : Entry) :
    Fed source (log.assemble source isTrivia merged a e) := by
  cases e with
  | start m =>
    simp only [assemble]
    split
    · split
      · exact (h.emit _).openNode _ rfl
      · exact h
    · exact h
  | commit m =>
    simp only [assemble]
    split
    · split
      · exact (h.emit _).close _
      · exact h
    · exact h
  | drop m prior => exact h

theorem fed_foldl (log : MarkerLog) (entries : List Entry) (h : a.Fed source) :
    (entries.foldl (log.assemble source isTrivia merged) a).Fed source := by
  induction entries generalizing a with
  | nil => exact h
  | cons e entries ih => exact ih (log.fed_assemble h e)

/-- The leaves of the tree of a log are the tokens of the source, in order. -/
theorem leaves_toTree (log : MarkerLog) (source : Source) (language : Language) (root : Kind) :
    (log.toTree source language root).leaves = source.tokens := by
  let isTrivia := fun i => language.isTrivia? (source.kind? i)
  let read := log.entries.reverse.foldl (log.assemble source isTrivia (log.rootMarker? root)) {}
  let last := read.emit source source.size
  have hread : read.Fed source := log.fed_foldl log.entries.reverse (.empty source)
  have hlast : (last.close last.pending.length).Fed source := (hread.emit source.size).close _
  have hbase : (last.close last.pending.length).leaves =
      Tree.leavesAll (last.close last.pending.length).base.reverse := by
    simp [Assembly.leaves, Assembly.contents, Assembly.pending_close_length]
  have hnext : source.size ≤ last.next := Assembly.size_le_next_emit source read
  calc (log.toTree source language root).leaves
    _ = Tree.leavesAll (last.close last.pending.length).base.reverse := by
      rw [toTree, Tree.leaves]
    _ = source.tokens.take last.next := by rw [← hbase, hlast, Assembly.next_close]
    _ = source.tokens := List.take_of_length_le hnext

end MarkerLog

namespace Session

/-- Every token lands in the tree of a parse once and in order, whatever the root rule does, and
so it does in the tree of any log. -/
theorem leaves_parse (g : Setup) (root : Kind) :
    (∀ log : MarkerLog, (log.toTree g.source g.language root).leaves = g.source.tokens) ∧
      ∀ (fuel : Nat) (rule : RuleRef) (s : Session) (o : Output),
        s.parse g fuel root rule = some o → o.tree.leaves = g.source.tokens := by
  refine ⟨fun log => log.leaves_toTree .., fun fuel rule s o h => ?_⟩
  simp only [parse, Option.bind_eq_bind, Option.bind_eq_some_iff, Option.some.injEq] at h
  obtain ⟨-, -, last, -, rfl⟩ := h
  exact last.log.leaves_toTree ..

/-- Two nodes that cross, over three tokens. -/
def crossing : Setup where
  source := { text := "abc", tokens := [⟨⟨3⟩, ⟨0, 1⟩⟩, ⟨⟨3⟩, ⟨1, 2⟩⟩, ⟨⟨3⟩, ⟨2, 3⟩⟩] }
  language := (LanguageTable.toBareLanguage {})
  limits := default
  grammar := [("root",
    .seq (.prim (.openMarker "a")) <| .seq (.prim .advance) <|
    .seq (.prim (.openMarker "b")) <| .seq (.prim .advance) <|
    .seq (.prim (.commit "a" ⟨20⟩)) (.prim (.commit "b" ⟨21⟩)))]

theorem leaves_parse_crossing :
    ∃ o, Session.parse crossing 12 ⟨22⟩ (.named "root") {} = some o ∧
      o.tree.leaves = crossing.source.tokens :=
  ⟨_, rfl, (leaves_parse crossing ⟨22⟩).2 12 (.named "root") {} _ rfl⟩

end Session

end Descent
