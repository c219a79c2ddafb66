import Descent.Proofs.Tree.Leaves

/-!
# Trees without gaps

If the tokens of a source follow one another without a gap, so do the children of every node of a
tree. A node that has children begins with the first and ends with the last of them, but one that
stays empty keeps the offset it was opened at. So it is to be shown that nothing comes in between:
while a tree is assembled, every open node begins where what is in the tree before it ends
(`Laid`), and the children of the innermost one end where the next token starts. Nothing is asked of
the log, whose markers may cross (`Session.children_tile_parse`).
-/

namespace Descent

/-! ## Spans that follow one another -/

/-- Spans follow one another without a gap, from one offset to another. -/
inductive Tiles : Nat → List Span → Nat → Prop where
  | nil (a : Nat) : Tiles a [] a
  | cons {a b : Nat} {s : Span} {ss : List Span} (hs : s.start = a) (h : Tiles s.stop ss b) :
    Tiles a (s :: ss) b

namespace Tiles

variable {a b c : Nat} {ss ts : List Span}

theorem append (h : Tiles a ss b) (h' : Tiles b ts c) : Tiles a (ss ++ ts) c := by
  induction h with
  | nil => exact h'
  | cons hs _ ih => exact .cons hs (ih h')

theorem split (h : Tiles a (ss ++ ts) c) : ∃ b, Tiles a ss b ∧ Tiles b ts c := by
  induction ss generalizing a with
  | nil => exact ⟨a, .nil a, h⟩
  | cons s ss ih =>
    cases h with
    | cons hs h =>
      obtain ⟨b, hss, hts⟩ := ih h
      exact ⟨b, .cons hs hss, hts⟩

theorem start_unique (h : Tiles a ss c) (h' : Tiles b ss c) : a = b := by
  cases h with
  | nil =>
    cases h'
    rfl
  | cons hs _ =>
    cases h' with
    | cons hs' _ => exact hs.symm.trans hs'

/-- The first span starts where all of them do. -/
theorem start_eq {s : Span} (h : Tiles a ss b) (hs : ss.head? = some s) : s.start = a := by
  cases h with
  | nil => cases hs
  | cons hstart _ =>
    obtain rfl := Option.some.inj hs
    exact hstart

/-- The last span stops where all of them do. -/
theorem stop_eq {s : Span} (h : Tiles a ss b) (hs : ss.getLast? = some s) : s.stop = b := by
  rw [List.getLast?_eq_some_iff] at hs
  obtain ⟨front, rfl⟩ := hs
  obtain ⟨c, -, hlast⟩ := h.split
  cases hlast with
  | cons _ h =>
    cases h
    rfl

end Tiles

namespace Source

/-- No token stops before it starts. -/
def Ordered (source : Source) : Prop := ∀ token ∈ source.tokens, token.span.start ≤ token.span.stop

/-- The tokens follow one another without a gap and make up the text. -/
def Contiguous (source : Source) : Prop :=
  Tiles 0 (source.tokens.map (·.span)) source.endOffset

variable {source : Source}

/-- So do those from any of them on. -/
theorem Contiguous.drop (h : source.Contiguous) (i : Nat) :
    Tiles (source.start i) ((source.tokens.drop i).map (·.span)) source.endOffset := by
  rw [Contiguous, ← List.take_append_drop i source.tokens, List.map_append] at h
  obtain ⟨b, -, hb⟩ := h.split
  suffices hi : source.start i = b by rwa [hi]
  rw [start, span]
  cases hdrop : source.tokens.drop i with
  | nil =>
    rw [List.getElem?_eq_none (List.drop_eq_nil_iff.1 hdrop)]
    rw [hdrop] at hb
    cases hb
    rfl
  | cons t ts =>
    have ht : source.tokens[i]? = some t := by rw [← List.head?_drop, hdrop]; rfl
    rw [ht]
    rw [hdrop] at hb
    exact hb.start_eq rfl

theorem Contiguous.start_zero (h : source.Contiguous) : source.start 0 = 0 :=
  (h.drop 0).start_unique h

/-- So does every part of them, from where its first token starts to where the next one would. -/
theorem Contiguous.drop_take (h : source.Contiguous) (i n : Nat) :
    let ts := (source.tokens.drop i).take n
    Tiles (source.start i) (ts.map (·.span)) (source.start (i + ts.length)) := by
  intro ts
  have hrest : source.tokens.drop (i + ts.length) = (source.tokens.drop i).drop n := by
    have hlength : ts.length = min n (source.tokens.length - i) := by
      rw [List.length_take, List.length_drop]
    rw [List.drop_drop]
    rcases Nat.le_total n (source.tokens.length - i) with hn | hn
    · rw [hlength, Nat.min_eq_left hn]
    · rw [List.drop_eq_nil_of_le (by omega), List.drop_eq_nil_of_le (by omega)]
  have hall := h.drop i
  rw [← List.take_append_drop n (source.tokens.drop i), List.map_append] at hall
  obtain ⟨b, hts, hb⟩ := hall.split
  have hnext := h.drop (i + ts.length)
  rw [hrest] at hnext
  rwa [hnext.start_unique hb]

end Source

/-! ## Trees that are tiled -/

namespace Tree

/-- The children of every node of the tree follow one another without a gap, from where the node
starts to where it stops. -/
def Tiled (t : Tree) : Prop :=
  ∀ n ∈ t.nodes, Tiles n.span.start (n.children.map span) n.span.stop

theorem tiled_leaf (token : Token) : (leaf token).Tiled := fun n hn => by cases hn

theorem mem_nodesAll {n : Tree} {ts : List Tree} : n ∈ nodesAll ts ↔ ∃ t ∈ ts, n ∈ t.nodes := by
  induction ts with
  | nil => simp [nodesAll]
  | cons t ts ih => simp [nodesAll, ih]

theorem tiled_node {kind : Kind} {span : Span} {error : Option SyntaxError} {ts : List Tree}
    (h : Tiles span.start (ts.map Tree.span) span.stop) (hts : ∀ t ∈ ts, t.Tiled) :
    (node kind span error ts).Tiled := by
  intro n hn
  rcases List.mem_cons.1 hn with rfl | hn
  · exact h
  · obtain ⟨t, ht, hn⟩ := mem_nodesAll.1 hn
    exact hts t ht n hn

/-! ### The order of the nodes -/

/-- Nodes start one after the other, all between two offsets. -/
structure Sorted (a b : Nat) (ts : List Tree) : Prop where
  le : a ≤ b
  pairwise : ts.Pairwise fun t u => t.span.start ≤ u.span.start
  within : ∀ t ∈ ts, a ≤ t.span.start ∧ t.span.start ≤ b

theorem Sorted.append {a b c : Nat} {ts us : List Tree} (h : Sorted a b ts) (h' : Sorted b c us) :
    Sorted a c (ts ++ us) where
  le := Nat.le_trans h.le h'.le
  pairwise := List.pairwise_append.2 ⟨h.pairwise, h'.pairwise, fun t ht u hu =>
    Nat.le_trans (h.within t ht).2 (h'.within u hu).1⟩
  within t ht := by
    have hle := h.le
    have hle' := h'.le
    rcases List.mem_append.1 ht with ht | ht
    · have hwithin := h.within t ht
      omega
    · have hwithin := h'.within t ht
      omega

mutual

/-- The nodes of a tiled tree start in the order in which they are listed. -/
theorem Tiled.sorted : ∀ {t : Tree}, t.Tiled → (∀ token ∈ t.leaves, token.span.start ≤ token.span.stop) →
    Sorted t.span.start t.span.stop t.nodes
  | leaf token, _, hleaves => ⟨hleaves token (List.mem_singleton.2 rfl), .nil, fun n hn => by cases hn⟩
  | node kind span error ts, htiled, hleaves => by
    have hchildren := htiled _ (List.mem_cons_self ..)
    have hsorted : Sorted span.start span.stop (nodesAll ts) :=
      sorted_nodesAll hchildren (fun t ht n hn =>
        htiled n (List.mem_cons_of_mem _ (mem_nodesAll.2 ⟨t, ht, hn⟩))) hleaves
    refine ⟨hsorted.le, .cons (fun n hn => (hsorted.within n hn).1) hsorted.pairwise, ?_⟩
    rw [nodes, List.forall_mem_cons]
    exact ⟨⟨Nat.le_refl _, hsorted.le⟩, hsorted.within⟩

theorem sorted_nodesAll : ∀ {ts : List Tree} {a b : Nat}, Tiles a (ts.map Tree.span) b →
    (∀ t ∈ ts, t.Tiled) → (∀ token ∈ leavesAll ts, token.span.start ≤ token.span.stop) →
    Sorted a b (nodesAll ts)
  | [], _, _, htiles, _, _ => by
    cases htiles
    exact ⟨Nat.le_refl _, .nil, fun n hn => by cases hn⟩
  | t :: ts, a, b, htiles, htiled, hleaves => by
    obtain ⟨ht, hts⟩ := List.forall_mem_cons.1 htiled
    obtain ⟨hleaves, hrest⟩ := List.forall_mem_append.1 hleaves
    cases htiles with
    | cons hstart htiles =>
      subst hstart
      exact (Tiled.sorted ht hleaves).append (sorted_nodesAll htiles hts hrest)

end

end Tree

namespace Assembly

/-- The trees under construction follow one another without a gap and end at an offset, and every
open node has the offset at which what is in the tree before it ends. -/
def Laid (base : List Tree) : List Pending → Nat → Prop
  | [], b => Tiles 0 (base.reverse.map Tree.span) b
  | p :: ps, b => Laid base ps p.offset ∧ Tiles p.offset (p.children.reverse.map Tree.span) b

/-- The trees under construction are tiled and end at an offset. -/
structure Tiling (b : Nat) (a : Assembly) : Prop where
  laid : Laid a.base a.pending b
  tiled : ∀ t ∈ a.contents, t.Tiled

variable {source : Source} {a : Assembly} {b c : Nat} {ts : List Tree}

/-- A node spans from its offset to where its children end. -/
theorem span_toTree {p : Pending} (h : Tiles p.offset (p.children.reverse.map Tree.span) b) :
    p.toTree.span = ⟨p.offset, b⟩ := by
  rw [Pending.toTree, Tree.span]
  cases hlast : p.children.head? with
  | none =>
    rw [List.head?_eq_none_iff.1 hlast] at h ⊢
    cases h
    rfl
  | some last =>
    obtain ⟨first, hfirst⟩ : ∃ first, p.children.getLast? = some first := by
      rw [← Option.isSome_iff_exists, List.getLast?_isSome]
      rintro hnil
      rw [hnil] at hlast
      cases hlast
    have hstart := h.start_eq (s := first.span) (by simp [hfirst])
    have hstop := h.stop_eq (s := last.span) (by simp [hlast])
    rw [hfirst, ← hstart, ← hstop]

theorem Tiling.empty : Tiling 0 {} where
  laid := .nil 0
  tiled := by simp [contents]

/-- Trees are added to the innermost open node. -/
theorem Tiling.attach (h : Tiling b a) (hts : Tiles b (ts.reverse.map Tree.span) c)
    (htiled : ∀ t ∈ ts, t.Tiled) : Tiling c (a.attach ts) where
  laid := by
    obtain ⟨ps, base, next⟩ := a
    cases ps with
    | nil =>
      have hall := Tiles.append h.laid hts
      simpa [Assembly.attach, Laid] using hall
    | cons p ps =>
      obtain ⟨hbelow, hp⟩ := h.laid
      have hall := Tiles.append hp hts
      exact ⟨hbelow, by simpa using hall⟩
  tiled t ht := by
    rw [contents_attach, List.mem_append, List.mem_reverse] at ht
    exact ht.elim (h.tiled t) (htiled t)

theorem Tiling.emit (hsource : source.Contiguous) (h : Tiling (source.start a.next) a)
    (stop : Nat) : Tiling (source.start (a.emit source stop).next) (a.emit source stop) := by
  have htokens := hsource.drop_take a.next (stop - a.next)
  let ts := (source.tokens.drop a.next).take (stop - a.next)
  have hspans : (ts.reverse.map Tree.leaf).reverse.map Tree.span = ts.map (·.span) := by
    simp [Tree.span, Function.comp_def]
  have hadded : Tiling (source.start (a.next + ts.length)) (a.attach (ts.reverse.map .leaf)) := by
    refine h.attach ?_ fun t ht => ?_
    · rw [hspans]
      exact htokens
    · obtain ⟨token, -, rfl⟩ := List.mem_map.1 ht
      exact Tree.tiled_leaf token
  exact ⟨hadded.laid, hadded.tiled⟩

theorem Tiling.openNode (h : Tiling b a) {p : Pending} (hp : p.children = [])
    (hoffset : p.offset = b) : Tiling b { a with pending := p :: a.pending } where
  laid := by
    refine ⟨?_, ?_⟩
    · rw [hoffset]
      exact h.laid
    · rw [hp, hoffset]
      exact .nil _
  tiled t ht := h.tiled t (by simpa [contents, hp] using ht)

theorem Tiling.closeOne (h : Tiling b a) : Tiling b a.closeOne := by
  obtain ⟨_ | ⟨p, ps⟩, base, next⟩ := a
  · exact h
  · obtain ⟨hbelow, hp⟩ := h.laid
    have hspan := span_toTree hp
    -- what is in the tree before the node ends where the node begins
    have hrest : Tiling p.offset { pending := ps, base, next } :=
      ⟨hbelow, fun t ht => h.tiled t (by grind [contents])⟩
    refine hrest.attach ?_ fun t ht => ?_
    · rw [List.reverse_singleton, List.map_singleton, hspan]
      exact .cons rfl (.nil b)
    · obtain rfl := List.mem_singleton.1 ht
      refine Tree.tiled_node ?_ fun t ht => h.tiled t ?_
      · change Tiles p.toTree.span.start _ p.toTree.span.stop
        rw [hspan]
        exact hp
      · grind [contents]

theorem Tiling.close (h : Tiling b a) (n : Nat) : Tiling b (a.close n) := by
  induction n generalizing a with
  | zero => exact h
  | succ n ih => exact ih h.closeOne

end Assembly

namespace MarkerLog

variable {source : Source} {isTrivia : Nat → Bool} {merged : Option Marker} {a : Assembly}

theorem tiling_assemble (hsource : source.Contiguous) (log : MarkerLog)
    (h : a.Tiling (source.start a.next)) (e : Entry) :
    let b := log.assemble source isTrivia merged a e
    b.Tiling (source.start b.next) := by
  cases e with
  | start m =>
    simp only [assemble]
    split
    · split
      · exact (h.emit hsource _).openNode rfl rfl
      · exact h
    · exact h
  | commit m =>
    simp only [assemble]
    split
    · split
      · rw [Assembly.next_close]
        exact (h.emit hsource _).close _
      · exact h
    · exact h
  | drop m prior => exact h

theorem tiling_foldl (hsource : source.Contiguous) (log : MarkerLog) (entries : List Entry)
    (h : a.Tiling (source.start a.next)) :
    let b := entries.foldl (log.assemble source isTrivia merged) a
    b.Tiling (source.start b.next) := by
  induction entries generalizing a with
  | nil => exact h
  | cons e entries ih => exact ih (tiling_assemble hsource log h e)

/-- The tree of a log is tiled and spans the text, if the tokens are contiguous. -/
theorem tiled_toTree {source : Source} (hsource : source.Contiguous) (log : MarkerLog)
    (language : Language) (root : Kind) :
    (log.toTree source language root).span = ⟨0, source.endOffset⟩ ∧
      (log.toTree source language root).Tiled := by
  refine ⟨rfl, ?_⟩
  let isTrivia := fun i => language.isTrivia? (source.kind? i)
  let read := log.entries.reverse.foldl (log.assemble source isTrivia (log.rootMarker? root)) {}
  let last := read.emit source source.size
  have hread : read.Tiling (source.start read.next) :=
    tiling_foldl hsource log _ (by rw [hsource.start_zero]; exact .empty)
  have hlast := (hread.emit hsource source.size).close last.pending.length
  have hend : source.start last.next = source.endOffset := by
    have hsize : source.tokens.length ≤ last.next := Assembly.size_le_next_emit source read
    rw [Source.start, Source.span, List.getElem?_eq_none hsize]
    rfl
  have hlaid := hlast.laid
  rw [Assembly.pending_close_length, Assembly.Laid, hend] at hlaid
  refine Tree.tiled_node hlaid fun t ht => hlast.tiled t ?_
  rw [Assembly.contents, Assembly.pending_close_length]
  exact ht

end MarkerLog

namespace Session

/-- If the tokens are contiguous, the root of every parse spans the text, and the children of every
node tile its span: the first one starts where the node does, each other one where the one before
it stopped, and the last one stops where the node does. So a node without children is empty and lies
where its neighbours meet. What the root rule does to the markers does not matter. -/
theorem children_tile_parse {g : Setup} (hsource : g.source.Contiguous) {fuel : Nat} {root : Kind}
    {rule : RuleRef} {s : Session} {o : Output} (h : s.parse g fuel root rule = some o) :
    o.tree.span = ⟨0, g.source.endOffset⟩ ∧
      ∀ n ∈ o.tree.nodes, Tiles n.span.start (n.children.map Tree.span) n.span.stop := by
  simp only [parse, Option.bind_eq_bind, Option.bind_eq_some_iff, Option.some.injEq] at h
  obtain ⟨-, -, last, -, rfl⟩ := h
  exact MarkerLog.tiled_toTree hsource last.log g.language root

theorem children_tile_parse_crossing :
    crossing.source.Contiguous ∧
      ∃ o, Session.parse crossing 12 ⟨22⟩ (.named "root") {} = some o ∧
        o.tree.span = ⟨0, 3⟩ ∧
        ∀ n ∈ o.tree.nodes, Tiles n.span.start (n.children.map Tree.span) n.span.stop := by
  have hsource : crossing.source.Contiguous := .cons rfl (.cons rfl (.cons rfl (.nil _)))
  have htiles := fun o (h : Session.parse crossing 12 ⟨22⟩ (.named "root") {} = some o) =>
    children_tile_parse hsource h
  exact ⟨hsource, _, rfl, htiles _ rfl⟩

end Session

end Descent
