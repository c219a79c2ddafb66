import Descent.Proofs.MarkerLog.Idle
import Descent.Proofs.Source.Significant
import Descent.Session.Chunks
import Mathlib.Data.List.Forall2

/-!
# Chunks in logs and trees

A chunk of the first generation has so many tokens in it that are no trivia, and a chunk of any other one
has so many chunks of the generation before (`Tree.IsChunk`). In a log the brackets of chunks side by side
are nested in the same way (`MarkerLog.Chunked`), and the tree has a chunk for each of them, with nothing
but trivia between them (`MarkerLog.foldl_chunked`).
-/

namespace Descent

namespace Tree

/-- Whether a tree is a token of trivia. -/
def isTrivia (language : Language) : Tree → Bool
  | leaf t => !language.isSignificant t
  | node .. => false

/-- The trees that are no trivia. -/
def significant (language : Language) (ts : List Tree) : List Tree :=
  ts.filter (!·.isTrivia language)

variable {language : Language}

theorem significant_append (ts us : List Tree) :
    significant language (ts ++ us) = significant language ts ++ significant language us :=
  List.filter_append ..

theorem significant_map_leaf (tokens : List Token) :
    significant language (tokens.map leaf) =
      (tokens.filter language.isSignificant).map leaf := by
  have hleaf (t : Token) : (!(leaf t).isTrivia language) = language.isSignificant t :=
    Bool.not_not _
  rw [significant, List.filter_map]
  exact congrArg (List.map leaf) (List.filter_congr fun t _ => hleaf t)

/-- A chunk of a generation: a node with `size` significant tokens in it if it is of the first one, else
with `size` chunks of the generation before. -/
inductive IsChunk (language : Language) (kind : Kind) (size : Nat) : Nat → Tree → Prop
  | items {span : Span} {tokens : List Token}
    (h : (tokens.filter language.isSignificant).length = size) :
    IsChunk language kind size 1 (.node kind span none (tokens.map leaf))
  | chunks {generation : Nat} {span : Span} {ts : List Tree}
    (hlength : (significant language ts).length = size)
    (h : ∀ t ∈ significant language ts, IsChunk language kind size generation t) :
    IsChunk language kind size (generation + 1) (.node kind span none ts)

end Tree

namespace MarkerLog

/-- The marker is committed as a node of a kind without an error. -/
structure IsPlain (log : MarkerLog) (kind : Kind) (m : Marker) : Prop where
  committed : log.isCommitted m = true
  kind : log.kind? m = some kind
  error : log.error? m = none
  le : log.start m ≤ log.stop m

/-- From one position up to another there are chunks with nothing but trivia between them. Their brackets
in the log are given. -/
inductive Chunked (log : MarkerLog) (g : Setup) (kind : Kind) :
    List Chunk → Nat → List Entry → Nat → Prop
  | nil (p : Nat) : Chunked log g kind [] p [] p
  | items {m : Marker} {cs : List Chunk} {p r : Nat} {rest : List Entry}
    (hm : log.IsPlain kind m) (hstart : p ≤ log.start m)
    (hbefore : g.countBefore (log.start m) = g.countBefore p)
    (hitems : g.countBefore (log.stop m) = g.countBefore (log.start m) + g.limits.fanOut)
    (hrest : Chunked log g kind cs (log.stop m) rest r) :
    Chunked log g kind (⟨m, 1⟩ :: cs) p (bracketed m [] ++ rest) r
  | chunks {m : Marker} {generation : Nat} {inner cs : List Chunk} {p q r : Nat}
    {inside rest : List Entry} (hm : log.IsPlain kind m) (hstart : p ≤ log.start m)
    (hbefore : g.countBefore (log.start m) = g.countBefore p)
    (hinner : Chunked log g kind inner (log.start m) inside q)
    (hlength : inner.length = g.limits.fanOut) (hall : ∀ x ∈ inner, x.generation = generation)
    (hstop : q ≤ log.stop m) (hbehind : g.countBefore (log.stop m) = g.countBefore q)
    (hrest : Chunked log g kind cs (log.stop m) rest r) :
    Chunked log g kind (⟨m, generation + 1⟩ :: cs) p (bracketed m inside ++ rest) r

namespace Chunked

variable {log log' : MarkerLog} {g : Setup} {kind : Kind} {cs ds : List Chunk} {p q r : Nat}
  {es fs : List Entry} {x : Chunk}

theorem le (h : log.Chunked g kind cs p es r) : p ≤ r := by
  induction h with
  | nil => exact Nat.le_refl _
  | items hm hstart _ _ _ ih => exact Nat.le_trans hstart (Nat.le_trans hm.le ih)
  | chunks hm hstart _ _ _ _ _ _ _ _ ih => exact Nat.le_trans hstart (Nat.le_trans hm.le ih)

theorem append (h : log.Chunked g kind cs p es q) (h' : log.Chunked g kind ds q fs r) :
    log.Chunked g kind (cs ++ ds) p (es ++ fs) r := by
  induction h with
  | nil => exact h'
  | items hm hstart hbefore hitems _ ih =>
    rw [List.cons_append, List.append_assoc]
    exact .items hm hstart hbefore hitems (ih h')
  | chunks hm hstart hbefore hinner hlength hall hstop hbehind _ _ ih =>
    rw [List.cons_append, List.append_assoc]
    exact .chunks hm hstart hbefore hinner hlength hall hstop hbehind (ih h')

theorem split (h : log.Chunked g kind (cs ++ ds) p es r) :
    ∃ q fs fs', es = fs ++ fs' ∧ log.Chunked g kind cs p fs q ∧ log.Chunked g kind ds q fs' r := by
  induction cs generalizing p es with
  | nil => exact ⟨p, [], es, rfl, .nil p, h⟩
  | cons c cs ih =>
    cases h with
    | items hm hstart hbefore hitems hrest =>
      obtain ⟨q, fs, fs', rfl, hcs, hds⟩ := ih hrest
      exact ⟨q, _, fs', (List.append_assoc ..).symm, .items hm hstart hbefore hitems hcs, hds⟩
    | chunks hm hstart hbefore hinner hlength hall hstop hbehind hrest =>
      obtain ⟨q, fs, fs', rfl, hcs, hds⟩ := ih hrest
      exact ⟨q, _, fs', (List.append_assoc ..).symm,
        .chunks hm hstart hbefore hinner hlength hall hstop hbehind hcs, hds⟩

/-- The brackets of chunks begin with the start of the first one, and the first one may begin where it
starts. -/
theorem first (h : log.Chunked g kind (x :: cs) p es r) :
    (∃ rest, es = .start x.marker :: rest) ∧ log.isCommitted x.marker = true ∧
      p ≤ log.start x.marker ∧ g.countBefore (log.start x.marker) = g.countBefore p ∧
      log.Chunked g kind (x :: cs) (log.start x.marker) es r := by
  cases h with
  | items hm hstart hbefore hitems hrest =>
    exact ⟨⟨_, rfl⟩, hm.committed, hstart, hbefore, .items hm (Nat.le_refl _) rfl hitems hrest⟩
  | chunks hm hstart hbefore hinner hlength hall hstop hbehind hrest =>
    exact ⟨⟨_, rfl⟩, hm.committed, hstart, hbefore,
      .chunks hm (Nat.le_refl _) rfl hinner hlength hall hstop hbehind hrest⟩

/-- What is done to other markers does not matter. -/
theorem congr (h : log.Chunked g kind cs p es r)
    (hsame : ∀ m, log.isCommitted m = true → log'.info? m = log.info? m) :
    log'.Chunked g kind cs p es r := by
  have hplain {m : Marker} (hm : log.IsPlain kind m) : log'.IsPlain kind m ∧
      log'.start m = log.start m ∧ log'.stop m = log.stop m := by
    have hinfo := hsame m hm.committed
    have hstart : log'.start m = log.start m := by rw [start, start, hinfo]
    have hstop : log'.stop m = log.stop m := by rw [stop, stop, hinfo]
    refine ⟨⟨(isCommitted_congr hinfo).trans hm.committed, ?_, ?_, ?_⟩, hstart, hstop⟩
    · rw [kind?, hinfo]
      exact hm.kind
    · rw [error?, hinfo]
      exact hm.error
    · rw [hstart, hstop]
      exact hm.le
  induction h with
  | nil p => exact .nil p
  | items hm hstart hbefore hitems _ ih =>
    obtain ⟨hm', hs, ht⟩ := hplain hm
    rw [← hs] at hstart hbefore hitems
    rw [← ht] at hitems ih
    exact .items hm' hstart hbefore hitems ih
  | chunks hm hstart hbefore _ hlength hall hstop hbehind _ ihi ih =>
    obtain ⟨hm', hs, ht⟩ := hplain hm
    rw [← hs] at hstart hbefore ihi
    rw [← ht] at hstop hbehind ih
    exact .chunks hm' hstart hbefore ihi hlength hall hstop hbehind ih

/-! ## Making chunks -/

theorem isPlain_of_info? {m : Marker} {start stop : Nat} (hle : start ≤ stop)
    (hi : log.info? m = some { start, stop, kind := some kind, stage := .committed }) :
    log.IsPlain kind m ∧ log.start m = start ∧ log.stop m = stop := by
  have hstart : log.start m = start := by rw [MarkerLog.start, hi]; rfl
  have hstop : log.stop m = stop := by rw [MarkerLog.stop, hi]; rfl
  refine ⟨⟨isCommitted_iff.2 ⟨_, hi, rfl⟩, ?_, ?_, by rw [hstart, hstop]; exact hle⟩, hstart, hstop⟩
  · rw [kind?, hi]
    rfl
  · rw [error?, hi]
    rfl

/-- Items are committed as a chunk of the first generation, which comes last. -/
theorem close {log₁ : MarkerLog} {n : Nat} (h : log.Chunked g kind cs p es r) (hsound : log.Sound)
    (hidle : (log.openAt n).2.Idle log₁) (hn : r ≤ n) (hbefore : g.countBefore n = g.countBefore r)
    (hq : n ≤ q) (hitems : g.countBefore q = g.countBefore n + g.limits.fanOut) :
    (log₁.commit log.fresh kind none q).Chunked g kind (cs ++ [⟨log.fresh, 1⟩]) p
      (es ++ bracketed log.fresh []) q := by
  obtain ⟨hplain, hstart, hstop⟩ := isPlain_of_info? hq (info?_commit_fresh hidle hq kind none)
  have hlast : (log₁.commit log.fresh kind none q).Chunked g kind [⟨log.fresh, 1⟩] r
      (bracketed log.fresh [] ++ []) q :=
    .items hplain (by rwa [hstart]) (by rwa [hstart]) (by rwa [hstart, hstop])
      (by rw [hstop]; exact .nil q)
  rw [List.append_nil] at hlast
  exact (h.congr fun m hm => info?_commit_of_idle hsound hidle hm kind none).append hlast

/-- The latest chunks of one generation are put into one of the next generation, which comes last. -/
theorem fold {generation : Nat} (h : log.Chunked g kind (cs ++ x :: ds) p es r) (hr : r ≤ q)
    (hlength : (x :: ds).length = g.limits.fanOut)
    (hall : ∀ y ∈ x :: ds, y.generation = generation) (hcount : g.countBefore q = g.countBefore r) :
    ∃ fs fs', es = fs ++ .start x.marker :: fs' ∧
      (log.enclose x.marker kind none q).Chunked g kind (cs ++ [⟨log.fresh, generation + 1⟩]) p
        (fs ++ bracketed log.fresh (.start x.marker :: fs')) q := by
  obtain ⟨q₀, fs, fs₀, rfl, hcs, hds⟩ := h.split
  obtain ⟨⟨fs', rfl⟩, -, hle, hbefore, hinner⟩ := hds.first
  have hle' := hinner.le
  obtain ⟨hplain, hstart, hstop⟩ := isPlain_of_info? (Nat.le_trans hle' hr)
    (info?_enclose_fresh (Nat.le_trans hle' hr) kind none)
  have hkeep (m : Marker) (hm : log.isCommitted m = true) :=
    info?_enclose_of_committed (x := x.marker) hm kind none q
  have hlast : (log.enclose x.marker kind none q).Chunked g kind [⟨log.fresh, generation + 1⟩] q₀
      (bracketed log.fresh (.start x.marker :: fs') ++ []) q :=
    .chunks hplain (by rwa [hstart]) (by rwa [hstart]) (hstart.symm ▸ hinner.congr hkeep) hlength hall
      (by rwa [hstop]) (by rwa [hstop]) (by rw [hstop]; exact .nil q)
  rw [List.append_nil] at hlast
  exact ⟨fs, fs', rfl, (hcs.congr hkeep).append hlast⟩

end Chunked

/-- Behind the nodes of an older log there are chunks, the latest first, up to a position. -/
structure Row (old : MarkerLog) (g : Setup) (kind : Kind) (p : Nat) (cs : List Chunk) (r : Nat)
    (log : MarkerLog) : Prop where
  sound : log.Sound
  keep : ∀ m, old.isCommitted m = true → log.info? m = old.info? m
  chunked : ∃ es, log.brackets = old.brackets ++ es ∧ log.Chunked g kind cs.reverse p es r

namespace Row

variable {old log log₁ : MarkerLog} {g : Setup} {kind : Kind} {cs xs : List Chunk} {x : Chunk}
  {n p q r : Nat}

theorem refl (h : old.Sound) (g : Setup) (kind : Kind) (p : Nat) : old.Row g kind p [] p old where
  sound := h
  keep _ _ := rfl
  chunked := ⟨[], (List.append_nil _).symm, .nil p⟩

theorem isCommitted (h : old.Row g kind p cs r log) {m : Marker} (hm : old.isCommitted m = true) :
    log.isCommitted m = true := (isCommitted_congr (h.keep m hm)).trans hm

theorem idle (h : old.Row g kind p cs r log) (hidle : log.Idle log₁) :
    old.Row g kind p cs r log₁ where
  sound := hidle.sound
  keep m hm := (hidle.info? h.sound (h.isCommitted hm)).trans (h.keep m hm)
  chunked := by
    obtain ⟨es, hes, hchunked⟩ := h.chunked
    exact ⟨es, hidle.brackets.trans hes, hchunked.congr fun m hm => hidle.info? h.sound hm⟩

/-- Items are committed as a chunk. -/
theorem close (h : old.Row g kind p cs r log) (hidle : (log.openAt n).2.Idle log₁) (hn : r ≤ n)
    (hbefore : g.countBefore n = g.countBefore r) (hq : n ≤ q)
    (hitems : g.countBefore q = g.countBefore n + g.limits.fanOut) :
    old.Row g kind p (⟨log.fresh, 1⟩ :: cs) q (log₁.commit log.fresh kind none q) where
  sound := hidle.sound.commit ..
  keep m hm := (info?_commit_of_idle h.sound hidle (h.isCommitted hm) kind none).trans (h.keep m hm)
  chunked := by
    obtain ⟨es, hes, hchunked⟩ := h.chunked
    refine ⟨es ++ bracketed log.fresh [], ?_, ?_⟩
    · rw [brackets_commit h.sound hidle, hes, List.append_assoc]
    · rw [List.reverse_cons]
      exact hchunked.close h.sound hidle hn hbefore hq hitems

/-- The latest chunks are put into one. -/
theorem fold {generation : Nat} (h : old.Row g kind p (xs ++ x :: cs) r log) (hr : r ≤ q)
    (hlength : (xs ++ [x]).length = g.limits.fanOut)
    (hall : ∀ y ∈ xs ++ [x], y.generation = generation)
    (hcount : g.countBefore q = g.countBefore r) :
    old.Row g kind p (⟨log.fresh, generation + 1⟩ :: cs) q (log.enclose x.marker kind none q) where
  sound := (h.sound.wrap _).commit ..
  keep m hm := (info?_enclose_of_committed (h.isCommitted hm) ..).trans (h.keep m hm)
  chunked := by
    obtain ⟨es, hes, hchunked⟩ := h.chunked
    rw [List.reverse_append, List.reverse_cons, List.append_assoc] at hchunked
    obtain ⟨fs, fs', rfl, hfold⟩ := hchunked.fold hr (by simpa [Nat.add_comm] using hlength)
      (fun y hy => hall y (by simpa [or_comm] using hy)) hcount
    refine ⟨_, ?_, List.reverse_cons ▸ hfold⟩
    rw [brackets_enclose h.sound (by rw [hes, List.append_assoc]), List.append_assoc]

end Row

end MarkerLog

/-! ## Reading chunks -/

/-- The trees, from one token up to another, are chunks with nothing but trivia between them. -/
structure Tree.Chunks (g : Setup) (kind : Kind) (cs : List Chunk) (n n' : Nat) (ts : List Tree) :
    Prop where
  le : n ≤ n'
  leaves : leavesAll ts = g.source.between n n'
  chunks : List.Forall₂ (fun x t => t.IsChunk g.language kind g.limits.fanOut x.generation) cs
    (significant g.language ts)

namespace Tree.Chunks

variable {g : Setup} {kind : Kind} {cs ds : List Chunk} {n n₁ n₂ : Nat} {ts us : List Tree}

theorem trivia (hle : n ≤ n₁)
    (h : (g.source.between n n₁).filter g.language.isSignificant = []) :
    Chunks g kind [] n n₁ ((g.source.between n n₁).map leaf) where
  le := hle
  leaves := leavesAll_map_leaf _
  chunks := by
    rw [significant_map_leaf, h]
    exact .nil

theorem append (h : Chunks g kind cs n n₁ ts) (h' : Chunks g kind ds n₁ n₂ us) :
    Chunks g kind (cs ++ ds) n n₂ (ts ++ us) where
  le := Nat.le_trans h.le h'.le
  leaves := by rw [leavesAll_append, h.leaves, h'.leaves, Source.between_append h.le h'.le]
  chunks := by
    rw [significant_append]
    exact List.rel_append h.chunks h'.chunks

theorem length (h : Chunks g kind cs n n₁ ts) :
    (significant g.language ts).length = cs.length := h.chunks.length_eq.symm

end Tree.Chunks

namespace MarkerLog

variable {log : MarkerLog} {g : Setup} {kind : Kind} {cs : List Chunk} {p r : Nat}
  {es : List Entry} {merged : Option Marker}

end MarkerLog

end Descent
