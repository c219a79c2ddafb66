import Descent.Proofs.MarkerLog.Move
import Descent.Proofs.Source.Outline
import Descent.Proofs.Tree.Errors
import Mathlib.Data.List.Forall2

/-!
# The shape of a tree

The shape of a tree is what is left of it without trivia and spans (`Tree.shapes`). The tree of a log
over a source and the tree of the moved log over a stretched source have the same shape
(`MarkerLog.shapes_toTree`): token by token and node by node, the assemblies of the two trees go
through the same states.
-/

namespace Descent

/-- A tree without trivia and spans. Of a token there is its kind and its text. -/
inductive Shape where
  | token (kind : Kind) (text : String)
  | node (kind : Kind) (error : Option SyntaxError) (children : List Shape)

namespace Tree

variable (language : Language) (source : Source)

mutual

/-- The shape of a tree; a tree that is a token of trivia has none. -/
def shapes : Tree → List Shape
  | leaf t => (source.glimpse language t).toList.map fun x => .token x.1 x.2
  | node kind _ error ts => [.node kind error (shapesAll ts)]

def shapesAll : List Tree → List Shape
  | [] => []
  | t :: ts => t.shapes ++ shapesAll ts

end

@[simp] theorem shapesAll_append (ts us : List Tree) :
    shapesAll language source (ts ++ us) =
      shapesAll language source ts ++ shapesAll language source us := by
  induction ts with
  | nil => rfl
  | cons t ts ih => simp [shapesAll, ih]

theorem shapesAll_singleton (t : Tree) :
    shapesAll language source [t] = t.shapes language source := by
  simp [shapesAll]

theorem shapesAll_map_leaf (l : List Token) :
    shapesAll language source (l.map leaf) =
      (l.filterMap (source.glimpse language)).map fun x => .token x.1 x.2 := by
  induction l with
  | nil => rfl
  | cons t l ih =>
    rw [List.map_cons, shapesAll, ih, shapes, List.filterMap_cons]
    cases source.glimpse language t <;> rfl

end Tree

/-! ## Trimming -/

section
variable {isTrivia : Nat → Bool}

theorem trimFront_skip {start : Nat} (n length : Nat)
    (h : ∀ i, start ≤ i → i < start + n → isTrivia i = true) :
    trimFront isTrivia start (n + length) = trimFront isTrivia (start + n) length := by
  induction n generalizing start with
  | zero => rw [Nat.zero_add, Nat.add_zero]
  | succ n ih =>
    have hlength : n + 1 + length = n + length + 1 := by omega
    have hstart : start + (n + 1) = start + 1 + n := by omega
    rw [hlength, trimFront, if_pos (h start (Nat.le_refl _) (by omega)), hstart]
    exact ih fun i hge hlt => h i (by omega) (by omega)

theorem trimBack_skip {start : Nat} (length n : Nat)
    (h : ∀ i, start + length ≤ i → i < start + length + n → isTrivia i = true) :
    trimBack isTrivia start (length + n) = trimBack isTrivia start length := by
  induction n with
  | zero => rfl
  | succ n ih =>
    rw [← Nat.add_assoc, trimBack, if_pos (h (start + (length + n)) (by omega) (by omega))]
    exact ih fun i hge hlt => h i hge (by omega)

end

namespace Stretches

variable {g : Setup} {b : Source} {f : Nat → Nat}
  (h : Stretches f (g.source.glimpses g.language) (b.glimpses g.language)) {p q : Nat}
include h

theorem trimFront (hle : p ≤ q) :
    Descent.trimFront (g.on b).isTriviaAt (f p) (f q - f p) =
      f (Descent.trimFront g.isTriviaAt p (q - p)) := by
  induction hle using Nat.decreasingInduction with
  | self => simp [Descent.trimFront]
  | of_succ p hlt ih =>
    have hmono : f (p + 1) ≤ f q := h.strictMono.monotone hlt
    have hlength : q - p = q - (p + 1) + 1 := by omega
    rw [hlength, Descent.trimFront]
    by_cases hp : g.isTriviaAt p = true
    -- a run of trivia is skipped at once, as is the piece that it stretches
    · obtain ⟨hstep, hgap⟩ := h.gap ((g.isTriviaAt_iff p).1 hp)
      have hlength' : f q - f p = (f (p + 1) - f p) + (f q - f (p + 1)) := by omega
      have hstart : f p + (f (p + 1) - f p) = f (p + 1) := by omega
      rw [if_pos hp, ← ih, hlength', trimFront_skip _ _ fun i hge hlt => ?_, hstart]
      exact ((g.on b).isTriviaAt_iff i).2 (hgap i hge (hstart ▸ hlt))
    · have hp' := Bool.eq_false_iff.2 hp
      have hstep := h.succ hp'
      have hlength' : f q - f p = f q - f p - 1 + 1 := by omega
      rw [if_neg hp, hlength', Descent.trimFront, h.isTriviaAt, if_neg hp]

theorem trimBack (hle : p ≤ q) :
    Descent.trimBack (g.on b).isTriviaAt (f p) (f q - f p) =
      f (Descent.trimBack g.isTriviaAt p (q - p)) := by
  induction hle with
  | refl => simp [Descent.trimBack]
  | @step q hle ih =>
    have hpq : p ≤ q := hle
    have hmono : f p ≤ f q := h.strictMono.monotone hpq
    have hlength : q + 1 - p = q - p + 1 := by omega
    have hend : p + (q - p) = q := by omega
    have hend' : f p + (f q - f p) = f q := by omega
    rw [hlength, Descent.trimBack, hend]
    by_cases hq : g.isTriviaAt q = true
    · obtain ⟨hstep, hgap⟩ := h.gap ((g.isTriviaAt_iff q).1 hq)
      have hlength' : f (q + 1) - f p = (f q - f p) + (f (q + 1) - f q) := by omega
      have hstop : f q + (f (q + 1) - f q) = f (q + 1) := by omega
      rw [if_pos hq, ← ih, hlength', trimBack_skip _ _ fun i hge hlt => ?_]
      rw [hend'] at hge hlt
      exact ((g.on b).isTriviaAt_iff i).2 (hgap i hge (hstop ▸ hlt))
    · have hstep := h.succ (Bool.eq_false_iff.2 hq)
      have hlength' : f (q + 1) - f p = f q - f p + 1 := by omega
      have hstop : p + (q - p + 1) = q + 1 := by omega
      rw [if_neg hq, hlength', Descent.trimBack, hend', h.isTriviaAt, if_neg hq, hstop]
      omega

theorem trimmed (info : MarkerInfo) :
    (info.move f).trimmed (g.on b).isTriviaAt =
      (f (info.trimmed g.isTriviaAt).1, f (info.trimmed g.isTriviaAt).2) := by
  -- a marker that stops before it starts is trimmed as if it stopped where it starts
  have hlength (p q : Nat) : q - p = max p q - p := by omega
  have hfront : Descent.trimFront (g.on b).isTriviaAt (f info.start)
      (f info.stop - f info.start) =
      f (Descent.trimFront g.isTriviaAt info.start (info.stop - info.start)) := by
    rw [hlength (f info.start), ← h.strictMono.monotone.map_max, hlength info.start]
    exact h.trimFront (Nat.le_max_left ..)
  have hle : Descent.trimFront g.isTriviaAt info.start (info.stop - info.start) ≤
      max info.start info.stop := by
    have hfront : Descent.trimFront g.isTriviaAt info.start (info.stop - info.start) ≤ _ :=
      trimFront_le ..
    omega
  simp only [MarkerInfo.trimmed, MarkerInfo.move, hfront, ← h.strictMono.monotone.map_max,
    h.trimBack hle]

/-- The whole of a source is stretched to the whole of the other. -/
theorem size : b.size = f g.source.size := by
  have hlength := h.length_eq
  simpa [Source.glimpses, Source.size] using hlength

theorem words_between (p q : Nat) :
    (b.between (f p) (f q)).filterMap (b.glimpse g.language) =
      (g.source.between p q).filterMap (g.source.glimpse g.language) := by
  have hwords (source : Source) (n n' : Nat) :
      (source.between n n').filterMap (source.glimpse g.language) =
        (((source.glimpses g.language).drop n).take (n' - n)).reduceOption := by
    rw [Source.between, Source.glimpses, ← List.map_drop, ← List.map_take, List.reduceOption,
      List.filterMap_map]
    rfl
  rw [hwords, hwords]
  rcases Nat.le_total p q with hle | hle
  · exact h.reduceOption_between hle
  · rw [Nat.sub_eq_zero_of_le hle, Nat.sub_eq_zero_of_le (h.strictMono.monotone hle)]
    rfl

end Stretches

/-! ## Assemblies -/

/-- Two open nodes are the same but for trivia and spans. -/
structure Pending.Mirrors (language : Language) (source b : Source) (p p' : Pending) : Prop where
  marker : p'.marker = p.marker
  kind : p'.kind = p.kind
  error : p'.error = p.error
  children : Tree.shapesAll language b p'.children.reverse =
    Tree.shapesAll language source p.children.reverse

namespace Assembly

/-- Two trees under construction have come equally far and are the same but for trivia and spans. -/
structure Mirrors (language : Language) (source b : Source) (f : Nat → Nat) (a a' : Assembly) :
    Prop where
  next : a'.next = f a.next
  base : Tree.shapesAll language b a'.base.reverse =
    Tree.shapesAll language source a.base.reverse
  pending : List.Forall₂ (Pending.Mirrors language source b) a.pending a'.pending

namespace Mirrors

variable {g : Setup} {b : Source} {f : Nat → Nat} {a a' : Assembly}

theorem attach (h : a.Mirrors g.language g.source b f a') {ts ts' : List Tree}
    (hts : Tree.shapesAll g.language b ts'.reverse =
      Tree.shapesAll g.language g.source ts.reverse) :
    (a.attach ts).Mirrors g.language g.source b f (a'.attach ts') := by
  obtain ⟨ps, base, next⟩ := a
  obtain ⟨ps', base', next'⟩ := a'
  obtain ⟨hnext, hbase, hpending⟩ := h
  cases hpending with
  | nil =>
    refine ⟨hnext, ?_, .nil⟩
    show Tree.shapesAll g.language b (ts' ++ base').reverse =
      Tree.shapesAll g.language g.source (ts ++ base).reverse
    rw [List.reverse_append, List.reverse_append, Tree.shapesAll_append, Tree.shapesAll_append, hts]
    exact congrArg (· ++ _) hbase
  | cons hp hps =>
    refine ⟨hnext, hbase, .cons ⟨hp.marker, hp.kind, hp.error, ?_⟩ hps⟩
    simp only [List.reverse_append, Tree.shapesAll_append, hts, hp.children]

theorem closeOne (h : a.Mirrors g.language g.source b f a') :
    a.closeOne.Mirrors g.language g.source b f a'.closeOne := by
  obtain ⟨ps, base, next⟩ := a
  obtain ⟨ps', base', next'⟩ := a'
  obtain ⟨hnext, hbase, hpending⟩ := h
  cases hpending with
  | nil => exact ⟨hnext, hbase, .nil⟩
  | @cons p p' ps ps' hp hps =>
    have hrest : Assembly.Mirrors g.language g.source b f ⟨ps, base, next⟩ ⟨ps', base', next'⟩ :=
      ⟨hnext, hbase, hps⟩
    refine hrest.attach ?_
    simp only [List.reverse_singleton, Tree.shapesAll_singleton, Pending.toTree, Tree.shapes,
      hp.kind, hp.error, hp.children]

theorem close (h : a.Mirrors g.language g.source b f a') (n : Nat) :
    (a.close n).Mirrors g.language g.source b f (a'.close n) := by
  induction n generalizing a a' with
  | zero => exact h
  | succ n ih => exact ih h.closeOne

theorem closeAll (h : a.Mirrors g.language g.source b f a') :
    (a.close a.pending.length).Mirrors g.language g.source b f
      (a'.close a'.pending.length) := by
  rw [← h.pending.length_eq]
  exact h.close _

theorem openTo (h : a.Mirrors g.language g.source b f a') (m : Marker) :
    a'.openTo m = a.openTo m := by
  have hfind {ps ps' : List Pending}
      (hps : List.Forall₂ (Pending.Mirrors g.language g.source b) ps ps') :
      ps'.findIdx? (·.marker = m) = ps.findIdx? (·.marker = m) := by
    induction hps with
    | nil => rfl
    | cons hp _ ih => rw [List.findIdx?_cons, List.findIdx?_cons, hp.marker, ih]
  unfold Assembly.openTo
  rw [hfind h.pending]

variable (hb : Stretches f (g.source.glimpses g.language) (b.glimpses g.language))
include hb

theorem emit (h : a.Mirrors g.language g.source b f a') (stop : Nat) :
    (a.emit g.source stop).Mirrors g.language g.source b f (a'.emit b (f stop)) := by
  -- how far the tokens reach, which is a position of the one source and its image in the other
  have hends (source : Source) (n n' : Nat) :
      n + (source.between n n').length = max n (min n' source.size) := by
    rw [Source.between, List.length_take, List.length_drop, Source.size]
    omega
  have hnext : a'.next + (b.between a'.next (f stop)).length =
      f (a.next + (g.source.between a.next stop).length) := by
    rw [hends, hends, h.next, hb.size, hb.strictMono.monotone.map_max,
      hb.strictMono.monotone.map_min]
  have hattach : (a.attach ((g.source.between a.next stop).reverse.map .leaf)).Mirrors g.language
      g.source b f (a'.attach ((b.between a'.next (f stop)).reverse.map .leaf)) := by
    refine h.attach ?_
    rw [← List.map_reverse, ← List.map_reverse, List.reverse_reverse, List.reverse_reverse,
      Tree.shapesAll_map_leaf, Tree.shapesAll_map_leaf, h.next, hb.words_between]
  exact { hattach with next := hnext }

end Mirrors

end Assembly

namespace MarkerLog

theorem rootMarker?_move (f : Nat → Nat) (log : MarkerLog) (root : Kind) :
    (log.move f).rootMarker? root = log.rootMarker? root := by
  simp [rootMarker?]

variable {g : Setup} {b : Source} {f : Nat → Nat} {a a' : Assembly}
  (hb : Stretches f (g.source.glimpses g.language) (b.glimpses g.language))
include hb

theorem mirrors_assemble (log : MarkerLog) (merged : Option Marker)
    (h : a.Mirrors g.language g.source b f a') (e : Entry) :
    (log.assemble g.source g.isTriviaAt merged a e).Mirrors g.language g.source b f
      ((log.move f).assemble b (g.on b).isTriviaAt merged a' e) := by
  cases e with
  | start m =>
    simp only [assemble, info?_move]
    cases log.info? m with
    | none => exact h
    | some info =>
      simp only [Option.map_some]
      have hstage : (info.move f).stage = info.stage := rfl
      rw [hstage, hb.trimmed]
      split
      · have hemit := h.emit hb (info.trimmed g.isTriviaAt).1
        exact { hemit with pending := .cons ⟨rfl, rfl, rfl, rfl⟩ hemit.pending }
      · exact h
  | commit m =>
    simp only [assemble, info?_move]
    cases log.info? m with
    | none => exact h
    | some info =>
      simp only [Option.map_some]
      have hstage : (info.move f).stage = info.stage := rfl
      rw [hstage, hb.trimmed, h.openTo]
      split
      · exact (h.emit hb _).close _
      · exact h
  | drop m prior => exact h

/-- The tree of a log that is moved to a stretched source has the shape that the tree of the log
has. -/
theorem shapes_toTree (log : MarkerLog) (root : Kind) :
    ((log.move f).toTree b g.language root).shapes g.language b =
      (log.toTree g.source g.language root).shapes g.language g.source := by
  have hfold (es : List Entry) (a a' : Assembly) (h : a.Mirrors g.language g.source b f a') :
      (es.foldl (log.assemble g.source g.isTriviaAt (log.rootMarker? root)) a).Mirrors g.language
        g.source b f (es.foldl ((log.move f).assemble b (g.on b).isTriviaAt
          (log.rootMarker? root)) a') := by
    induction es generalizing a a' with
    | nil => exact h
    | cons e es ih => exact ih _ _ (mirrors_assemble hb log _ h e)
  have hread := hfold log.entries.reverse {} {} ⟨hb.zero.symm, rfl, .nil⟩
  have hall := hread.emit hb g.source.size
  rw [← hb.size] at hall
  unfold toTree
  rw [rootMarker?_move]
  exact congrArg (fun ts => [Shape.node root none ts]) hall.closeAll.base

end MarkerLog

end Descent
