import Descent.Proofs.MarkerLog.Nesting
import Descent.Proofs.MarkerLog.Steps
import Descent.Proofs.Tree.Leaves
import Descent.Proofs.Tree.Places

/-!
# Trees of well-nested logs

Below the root the tree of a well-nested log has the nodes that the log records and no others, in
the order of their starts, nested as their entries are, and each with the significant tokens
between the positions of its marker (`MarkerLog.outline_toTree`).

The brackets are read as nested nodes, and an `Outline` says of a part of them which trees it adds.
Only the trivia at the ends of a node make the tokens in the tree so far differ from those before the
position the log has reached, which is what `Aligned` says.
-/

namespace Descent

namespace Source

/-- The tokens from one position up to another. -/
def between (source : Source) (n n' : Nat) : List Token := (source.tokens.drop n).take (n' - n)

variable {source : Source} {n n₁ n₂ : Nat}

theorem length_between (h : n₁ ≤ source.size) : (source.between n n₁).length = n₁ - n := by
  have hsize : n₁ ≤ source.tokens.length := h
  rw [between, List.length_take, List.length_drop]
  omega

theorem between_append (h : n ≤ n₁) (h' : n₁ ≤ n₂) :
    source.between n n₁ ++ source.between n₁ n₂ = source.between n n₂ := by
  have hsum : n₂ - n = (n₁ - n) + (n₂ - n₁) := by omega
  have hstart : n + (n₁ - n) = n₁ := by omega
  rw [between, between, between, hsum, List.take_add, List.drop_drop, hstart]

end Source

/-! ## Positions without trivia -/

section
variable {isTrivia : Nat → Bool}

theorem trimFront_lt_iff (start length i : Nat) (hi : isTrivia i = false) :
    i < trimFront isTrivia start length ↔ i < start := by
  induction length generalizing start with
  | zero => exact Iff.rfl
  | succ length ih =>
    rw [trimFront]
    split
    · next ht =>
      have hne : i ≠ start := by rintro rfl; simp [hi] at ht
      rw [ih]
      omega
    · exact Iff.rfl

theorem trimBack_lt_iff (start length i : Nat) (hi : isTrivia i = false) :
    i < trimBack isTrivia start length ↔ i < start + length := by
  induction length with
  | zero => exact Iff.rfl
  | succ length ih =>
    rw [trimBack]
    split
    · next ht =>
      have hne : i ≠ start + length := by rintro rfl; simp [hi] at ht
      rw [ih]
      omega
    · exact Iff.rfl

theorem le_trimFront (start length : Nat) : start ≤ trimFront isTrivia start length := by
  induction length generalizing start with
  | zero => exact Nat.le_refl _
  | succ length ih =>
    rw [trimFront]
    split
    · exact Nat.le_trans (Nat.le_succ _) (ih _)
    · exact Nat.le_refl _

theorem trimFront_le (start length : Nat) :
    trimFront isTrivia start length ≤ start + length := by
  induction length generalizing start with
  | zero => exact Nat.le_refl _
  | succ length ih =>
    rw [trimFront]
    split
    · have := ih (start + 1)
      omega
    · omega

namespace MarkerInfo

variable {info : MarkerInfo} {i : Nat}

/-- The first significant token a marker covers stays the first. -/
theorem lt_trimmed_fst (hi : isTrivia i = false) :
    i < (info.trimmed isTrivia).1 ↔ i < info.start :=
  trimFront_lt_iff _ _ i hi

theorem lt_trimmed_snd (h : info.start ≤ info.stop) (hi : isTrivia i = false) :
    i < (info.trimmed isTrivia).2 ↔ i < info.stop := by
  have hle : trimFront isTrivia info.start (info.stop - info.start) ≤ _ := trimFront_le ..
  have hmax : max info.start info.stop = info.stop := Nat.max_eq_right h
  simp only [trimmed, hmax]
  rw [trimBack_lt_iff _ _ i hi]
  omega

end MarkerInfo

end

/-- The first `n` tokens and the tokens before position `q` differ in trivia only. -/
structure Aligned (source : Source) (isTrivia : Nat → Bool) (n q : Nat) : Prop where
  le : n ≤ source.size
  iff : ∀ i < source.size, isTrivia i = false → (i < n ↔ i < q)

theorem Aligned.zero (source : Source) (isTrivia : Nat → Bool) : Aligned source isTrivia 0 0 :=
  ⟨Nat.zero_le _, fun _ _ _ => Iff.rfl⟩

/-- Going on to a position that no significant token separates from `q'` aligns with `q'`. -/
theorem Aligned.advance {source : Source} {isTrivia : Nat → Bool} {n q q' t : Nat}
    (h : Aligned source isTrivia n q) (hq : q ≤ q')
    (ht : ∀ i, isTrivia i = false → (i < t ↔ i < q')) :
    Aligned source isTrivia (max n (min t source.size)) q' where
  le := by
    have := h.le
    omega
  iff i hi htriv := by
    have h₁ := h.iff i hi htriv
    have h₂ := ht i htriv
    omega

/-! ## Growing trees -/

namespace Assembly

/-- Adds trees behind those in the innermost open node. -/
def grow (a : Assembly) (ts : List Tree) (n : Nat) : Assembly :=
  { a.attach ts.reverse with next := n }

@[simp] theorem next_grow (a : Assembly) (ts : List Tree) (n : Nat) : (a.grow ts n).next = n := rfl

theorem grow_nil (a : Assembly) : a.grow [] a.next = a := by
  obtain ⟨ps, base, next⟩ := a
  cases ps <;> rfl

theorem grow_grow (a : Assembly) (ts us : List Tree) (n n' : Nat) :
    (a.grow ts n).grow us n' = a.grow (ts ++ us) n' := by
  obtain ⟨ps, base, next⟩ := a
  cases ps <;> simp [grow, attach]

theorem emit_eq_grow (source : Source) (a : Assembly) (stop : Nat) (h : a.next ≤ source.size) :
    a.emit source stop =
      a.grow ((source.between a.next (max a.next (min stop source.size))).map .leaf)
        (max a.next (min stop source.size)) := by
  have hsize : source.tokens.length = source.size := rfl
  have htake : (source.tokens.drop a.next).take (stop - a.next) =
      source.between a.next (max a.next (min stop source.size)) := by
    rw [Source.between]
    refine List.take_eq_take_iff.2 ?_
    rw [List.length_drop, hsize]
    omega
  have hlength : (source.between a.next (max a.next (min stop source.size))).length =
      max a.next (min stop source.size) - a.next := Source.length_between (by omega)
  simp only [emit, htake, hlength, grow, List.map_reverse]
  congr 1
  omega

/-- What grows inside a node becomes its children when the node is closed. -/
theorem closeOne_grow (a : Assembly) (p : Pending) (hp : p.children = []) (ts : List Tree)
    (n : Nat) : ({ a with pending := p :: a.pending }.grow ts n).closeOne =
      a.grow [{ p with children := ts.reverse }.toTree] n := by
  obtain ⟨ps, base, next⟩ := a
  cases ps <;> simp [grow, attach, closeOne, hp]

theorem openTo_grow (a : Assembly) (p : Pending) (ts : List Tree) (n : Nat) :
    ({ a with pending := p :: a.pending }.grow ts n).openTo p.marker = 1 := by
  simp [grow, attach, openTo, List.findIdx?_cons]

end Assembly

/-! ## Outlines -/

/-- A node of a tree is the one that a marker was committed as, with the significant tokens between
the positions of the marker. -/
structure Fits (log : MarkerLog) (source : Source) (isTrivia : Nat → Bool) (m : Marker)
    (p : Place) : Prop where
  kind : log.kind? m = some p.tree.kind
  error : log.error? m = p.tree.error?
  leaves : p.tree.leaves = source.between p.first p.stop
  covers : ∀ i < source.size, isTrivia i = false →
    (p.first ≤ i ∧ i < p.stop ↔ log.start m ≤ i ∧ i < log.stop m)

/-- The trees `ts`, of which the first token has index `n` and the last comes before `n'`, have a
node for each of the brackets `es`, nested in the same way. -/
structure Outline (log : MarkerLog) (source : Source) (isTrivia : Nat → Bool) (es : List Entry)
    (n n' : Nat) (ts : List Tree) : Prop where
  le : n ≤ n'
  size : n' ≤ source.size
  leaves : Tree.leavesAll ts = source.between n n'
  nodes : ∀ path i, ∃ ps : List (Marker × Place),
    ps.map Prod.fst = starts es ∧ ps.map Prod.snd = Tree.placesAll path n i ts ∧
      (∀ x ∈ ps, Fits log source isTrivia x.1 x.2) ∧
      ∀ x ∈ ps, ∀ y ∈ ps, x.2.IsAbove y.2 ↔ Encloses es x.1 y.1

namespace Outline

variable {log : MarkerLog} {source : Source} {isTrivia : Nat → Bool} {es fs : List Entry}
  {n n₁ n₂ : Nat} {ts us : List Tree}

/-- Tokens alone have no nodes. -/
theorem tokens (hle : n ≤ n₁) (hsize : n₁ ≤ source.size) :
    Outline log source isTrivia [] n n₁ ((source.between n n₁).map .leaf) where
  le := hle
  size := hsize
  leaves := Tree.leavesAll_map_leaf _
  nodes path i := ⟨[], rfl, by simp, by simp, by simp⟩

theorem mem_of_fst {ps : List (Marker × Place)} (h : ps.map Prod.fst = starts es)
    {x : Marker × Place} (hx : x ∈ ps) : .start x.1 ∈ es :=
  mem_starts.1 (h ▸ List.mem_map_of_mem hx)

theorem mem_of_snd {ps : List (Marker × Place)} {path : List Nat} {i : Nat}
    (h : ps.map Prod.snd = Tree.placesAll path n i ts) {x : Marker × Place} (hx : x ∈ ps) :
    ∃ j, i ≤ j ∧ j < i + ts.length ∧ path ++ [j] <+: x.2.path :=
  Tree.prefix_of_mem_placesAll path n i ts (h ▸ List.mem_map_of_mem hx)

/-- Trees side by side are outlined by brackets side by side. -/
theorem append (h : Outline log source isTrivia es n n₁ ts)
    (h' : Outline log source isTrivia fs n₁ n₂ us) (hes : BalancedBrackets es)
    (hfs : BalancedBrackets fs) (hd : (es ++ fs).Nodup) :
    Outline log source isTrivia (es ++ fs) n n₂ (ts ++ us) where
  le := Nat.le_trans h.le h'.le
  size := h'.size
  leaves := by
    rw [Tree.leavesAll_append, h.leaves, h'.leaves, Source.between_append h.le h'.le]
  nodes path i := by
    obtain ⟨ps, hfst, hsnd, hfits, habove⟩ := h.nodes path i
    obtain ⟨qs, hfst', hsnd', hfits', habove'⟩ := h'.nodes path (i + ts.length)
    have hlength : n + (Tree.leavesAll ts).length = n₁ := by
      rw [h.leaves, Source.length_between (Nat.le_trans h'.le h'.size)]
      have := h.le
      omega
    have hapart (x : Marker × Place) (hx : x ∈ ps) (y : Marker × Place) (hy : y ∈ qs) :
        ¬ x.2.IsAbove y.2 ∧ ¬ y.2.IsAbove x.2 := by
      obtain ⟨j, -, hj, hxj⟩ := mem_of_snd hsnd hx
      obtain ⟨k, hk, -, hyk⟩ := mem_of_snd hsnd' hy
      exact ⟨Place.not_isAbove_of_ne hxj hyk (by omega), Place.not_isAbove_of_ne hyk hxj (by omega)⟩
    refine ⟨ps ++ qs, by rw [List.map_append, starts_append, hfst, hfst'], ?_, ?_, ?_⟩
    · rw [List.map_append, Tree.placesAll_append, hlength, hsnd, hsnd']
    · intro x hx
      exact (List.mem_append.1 hx).elim (hfits x) (hfits' x)
    · intro x hx y hy
      rcases List.mem_append.1 hx with hx | hx <;> rcases List.mem_append.1 hy with hy | hy
      · rw [habove x hx y hy, encloses_append_left hd hes (mem_of_fst hfst hx) (mem_of_fst hfst hy)]
      · exact iff_of_false (hapart x hx y hy).1
          (not_encloses_of_mem hd hes hfs (mem_of_fst hfst hx) (mem_of_fst hfst' hy)).1
      · exact iff_of_false (hapart y hy x hx).2
          (not_encloses_of_mem hd hes hfs (mem_of_fst hfst hy) (mem_of_fst hfst' hx)).2
      · rw [habove' x hx y hy,
          encloses_append_right hd hfs (mem_of_fst hfst' hx) (mem_of_fst hfst' hy)]

/-- A node around trees is outlined by its brackets around theirs. -/
theorem node {m : Marker} {kind : Kind} {span : Span} {error : Option SyntaxError}
    (h : Outline log source isTrivia es n n₁ ts) (hes : BalancedBrackets es)
    (hd : (bracketed m es).Nodup) (hkind : log.kind? m = some kind)
    (herror : log.error? m = error) (hn : Aligned source isTrivia n (log.start m))
    (hn₁ : Aligned source isTrivia n₁ (log.stop m)) :
    Outline log source isTrivia (bracketed m es) n n₁ [.node kind span error ts] where
  le := h.le
  size := h.size
  leaves := by
    simp only [Tree.leavesAll, Tree.leaves, List.append_nil, h.leaves]
  nodes path i := by
    obtain ⟨ps, hfst, hsnd, hfits, habove⟩ := h.nodes (path ++ [i]) 0
    have hstop : n + (Tree.leavesAll ts).length = n₁ := by
      rw [h.leaves, Source.length_between h.size]
      have := h.le
      omega
    have hfit : Fits log source isTrivia m ⟨path ++ [i], n, .node kind span error ts⟩ := by
      refine ⟨hkind, herror, ?_, fun j hj htriv => ?_⟩
      · rw [Place.stop, Tree.leaves, hstop, h.leaves]
      · have h₁ := hn.iff j hj htriv
        have h₂ := hn₁.iff j hj htriv
        rw [Place.stop, Tree.leaves, hstop]
        show n ≤ j ∧ j < n₁ ↔ _
        omega
    refine ⟨(m, ⟨path ++ [i], n, .node kind span error ts⟩) :: ps, ?_, ?_, ?_, ?_⟩
    · rw [List.map_cons, hfst, bracketed, starts_cons_start, starts_append]
      simp [starts]
    · simp only [List.map_cons, Tree.placesAll, Tree.places, hsnd, List.append_nil]
    · exact List.forall_mem_cons.2 ⟨hfit, hfits⟩
    · have houter (y : Marker × Place) (hy : y ∈ ps) :
          Place.IsAbove ⟨path ++ [i], n, .node kind span error ts⟩ y.2 := by
        obtain ⟨j, -, -, hj⟩ := mem_of_snd hsnd hy
        exact Place.isAbove_of_prefix rfl hj
      have hinner (x : Marker × Place) (hx : x ∈ ps) :
          ¬ x.2.IsAbove ⟨path ++ [i], n, .node kind span error ts⟩ := by
        obtain ⟨j, -, -, hj⟩ := mem_of_snd hsnd hx
        exact Place.not_isAbove_of_prefix hj rfl
      intro x hx y hy
      rcases List.mem_cons.1 hx with rfl | hx <;> rcases List.mem_cons.1 hy with rfl | hy
      · exact iff_of_false (fun h => h.2 rfl) (not_encloses_outer hd)
      · exact iff_of_true (houter y hy) (encloses_outer hes (mem_of_fst hfst hy))
      · exact iff_of_false (hinner x hx) (not_encloses_outer hd)
      · rw [habove x hx y hy, encloses_bracketed hd hes (mem_of_fst hfst hx) (mem_of_fst hfst hy)]

end Outline

/-! ## Drawings -/

/-- The trees `ts`, of the tokens from `n` up to `n'`, are drawn from the brackets `es`: each node is that of a
marker, and but for trivia it has the tokens between the positions of the marker. -/
inductive Drawing (log : MarkerLog) (source : Source) (isTrivia : Nat → Bool) :
    Nat → List Entry → Nat → List Tree → Prop where
  | tokens {n n' : Nat} (hle : n ≤ n') :
    Drawing log source isTrivia n [] n' ((source.between n n').map .leaf)
  | node {m : Marker} {inside rest : List Entry} {n n₀ n₁ n' : Nat} {ts us : List Tree} {kind : Kind}
    {error : Option SyntaxError} (span : Span) (hle : n ≤ n₀) (hkind : log.kind? m = some kind)
    (herror : log.error? m = error) (hstart : Aligned source isTrivia n₀ (log.start m))
    (hinside : Drawing log source isTrivia n₀ inside n₁ ts)
    (hstop : Aligned source isTrivia n₁ (log.stop m))
    (hrest : Drawing log source isTrivia n₁ rest n' us) :
    Drawing log source isTrivia n (.start m :: (inside ++ .commit m :: rest)) n'
      ((source.between n n₀).map .leaf ++ .node kind span error ts :: us)

namespace Drawing

variable {log : MarkerLog} {source : Source} {isTrivia : Nat → Bool} {es fs : List Entry}
  {n n₀ n₁ n' : Nat} {ts us : List Tree}

theorem balanced (h : Drawing log source isTrivia n es n' ts) : BalancedBrackets es := by
  induction h with
  | tokens => exact .nil
  | node _ _ _ _ _ _ _ _ hi hr => exact .node _ hi hr

/-- Tokens in front belong to a drawing. -/
theorem widen (h : Drawing log source isTrivia n₀ es n' ts) (hle : n ≤ n₀) :
    Drawing log source isTrivia n es n' ((source.between n n₀).map .leaf ++ ts) := by
  cases h with
  | tokens hle' =>
    rw [← List.map_append, Source.between_append hle hle']
    exact .tokens (Nat.le_trans hle hle')
  | node span hle' hkind herror hstart hinside hstop hrest =>
    rw [← List.append_assoc, ← List.map_append, Source.between_append hle hle']
    exact .node span (Nat.le_trans hle hle') hkind herror hstart hinside hstop hrest

/-- Drawings side by side are a drawing of the brackets side by side. -/
theorem append (h : Drawing log source isTrivia n es n₁ ts) (h' : Drawing log source isTrivia n₁ fs n' us) :
    Drawing log source isTrivia n (es ++ fs) n' (ts ++ us) := by
  induction h with
  | tokens hle => exact h'.widen hle
  | node span hle hkind herror hstart hinside hstop _ _ ih =>
    rw [List.cons_append, List.append_assoc, List.cons_append, List.append_assoc, List.cons_append]
    exact .node span hle hkind herror hstart hinside hstop (ih h')

/-- The trees of a drawing are outlined by its brackets. -/
theorem outline (h : Drawing log source isTrivia n es n' ts) (hsize : n' ≤ source.size)
    (hd : es.Nodup) : Outline log source isTrivia es n n' ts := by
  induction h with
  | tokens hle => exact .tokens hle hsize
  | @node m inside rest n n₀ n₁ n' ts us kind error span hle hkind herror hstart hinside hstop hrest
      ihi ihr =>
    rw [node_eq] at hd ⊢
    have hdm : (bracketed m inside).Nodup := (List.nodup_append.1 hd).1
    have hdi : inside.Nodup := (List.nodup_append.1 (List.nodup_cons.1 hdm).2).1
    have hdr : rest.Nodup := (List.nodup_append.1 hd).2.1
    have hm := hinside.balanced.bracketed m
    have hone : Outline log source isTrivia (bracketed m inside) n₀ n₁ [.node kind span error ts] :=
      (ihi hstop.le hdi).node hinside.balanced hdm hkind herror hstart hstop
    have hall := hone.append (ihr hsize hdr) hm hrest.balanced hd
    exact (Outline.tokens hle hstart.le).append hall .nil (hm.append hrest.balanced)
      ((List.nil_append _).symm ▸ hd)

end Drawing

namespace MarkerLog

variable {log : MarkerLog} {source : Source} {isTrivia : Nat → Bool} {merged : Option Marker}

theorem exists_info (hsound : log.Sound) {m : Marker} (hm : log.isCommitted m = true) :
    ∃ info kind, log.info? m = some info ∧ info.stage = .committed ∧ info.start ≤ info.stop ∧
      info.kind = some kind := by
  obtain ⟨info, hi, hs⟩ := isCommitted_iff.1 hm
  obtain ⟨-, hle, hkind⟩ := (hsound.life hi).of_committed hs
  obtain ⟨kind, hk⟩ := Option.isSome_iff_exists.1 hkind
  exact ⟨info, kind, hi, hs, hle, hk⟩

/-- The node that a start opens. -/
def pendingNode (source : Source) (m : Marker) (info : MarkerInfo) (n : Nat) : Pending where
  marker := m
  kind := info.kind.getD .error
  error := info.error
  offset := source.start n

section
variable {m : Marker} {info : MarkerInfo} (hi : log.info? m = some info)
  (hs : info.stage = .committed) (hm : merged ≠ some m)
include hi hs hm

theorem assemble_start (a : Assembly) :
    let a' := a.emit source (info.trimmed isTrivia).1
    log.assemble source isTrivia merged a (.start m) =
      { a' with pending := pendingNode source m info a'.next :: a'.pending } := by
  simp only [assemble, hi]
  rw [if_pos ⟨hs, hm⟩]
  rfl

/-- A commitment closes the innermost open node if it is the one that the marker opened. -/
theorem assemble_commit (a : Assembly) (n n' : Nat) (ts : List Tree) (hn : n' ≤ source.size) :
    let n₂ := max n' (min (info.trimmed isTrivia).2 source.size)
    log.assemble source isTrivia merged
        ({ a with pending := pendingNode source m info n :: a.pending }.grow ts n') (.commit m) =
      a.grow [{ pendingNode source m info n with
        children := (ts ++ (source.between n' n₂).map Tree.leaf).reverse }.toTree] n₂ := by
  intro n₂
  have hopen : ({ a with pending := pendingNode source m info n :: a.pending }.grow ts n').openTo m
      = 1 := a.openTo_grow (pendingNode source m info n) ts n'
  have hemit := Assembly.emit_eq_grow source
    ({ a with pending := pendingNode source m info n :: a.pending }.grow ts n')
    (info.trimmed isTrivia).2 hn
  simp only [assemble, hi]
  rw [hopen, if_pos ⟨hs, hm, by decide⟩, hemit, Assembly.grow_grow]
  exact a.closeOne_grow _ rfl _ _

end

/-- Reading the brackets of a node adds the tokens before it and the node itself, if what is inside adds
trees. -/
theorem foldl_bracketed (hsound : log.Sound) {m : Marker} {inside : List Entry} {q q₁ : Nat}
    (hm : log.isCommitted m = true) (hmerged : merged ≠ some m) {P : Nat → Nat → List Tree → Prop}
    (hstart : q ≤ log.start m) (hstop : q₁ ≤ log.stop m)
    (hinside : ∀ a, Aligned source isTrivia a.next (log.start m) → ∃ ts n,
      inside.foldl (log.assemble source isTrivia merged) a = a.grow ts n ∧ P a.next n ts ∧
        Aligned source isTrivia n q₁)
    (a : Assembly) (ha : Aligned source isTrivia a.next q) :
    ∃ n₀ n₁ n₂ ts kind span error, a.next ≤ n₀ ∧ n₁ ≤ n₂ ∧
      log.kind? m = some kind ∧ log.error? m = error ∧ P n₀ n₁ ts ∧
      Aligned source isTrivia n₀ (log.start m) ∧ Aligned source isTrivia n₁ q₁ ∧
      Aligned source isTrivia n₂ (log.stop m) ∧
      (bracketed m inside).foldl (log.assemble source isTrivia merged) a =
        a.grow ((source.between a.next n₀).map .leaf ++
          [.node kind span error (ts ++ (source.between n₁ n₂).map .leaf)]) n₂ := by
  obtain ⟨info, kind, hi, hs, hle, hk⟩ := exists_info hsound hm
  have hstartm : log.start m = info.start := by simp [start, hi]
  have hstopm : log.stop m = info.stop := by simp [stop, hi]
  -- up to the start of the node
  let n₀ := max a.next (min (info.trimmed isTrivia).1 source.size)
  let b := a.grow ((source.between a.next n₀).map .leaf) n₀
  have hemit : a.emit source (info.trimmed isTrivia).1 = b := a.emit_eq_grow source _ ha.le
  have hopen : log.assemble source isTrivia merged a (.start m) =
      { b with pending := pendingNode source m info n₀ :: b.pending } := by
    rw [assemble_start hi hs hmerged, hemit]
    rfl
  have hn₀ : Aligned source isTrivia n₀ (log.start m) :=
    ha.advance hstart fun i htriv => hstartm ▸ MarkerInfo.lt_trimmed_fst htriv
  -- what is inside it
  obtain ⟨ts, n₁, hfold, hts, hn₁⟩ :=
    hinside { b with pending := pendingNode source m info n₀ :: b.pending } hn₀
  -- up to its end
  let n₂ := max n₁ (min (info.trimmed isTrivia).2 source.size)
  let node := { pendingNode source m info n₀ with
    children := (ts ++ (source.between n₁ n₂).map Tree.leaf).reverse }.toTree
  have hclose : log.assemble source isTrivia merged
      ({ b with pending := pendingNode source m info n₀ :: b.pending }.grow ts n₁) (.commit m) =
        b.grow [node] n₂ := assemble_commit hi hs hmerged b n₀ n₁ ts hn₁.le
  have hn₂ : Aligned source isTrivia n₂ (log.stop m) :=
    hn₁.advance hstop fun i htriv => hstopm ▸ MarkerInfo.lt_trimmed_snd hle htriv
  have hnode : node = .node kind node.span info.error
      (ts ++ (source.between n₁ n₂).map Tree.leaf) := by
    simp [node, Pending.toTree, pendingNode, Tree.span, hk]
  have hkind : log.kind? m = some kind := by simp [kind?, hi, hs, hk]
  have herror : log.error? m = info.error := by simp [error?, hi]
  refine ⟨n₀, n₁, n₂, ts, kind, node.span, info.error, Nat.le_max_left .., Nat.le_max_left .., hkind,
    herror, hts, hn₀, hn₁, hn₂, ?_⟩
  calc (bracketed m inside).foldl (log.assemble source isTrivia merged) a
    _ = log.assemble source isTrivia merged (inside.foldl (log.assemble source isTrivia merged)
          (log.assemble source isTrivia merged a (.start m))) (.commit m) := by
      simp [bracketed]
    _ = b.grow [node] n₂ := by rw [hopen, hfold, hclose]
    _ = _ := by rw [Assembly.grow_grow, ← hnode]

/-- Reading brackets adds trees that are drawn from them. -/
theorem drawing_foldl (hsound : log.Sound) {es : List Entry} {q q' : Nat} (h : Ascent log q es q')
    (hc : ∀ e ∈ es, log.isCommitted e.marker = true) (hm : ∀ e ∈ es, merged ≠ some e.marker)
    (a : Assembly) (ha : Aligned source isTrivia a.next q) :
    ∃ ts n, es.foldl (log.assemble source isTrivia merged) a = a.grow ts n ∧
      Drawing log source isTrivia a.next es n ts ∧ Aligned source isTrivia n q' := by
  induction h generalizing a with
  | nil q =>
    have htokens : Drawing log source isTrivia a.next [] a.next _ := .tokens (Nat.le_refl a.next)
    exact ⟨[], a.next, a.grow_nil.symm, by simpa [Source.between] using htokens, ha⟩
  | @node m inside rest q q₁ q₂ hstart hinside hstop hrest ihi ihr =>
    rw [node_eq] at hc hm
    simp only [bracketed, List.cons_append, List.forall_mem_cons, List.forall_mem_append] at hc hm
    obtain ⟨hcm, ⟨hci, -⟩, hcr⟩ : log.isCommitted m = true ∧ _ := hc
    obtain ⟨hmm, ⟨hmi, -⟩, hmr⟩ : merged ≠ some m ∧ _ := hm
    -- the node
    obtain ⟨n₀, n₁, n₂, ts, kind, span, error, hle₀, hle₂, hkind, herror, hts, hn₀, -, hn₂, hfold⟩ :=
      foldl_bracketed hsound (P := fun n n' ts => Drawing log source isTrivia n inside n' ts) hcm hmm
        hstart hstop (ihi hci hmi) a ha
    have hwithin := hts.append (.tokens hle₂)
    rw [List.append_nil] at hwithin
    -- and what is behind it
    let node := Tree.node kind span error (ts ++ (source.between n₁ n₂).map .leaf)
    obtain ⟨us, n₃, hfold', hus, hn₃⟩ := ihr hcr hmr
      (a.grow ((source.between a.next n₀).map .leaf ++ [node]) n₂) hn₂
    refine ⟨(source.between a.next n₀).map Tree.leaf ++ node :: us, n₃, ?_, ?_, hn₃⟩
    · rw [node_eq, List.foldl_append, hfold, hfold', Assembly.grow_grow, List.append_assoc]
      rfl
    · exact .node span hle₀ hkind herror hn₀ hwithin hn₂ hus

/-- The markers of the nodes below the root, in the order of their starts. -/
def innerNodes (log : MarkerLog) (root : Kind) : List Marker :=
  (starts log.brackets).filter fun m => log.rootMarker? root ≠ some m

/-- Every committed marker has a node, except the one that stands for the root. -/
theorem mem_innerNodes (hsound : log.Sound) {root : Kind} {m : Marker} :
    m ∈ log.innerNodes root ↔ log.isCommitted m = true ∧ log.rootMarker? root ≠ some m := by
  have hstart : log.isCommitted m = true → .start m ∈ log.entries := fun hm => by
    have hmem : .start m ∈ log.history m := by simp [hsound.isCommitted_iff.1 hm]
    exact (mem_history.1 hmem).1
  simp only [innerNodes, List.mem_filter, mem_starts, brackets, List.mem_reverse, shapes,
    decide_eq_true_eq]
  constructor
  · rintro ⟨⟨-, hm⟩, hne⟩
    exact ⟨hm, hne⟩
  · rintro ⟨hm, hne⟩
    exact ⟨⟨hstart hm, hm⟩, hne⟩

/-- The committed marker that stands for the root is the first of the brackets. -/
theorem exists_rest_of_rootMarker? (h : BalancedBrackets log.brackets) {root : Kind} {m : Marker}
    (hm : log.rootMarker? root = some m) : ∃ inside rest, BalancedBrackets inside ∧
      BalancedBrackets rest ∧ log.brackets = .start m :: (inside ++ .commit m :: rest) := by
  rw [rootMarker?_eq, Option.filter_eq_some_iff] at hm
  obtain ⟨hfirst, -⟩ := hm
  rw [firstCommitted?] at hfirst
  generalize log.brackets = es at h hfirst
  cases h with
  | nil => simp at hfirst
  | node m' hinside hrest =>
    obtain rfl : m' = m := by simpa using hfirst
    exact ⟨_, _, hinside, hrest, rfl⟩

/-- The brackets of the marker that stands for the root add nothing. -/
theorem assemble_merged (m : Marker) (a : Assembly) :
    log.assemble source isTrivia (some m) a (.start m) = a ∧
      log.assemble source isTrivia (some m) a (.commit m) = a := by
  constructor <;> simp only [assemble] <;> split <;> simp

theorem start_or_commit_of_shapes {e : Entry} (h : log.shapes e = true) :
    e = .start e.marker ∨ e = .commit e.marker := by
  cases e with
  | start m => exact .inl rfl
  | commit m => exact .inr rfl
  | drop m prior => cases h

/-- The root of a tree that has grown from nothing. -/
theorem children_toRoot_grow {source : Source} {ts : List Tree} {n : Nat} (hn : n ≤ source.size)
    (root : Kind) :
    ((Assembly.grow {} ts n).toRoot source root).children =
      ts ++ (source.between n source.size).map Tree.leaf := by
  have hmax : max n (min source.size source.size) = source.size := by omega
  have hemit := Assembly.emit_eq_grow source (Assembly.grow {} ts n) source.size hn
  rw [Assembly.next_grow, hmax, Assembly.grow_grow] at hemit
  rw [Assembly.toRoot, Tree.children]
  simp only [hemit]
  simp [Assembly.grow, Assembly.attach, Assembly.close]

/-- The root of the tree, from the trees that the brackets add. -/
theorem toTree_of_grow {source : Source} {language : Language} {root : Kind} {ts : List Tree}
    {n : Nat} (hn : n ≤ source.size)
    (h : log.brackets.foldl (log.assemble source (fun i => language.isTrivia? (source.kind? i))
      (log.rootMarker? root)) {} = Assembly.grow {} ts n) :
    (log.toTree source language root).children =
      ts ++ (source.between n source.size).map Tree.leaf := by
  rw [toTree_eq, h, children_toRoot_grow hn]

/-- The children of the root are drawn from brackets of the log, if these add what all brackets add. -/
theorem drawing_toTree (hsound : log.Sound) (h : log.WellNested) (source : Source) (language : Language)
    (root : Kind) {es : List Entry} (hes : BalancedBrackets es) (hs : es.Sublist log.brackets)
    (hm : ∀ e ∈ es, log.rootMarker? root ≠ some e.marker)
    (hfold : log.brackets.foldl (log.assemble source (fun i => language.isTrivia? (source.kind? i))
        (log.rootMarker? root)) {} =
      es.foldl (log.assemble source (fun i => language.isTrivia? (source.kind? i))
        (log.rootMarker? root)) {}) :
    Drawing log source (fun i => language.isTrivia? (source.kind? i)) 0 es source.size
      (log.toTree source language root).children := by
  have hc (e : Entry) (he : e ∈ es) : log.isCommitted e.marker = true :=
    isCommitted_of_shapes (List.mem_filter.1 (hs.subset he)).2
  obtain ⟨q, hq⟩ := h.ascent hes hs
  obtain ⟨ts, n, hts, hdraw, hn⟩ := drawing_foldl hsound hq hc hm {}
    (.zero source fun i => language.isTrivia? (source.kind? i))
  have hall := hdraw.append (.tokens hn.le)
  rw [List.append_nil] at hall
  rw [toTree_of_grow hn.le (hfold.trans hts)]
  exact hall

/-- The brackets below the root, and the trees they outline. -/
theorem exists_outline (hsound : log.Sound) (h : log.WellNested) (source : Source)
    (language : Language) (root : Kind) :
    ∃ es, starts es = log.innerNodes root ∧
      (∀ a b, .start a ∈ es → .start b ∈ es → (Encloses log.brackets a b ↔ Encloses es a b)) ∧
      Outline log source (fun i => language.isTrivia? (source.kind? i)) es 0 source.size
        (log.toTree source language root).children := by
  have hd := hsound.nodup_brackets
  cases hroot : log.rootMarker? root with
  | none =>
    refine ⟨log.brackets, ?_, fun _ _ _ _ => Iff.rfl, ?_⟩
    · simp [innerNodes, hroot]
    · have hdraw := drawing_toTree hsound h source language root h.balanced
        (List.Sublist.refl _) (by simp [hroot]) rfl
      exact hdraw.outline (Nat.le_refl _) hd
  | some m =>
    obtain ⟨inside, rest, hinside, hrest, hb⟩ := exists_rest_of_rootMarker? h.balanced hroot
    have hsub : (inside ++ rest).Sublist log.brackets := by
      rw [hb]
      exact .cons _ (List.Sublist.append (.refl inside) (.cons _ (.refl rest)))
    have hothers : ∀ e ∈ inside ++ rest, e.marker ≠ m := by
      rintro e he rfl
      have hshapes := (List.mem_filter.1 (hsub.subset he)).2
      rw [hb] at hd
      rcases start_or_commit_of_shapes hshapes with h | h <;> grind
    have hdraw : Drawing log source (fun i => language.isTrivia? (source.kind? i)) 0 (inside ++ rest)
        source.size (log.toTree source language root).children := by
      refine drawing_toTree hsound h source language root (hinside.append hrest) hsub ?_ ?_
      · intro e he heq
        exact hothers e he (Option.some.inj (heq.symm.trans hroot))
      · rw [hb, hroot, List.foldl_cons, (assemble_merged m _).1, List.foldl_append, List.foldl_cons,
          (assemble_merged m _).2, List.foldl_append]
    refine ⟨inside ++ rest, ?_, fun a b ha hb' => ?_,
      hdraw.outline (Nat.le_refl _) (hd.sublist hsub)⟩
    · have hkeep : ∀ a ∈ starts (inside ++ rest), decide (log.rootMarker? root ≠ some a) = true := by
        intro a ha
        have hne : a ≠ m := hothers _ (mem_starts.1 ha)
        simp [hroot, hne.symm]
      have hstarts : starts log.brackets = m :: starts (inside ++ rest) := by
        rw [hb, starts_cons_start, starts_append, starts_cons_commit, starts_append]
      rw [innerNodes, hstarts, List.filter_cons, if_neg (by simp [hroot]),
        List.filter_eq_self.2 hkeep]
    · rw [hb] at hd ⊢
      exact encloses_node hd (hinside.append hrest) ha hb'

/-- The tree of a well-nested log refines it. Its nodes below the root are those of the committed
markers apart from the one that stands for the root, in the order of their starts; every node fits
its marker, and is above another one exactly if its entries enclose those of the other. -/
theorem outline_toTree (hlog : log.Reachable) (h : log.WellNested) (source : Source)
    (language : Language) (root : Kind) :
    ∃ ps : List (Marker × Place),
      ps.map Prod.fst = log.innerNodes root ∧
      ps.map Prod.snd = (log.toTree source language root).innerPlaces ∧
      (∀ x ∈ ps, Fits log source (fun i => language.isTrivia? (source.kind? i)) x.1 x.2) ∧
      ∀ x ∈ ps, ∀ y ∈ ps, x.2.IsAbove y.2 ↔ Encloses log.brackets x.1 y.1 := by
  obtain ⟨es, hes, hencloses, hout⟩ := exists_outline hlog.sound h source language root
  obtain ⟨ps, hfst, hsnd, hfits, habove⟩ := hout.nodes [] 0
  refine ⟨ps, hfst.trans hes, hsnd, hfits, fun x hx y hy => ?_⟩
  rw [hencloses _ _ (Outline.mem_of_fst hfst hx) (Outline.mem_of_fst hfst hy)]
  exact habove x hx y hy

/-- A node that ends behind trivia with an empty one at its end, in a node that stands for the
root; one more marker was dropped. -/
def emptyBehindTrivia : MarkerLog :=
  (Session.runSteps
    [.openAt 0, .openAt 0, .openAt 2, .seek 2, .commit ⟨2⟩ ⟨22⟩ none, .commit ⟨1⟩ ⟨21⟩ none,
      .openAt 2, .drop ⟨3⟩, .seek 3, .commit ⟨0⟩ ⟨20⟩ none] {}).log

theorem outline_toTree_emptyBehindTrivia :
    let source : Source :=
      { text := "a b", tokens := [⟨⟨3⟩, ⟨0, 1⟩⟩, ⟨⟨1⟩, ⟨1, 2⟩⟩, ⟨⟨3⟩, ⟨2, 3⟩⟩] }
    let language := (LanguageTable.addTrivia {} ⟨1⟩).toBareLanguage
    emptyBehindTrivia.WellNested ∧
      ∃ ps : List (Marker × Place), ps.map Prod.fst = [⟨1⟩, ⟨2⟩] ∧
        ps.map Prod.snd = (emptyBehindTrivia.toTree source language ⟨20⟩).innerPlaces ∧
        ∀ x ∈ ps, ∀ y ∈ ps, x.2.IsAbove y.2 ↔ Encloses emptyBehindTrivia.brackets x.1 y.1 := by
  intro source language
  have hbrackets : emptyBehindTrivia.brackets = [.start ⟨0⟩, .start ⟨1⟩, .start ⟨2⟩, .commit ⟨2⟩,
      .commit ⟨1⟩, .commit ⟨0⟩] := by decide
  have h : emptyBehindTrivia.WellNested :=
    ⟨hbrackets ▸ .node ⟨0⟩ (.node ⟨1⟩ (.node ⟨2⟩ .nil .nil) .nil) .nil, by decide⟩
  obtain ⟨ps, hfst, hsnd, -, habove⟩ := outline_toTree ⟨_, rfl⟩ h source language ⟨20⟩
  exact ⟨h, ps, hfst.trans (by decide), hsnd, habove⟩

end MarkerLog

end Descent
