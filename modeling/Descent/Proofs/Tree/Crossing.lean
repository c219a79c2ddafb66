import Descent.Proofs.MarkerLog.Ascending
import Descent.Proofs.Tree.Outline
import Mathlib.Data.List.Forall2

/-!
# Trees of logs whose markers cross

The end of a node closes every node that was begun inside it and is still open. A node `Cuts` another
one if it was begun before that and ends inside it. Whatever the log, its nodes are those of the tree, in
the order of their starts, and where the positions do not go back, every node fits its marker up to the
ends of the nodes that cut it (`MarkerLog.places_toTree`).

While the brackets are read, the nodes that are still open make a `Pile`, each with a `Sketch` of what
it has inside so far. A node is put on the pile when it starts, and once it is taken off, its marker
has ended or it is cut.
-/

namespace Descent

/-! ## Sketches -/

/-- The trees `ts`, of which the first token has index `n` and the last comes before `n'`, have nodes
at places that are good for the markers `ms`, one after the other. -/
structure Sketch (source : Source) (good : Marker → Place → Prop) (ms : List Marker) (n n' : Nat)
    (ts : List Tree) : Prop where
  le : n ≤ n'
  size : n' ≤ source.size
  leaves : Tree.leavesAll ts = source.between n n'
  places : ∀ path i, List.Forall₂ good ms (Tree.placesAll path n i ts)

namespace Sketch

variable {source : Source} {good : Marker → Place → Prop} {ms ms' : List Marker} {n n₁ n₂ : Nat}
  {ts us : List Tree} {m : Marker}

theorem tokens (hle : n ≤ n₁) (hsize : n₁ ≤ source.size) :
    Sketch source good [] n n₁ ((source.between n n₁).map .leaf) where
  le := hle
  size := hsize
  leaves := Tree.leavesAll_map_leaf _
  places path i := by
    rw [Tree.placesAll_map_leaf]
    exact .nil

theorem nil (hsize : n ≤ source.size) : Sketch source good [] n n [] := by
  have h := @tokens source good n n (Nat.le_refl n) hsize
  simpa [Source.between] using h

theorem length (h : Sketch source good ms n n₁ ts) : n + (Tree.leavesAll ts).length = n₁ := by
  have hle := h.le
  rw [h.leaves, Source.length_between h.size]
  omega

theorem append (h : Sketch source good ms n n₁ ts) (h' : Sketch source good ms' n₁ n₂ us) :
    Sketch source good (ms ++ ms') n n₂ (ts ++ us) where
  le := Nat.le_trans h.le h'.le
  size := h'.size
  leaves := by
    rw [Tree.leavesAll_append, h.leaves, h'.leaves, Source.between_append h.le h'.le]
  places path i := by
    rw [Tree.placesAll_append, h.length]
    exact List.rel_append (h.places path i) (h'.places path (i + ts.length))

/-- A node is put around trees. -/
theorem node {kind : Kind} {span : Span} {error : Option SyntaxError}
    (h : Sketch source good ms n n₁ ts)
    (hgood : ∀ path, good m ⟨path, n, .node kind span error ts⟩) :
    Sketch source good (m :: ms) n n₁ [.node kind span error ts] where
  le := h.le
  size := h.size
  leaves := by
    simp only [Tree.leavesAll, Tree.leaves, List.append_nil, h.leaves]
  places path i := by
    simp only [Tree.placesAll, Tree.places, List.append_nil]
    exact .cons (hgood _) (h.places _ 0)

end Sketch

/-! ## Open nodes -/

/-- A node that was begun at the token with index `n` for a marker. -/
structure Pending.Begun (log : MarkerLog) (source : Source) (isTrivia : Nat → Bool) (p : Pending)
    (n : Nat) : Prop where
  kind : log.kind? p.marker = some p.kind
  error : log.error? p.marker = p.error
  start : Aligned source isTrivia n (log.start p.marker)

/-- The open nodes, the innermost first, and the children of the root so far, the latest first, have
nodes at places that are good for the markers `ms`, where each open node counts for its marker. The
last token in them comes before `n`. -/
inductive Pile (log : MarkerLog) (source : Source) (isTrivia : Nat → Bool)
    (good : Marker → Place → Prop) : List Pending → List Tree → Nat → List Marker → Prop
  | base {ms : List Marker} {ts : List Tree} {n : Nat}
    (h : Sketch source good ms 0 n ts.reverse) : Pile log source isTrivia good [] ts n ms
  | node {p : Pending} {ps : List Pending} {base : List Tree} {ms ms' : List Marker} {n₀ n : Nat}
    (h : Pile log source isTrivia good ps base n₀ ms) (hp : p.Begun log source isTrivia n₀)
    (hin : Sketch source good ms' n₀ n p.children.reverse) :
    Pile log source isTrivia good (p :: ps) base n (ms ++ p.marker :: ms')

namespace Pile

variable {log : MarkerLog} {source : Source} {isTrivia : Nat → Bool}
  {good : Marker → Place → Prop} {a : Assembly} {ms ms' : List Marker} {n : Nat} {ts : List Tree}
  {p : Pending} {ps : List Pending}

/-- Trees are added to the innermost open node. -/
theorem grow (h : Pile log source isTrivia good a.pending a.base a.next ms)
    (hts : Sketch source good ms' a.next n ts) :
    Pile log source isTrivia good (a.grow ts n).pending (a.grow ts n).base n (ms ++ ms') := by
  obtain ⟨pending, base, next⟩ := a
  cases h with
  | base h =>
    refine .base ?_
    have happend := h.append hts
    simpa [Assembly.grow, Assembly.attach] using happend
  | @node p ps _ ms₁ ms₂ n₀ _ h hp hin =>
    have happend := hin.append hts
    rw [List.append_assoc]
    refine .node (p := { p with children := ts.reverse ++ p.children }) h
      ⟨hp.kind, hp.error, hp.start⟩ ?_
    simpa using happend

/-- The innermost open node is closed. -/
theorem closeOne (hps : a.pending = p :: ps)
    (h : Pile log source isTrivia good a.pending a.base a.next ms)
    (hgood : ∀ n₀ path ms', p.Begun log source isTrivia n₀ →
      Sketch source good ms' n₀ a.next p.children.reverse → good p.marker ⟨path, n₀, p.toTree⟩) :
    Pile log source isTrivia good a.closeOne.pending a.closeOne.base a.closeOne.next ms ∧
      a.closeOne.pending.map (·.marker) = ps.map (·.marker) ∧ a.closeOne.next = a.next := by
  obtain ⟨pending, base, next⟩ := a
  obtain rfl : pending = p :: ps := hps
  cases h with
  | @node _ _ _ ms₁ ms₂ n₀ _ h hp hin =>
    have hnode : Sketch source good (p.marker :: ms₂) n₀ next [p.toTree] :=
      hin.node fun path => hgood n₀ path ms₂ hp hin
    have hgrow := grow (a := { pending := ps, base, next := n₀ }) h hnode
    cases ps with
    | nil => exact ⟨hgrow, rfl, rfl⟩
    | cons q ps => exact ⟨hgrow, rfl, rfl⟩

end Pile

namespace Assembly

theorem markers_grow (a : Assembly) (ts : List Tree) (n : Nat) :
    (a.grow ts n).pending.map (·.marker) = a.pending.map (·.marker) := by
  obtain ⟨_ | ⟨p, ps⟩, base, next⟩ := a <;> rfl

/-- A marker is open or not, and if it is, the nodes above its own on the pile are known. -/
theorem openTo_cases (a : Assembly) (m : Marker) :
    a.openTo m = 0 ∧ m ∉ a.pending.map (·.marker) ∨
      ∃ above below, a.pending.map (·.marker) = above ++ m :: below ∧ m ∉ above ∧
        a.openTo m = above.length + 1 := by
  obtain ⟨pending, base, next⟩ := a
  simp only [openTo]
  induction pending with
  | nil => exact .inl ⟨rfl, by simp⟩
  | cons p ps ih =>
    rw [List.findIdx?_cons]
    by_cases hp : p.marker = m
    · exact .inr ⟨[], ps.map (·.marker), by simp [hp], by simp, by simp [hp]⟩
    · rcases ih with ⟨hzero, hnot⟩ | ⟨above, below, hsplit, hnot, hopen⟩
      · refine .inl ⟨?_, by simp_all [eq_comm]⟩
        cases hfind : ps.findIdx? fun x => decide (x.marker = m) with
        | none => simp [hp]
        | some i => simp [hfind] at hzero
      · refine .inr ⟨p.marker :: above, below, by simp [hsplit], by simp_all [eq_comm], ?_⟩
        cases hfind : ps.findIdx? fun x => decide (x.marker = m) with
        | none => simp [hfind] at hopen
        | some i => simp_all

end Assembly

/-! ## Cut nodes -/

namespace MarkerLog

/-- Another node `y` that was begun before the node `m` ends inside it. It must not be the one that
stands for the root, which closes no node. -/
def Cuts (log : MarkerLog) (root : Kind) (y m : Marker) : Prop :=
  log.rootMarker? root ≠ some y ∧ Before log.brackets (.start y) (.start m) ∧
    Before log.brackets (.start m) (.commit y) ∧ Before log.brackets (.commit y) (.commit m)

/-- The node at a place is that of the marker. But for trivia it has the tokens that the marker covers,
except that it may end where a node ends that cuts it. -/
structure FitsCut (log : MarkerLog) (root : Kind) (source : Source) (isTrivia : Nat → Bool)
    (m : Marker) (p : Place) : Prop where
  kind : log.kind? m = some p.tree.kind
  error : log.error? m = p.tree.error?
  leaves : p.tree.leaves = source.between p.first p.stop
  within : ∀ i < source.size, isTrivia i = false → p.first ≤ i → i < p.stop →
    log.start m ≤ i ∧ i < log.stop m
  covers : ∀ i < source.size, isTrivia i = false → log.start m ≤ i → i < log.stop m →
    (p.first ≤ i ∧ i < p.stop) ∨ ∃ y, log.Cuts root y m ∧ log.stop y ≤ i

variable {log : MarkerLog} {root : Kind} {source : Source} {isTrivia : Nat → Bool} {m y : Marker}

/-- A node that no other one cuts fits its marker. -/
theorem FitsCut.fits {p : Place} (h : log.FitsCut root source isTrivia m p)
    (hnot : ∀ y, ¬ log.Cuts root y m) : Fits log source isTrivia m p where
  kind := h.kind
  error := h.error
  leaves := h.leaves
  covers i hi htriv :=
    ⟨fun ⟨hfirst, hstop⟩ => h.within i hi htriv hfirst hstop, fun ⟨hstart, hstop⟩ =>
      (h.covers i hi htriv hstart hstop).resolve_right fun ⟨y, hy, _⟩ => hnot y hy⟩

theorem position_le_of_before (hascending : (log.brackets.map log.position).Pairwise (· ≤ ·))
    {e e' : Entry} (h : Before log.brackets e e') : log.position e ≤ log.position e' :=
  List.rel_of_pairwise_cons (hascending.sublist (List.Sublist.map log.position h)) List.mem_cons_self

/-- Where positions do not go back, a node that cuts another one ends no later. -/
theorem Cuts.stop_le (h : log.Cuts root y m)
    (hascending : (log.brackets.map log.position).Pairwise (· ≤ ·)) : log.stop y ≤ log.stop m :=
  position_le_of_before hascending h.2.2.2

/-- A node fits its marker if it is closed where that ends, or where one ends that cuts it. -/
theorem fitsCut_toTree {p : Pending} {n₀ n q : Nat} {path : List Nat} {ms : List Marker}
    {good : Marker → Place → Prop} (hp : p.Begun log source isTrivia n₀)
    (hin : Sketch source good ms n₀ n p.children.reverse) (hend : Aligned source isTrivia n q)
    (hq : q ≤ log.stop p.marker)
    (hcut : q = log.stop p.marker ∨ ∃ y, log.Cuts root y p.marker ∧ log.stop y = q) :
    log.FitsCut root source isTrivia p.marker ⟨path, n₀, p.toTree⟩ := by
  have hleaves : p.toTree.leaves = source.between n₀ n := by
    rw [Pending.toTree, Tree.leaves, hin.leaves]
  have hstop : n₀ + p.toTree.leaves.length = n := by
    rw [Pending.toTree, Tree.leaves]
    exact hin.length
  refine ⟨hp.kind, hp.error, ?_, fun i hi htriv => ?_, fun i hi htriv => ?_⟩
  · rw [Place.stop, hstop]
    exact hleaves
  · have h₁ := hp.start.iff i hi htriv
    have h₂ := hend.iff i hi htriv
    rw [Place.stop, hstop]
    show n₀ ≤ i → i < n → _
    omega
  · have h₁ := hp.start.iff i hi htriv
    have h₂ := hend.iff i hi htriv
    intro hstart hlt
    by_cases hi' : i < q
    · refine .inl ?_
      rw [Place.stop, hstop]
      show n₀ ≤ i ∧ i < n
      omega
    · rcases hcut with rfl | ⟨y, hy, rfl⟩
      · omega
      · exact .inr ⟨y, hy, by omega⟩

/-- The nodes that the end of a node `m` closes are good, if the tree `b` has the tokens up to there. -/
def ClosesWell (log : MarkerLog) (root : Kind) (source : Source) (isTrivia : Nat → Bool)
    (good : Marker → Place → Prop) (m : Marker) (b : Assembly) : Prop :=
  ∀ k p ps n₀ path ms, (b.close k).pending = p :: ps → p.marker = m ∨ log.Cuts root m p.marker →
    p.Begun log source isTrivia n₀ → Sketch source good ms n₀ b.next p.children.reverse →
    good p.marker ⟨path, n₀, p.toTree⟩

theorem closesWell_fitsCut {b : Assembly}
    (hascending : (log.brackets.map log.position).Pairwise (· ≤ ·))
    (hend : Aligned source isTrivia b.next (log.stop m)) :
    log.ClosesWell root source isTrivia (log.FitsCut root source isTrivia) m b := by
  intro k p ps n₀ path ms _ hclosed hp hin
  rcases hclosed with rfl | hcut
  · exact fitsCut_toTree hp hin hend (Nat.le_refl _) (.inl rfl)
  · exact fitsCut_toTree hp hin hend (hcut.stop_le hascending) (.inr ⟨m, hcut, rfl⟩)

/-- The end of a node closes it and those that were begun inside it. -/
theorem close_pile {good : Marker → Place → Prop} {a : Assembly} {ms above below : List Marker}
    (hgood : log.ClosesWell root source isTrivia good m a)
    (h : Pile log source isTrivia good a.pending a.base a.next ms)
    (hsplit : a.pending.map (·.marker) = above ++ m :: below)
    (hcut : ∀ x ∈ above, log.Cuts root m x) :
    let b := a.close (above.length + 1)
    Pile log source isTrivia good b.pending b.base b.next ms ∧
      b.pending.map (·.marker) = below ∧ b.next = a.next := by
  induction above generalizing a with
  | nil =>
    obtain ⟨p, ps, hps, hp, hbelow⟩ := List.map_eq_cons_iff.1 hsplit
    obtain ⟨hpile, hmarkers, hnext⟩ := h.closeOne hps fun n₀ path ms' =>
      hgood 0 p ps n₀ path ms' hps (.inl hp)
    exact ⟨hpile, hmarkers.trans hbelow, hnext⟩
  | cons x above ih =>
    obtain ⟨p, ps, hps, rfl, hrest⟩ := List.map_eq_cons_iff.1 hsplit
    obtain ⟨hcutp, hcut⟩ := List.forall_mem_cons.1 hcut
    obtain ⟨hpile, hmarkers, hnext⟩ := h.closeOne hps fun n₀ path ms' =>
      hgood 0 p ps n₀ path ms' hps (.inr hcutp)
    have hgood' : log.ClosesWell root source isTrivia good m a.closeOne := fun k =>
      hnext ▸ hgood (k + 1)
    obtain ⟨hpile', hmarkers', hnext'⟩ := ih hgood' hpile (hmarkers.trans hrest) hcut
    exact ⟨hpile', hmarkers', hnext'.trans hnext⟩

/-! ## Reading the brackets -/

/-- The end of a node closes those on the pile down to its own, or none if the node is not open. -/
theorem assemble_commit_cases {info : MarkerInfo} (hi : log.info? m = some info)
    (hs : info.stage = .committed) (source : Source) (isTrivia : Nat → Bool) (merged : Option Marker)
    (a : Assembly) :
    log.assemble source isTrivia merged a (.commit m) = a ∧
        (merged = some m ∨ m ∉ a.pending.map (·.marker)) ∨
      merged ≠ some m ∧ ∃ above below, a.pending.map (·.marker) = above ++ m :: below ∧
        log.assemble source isTrivia merged a (.commit m) =
          (a.emit source (info.trimmed isTrivia).2).close (above.length + 1) := by
  by_cases hroot : merged = some m
  · exact .inl ⟨hroot ▸ (assemble_merged m a).2, .inl hroot⟩
  · simp only [assemble, hi]
    rcases a.openTo_cases m with ⟨hzero, hnot⟩ | ⟨above, below, hmarkers, -, hopen⟩
    · exact .inl ⟨if_neg fun hc => hc.2.2 hzero, .inr hnot⟩
    · exact .inr ⟨hroot, above, below, hmarkers, by rw [if_pos ⟨hs, hroot, by omega⟩, hopen]⟩

/-- What one entry after the other keeps while the brackets are read holds when they are all read. -/
theorem read_brackets (log : MarkerLog) {source : Source} {isTrivia : Nat → Bool}
    {merged : Option Marker} {P : List Entry → List Entry → Assembly → Prop}
    (hbegin : P [] log.brackets {})
    (hstart : ∀ {before after m a}, log.brackets = before ++ .start m :: after →
      P before (.start m :: after) a →
      P (before ++ [.start m]) after (log.assemble source isTrivia merged a (.start m)))
    (hcommit : ∀ {before after m a}, log.brackets = before ++ .commit m :: after →
      P before (.commit m :: after) a →
      P (before ++ [.commit m]) after (log.assemble source isTrivia merged a (.commit m))) :
    P log.brackets [] (log.brackets.foldl (log.assemble source isTrivia merged) {}) := by
  have hread (after before : List Entry) (a : Assembly) (hsplit : log.brackets = before ++ after)
      (h : P before after a) :
      P log.brackets [] (after.foldl (log.assemble source isTrivia merged) a) := by
    induction after generalizing before a with
    | nil =>
      rw [List.append_nil] at hsplit
      exact hsplit ▸ h
    | cons e after ih =>
      refine ih (before ++ [e]) _ (by simpa using hsplit) ?_
      have hshapes : log.shapes e = true :=
        (List.mem_filter.1 (hsplit ▸ by simp : e ∈ log.brackets)).2
      rcases start_or_commit_of_shapes hshapes with he | he
      · rw [he] at hsplit h ⊢
        exact hstart hsplit h
      · rw [he] at hsplit h ⊢
        exact hcommit hsplit h
  exact hread log.brackets [] {} rfl hbegin

/-- A node ends behind its start. -/
theorem Sound.before_brackets (h : log.Sound) (hm : log.isCommitted m = true) :
    Before log.brackets (.start m) (.commit m) := by
  have hsub : [Entry.commit m, .start m].Sublist log.entries :=
    h.isCommitted_iff.1 hm ▸ List.filter_sublist
  have hshapes := hsub.reverse.filter log.shapes
  simpa [shapes, hm, Before, brackets] using hshapes

/-- The brackets `before` are read. The nodes that are open were started and have not ended. -/
structure Unclosed (merged : Option Marker) (before : List Entry) (a : Assembly) : Prop where
  order : ((a.pending.map (·.marker)).reverse.map Entry.start).Sublist before
  waiting : ∀ x ∈ a.pending.map (·.marker), .commit x ∉ before ∧ merged ≠ some x

namespace Unclosed

variable {merged : Option Marker} {before after : List Entry} {a b : Assembly}

/-- An entry that opens no node and closes none is passed over. -/
theorem pass {e : Entry} (h : Unclosed merged before a)
    (hpending : ∀ x ∈ a.pending.map (·.marker), .commit x ≠ e) :
    Unclosed merged (before ++ [e]) a where
  order := h.order.trans (List.sublist_append_left ..)
  waiting x hx := by
    obtain ⟨hcommit, hroot⟩ := h.waiting x hx
    simpa [hroot, hcommit] using hpending x hx

theorem start_mem (h : Unclosed merged before a) {x : Marker} (hx : x ∈ a.pending.map (·.marker)) :
    .start x ∈ before :=
  h.order.subset (List.mem_map_of_mem (List.mem_reverse.2 hx))

theorem pass_commit (h : Unclosed merged before a)
    (hpass : merged = some m ∨ m ∉ a.pending.map (·.marker)) :
    ∀ x ∈ a.pending.map (·.marker), Entry.commit x ≠ .commit m := by
  rintro x hx heq
  obtain rfl := Entry.commit.inj heq
  exact hpass.elim (h.waiting x hx).2 (· hx)

variable (hsound : log.Sound)
include hsound

/-- A node is open once it has started. -/
theorem started (h : Unclosed merged before a) (hsplit : log.brackets = before ++ .start m :: after)
    (hroot : merged ≠ some m)
    (hb : b.pending.map (·.marker) = m :: a.pending.map (·.marker)) :
    Unclosed merged (before ++ [.start m]) b where
  order := by
    rw [hb, List.reverse_cons, List.map_append]
    exact h.order.append (List.Sublist.refl _)
  waiting := by
    have hcommitted : log.isCommitted m = true :=
      isCommitted_of_shapes (List.mem_filter.1 (hsplit ▸ by simp : .start m ∈ log.brackets)).2
    -- nothing is committed before it starts
    have hnot : .commit m ∉ before := fun hmem => by
      have hbefore := hsound.before_brackets hcommitted
      have hd := hsound.nodup_brackets
      rw [hsplit] at hbefore hd
      grind [before_append, before_cons, Before.mem]
    rw [hb]
    intro x hx
    rcases List.mem_cons.1 hx with rfl | hx
    · exact ⟨by simpa using hnot, hroot⟩
    · exact ⟨by simpa using (h.waiting x hx).1, (h.waiting x hx).2⟩

/-- The end of a node leaves those open that were started before. -/
theorem ended {above below : List Marker} (h : Unclosed merged before a)
    (hsplit : log.brackets = before ++ .commit m :: after)
    (hmarkers : a.pending.map (·.marker) = above ++ m :: below)
    (hb : b.pending.map (·.marker) = below) : Unclosed merged (before ++ [.commit m]) b := by
  have horder := h.order
  rw [hmarkers, List.reverse_append, List.reverse_cons, List.append_assoc, List.map_append]
    at horder
  refine ⟨?_, ?_⟩
  · rw [hb]
    exact ((List.sublist_append_left ..).trans horder).trans (List.sublist_append_left ..)
  · rw [hb]
    intro x hx
    obtain ⟨hcommit, hrootx⟩ := h.waiting x (by simp [hmarkers, hx])
    refine ⟨?_, hrootx⟩
    -- the node that ends was started once only
    have hne : x ≠ m := by
      rintro rfl
      have hbefore : before.Nodup := (List.nodup_append.1 (hsplit ▸ hsound.nodup_brackets)).1
      obtain ⟨-, -, hapart⟩ := List.nodup_append.1 (hbefore.sublist horder)
      exact hapart (.start x) (by simp [hx]) (.start x) (by simp) rfl
    simpa [hne] using hcommit

/-- When all is read, no node is open. -/
theorem pending_eq_nil (h : Unclosed merged log.brackets a) : a.pending = [] := by
  cases hpending : a.pending with
  | nil => rfl
  | cons p ps =>
    have hmem : p.marker ∈ a.pending.map (·.marker) := by simp [hpending]
    have hcommitted := isCommitted_of_shapes (List.mem_filter.1 (h.start_mem hmem)).2
    exact absurd (hsound.before_brackets hcommitted).mem.2 (h.waiting _ hmem).1

end Unclosed

/-- The brackets `before` are read, and `after` are still to come. But for trivia the tokens up to a
position are in the tree that does not come behind what is still to be read. -/
structure Reading (log : MarkerLog) (root : Kind) (source : Source) (isTrivia : Nat → Bool)
    (good : Marker → Place → Prop) (before after : List Entry) (a : Assembly) : Prop where
  unclosed : Unclosed (log.rootMarker? root) before a
  pile : Pile log source isTrivia good a.pending a.base a.next
    ((starts before).filter (log.rootMarker? root ≠ some ·))
  aligned : ∃ q, Aligned source isTrivia a.next q ∧ ∀ e ∈ after, q ≤ log.position e

namespace Reading

variable {good : Marker → Place → Prop} {before after : List Entry} {a : Assembly}

theorem begin (log : MarkerLog) (root : Kind) (source : Source) (isTrivia : Nat → Bool)
    (good : Marker → Place → Prop) : log.Reading root source isTrivia good [] log.brackets {} where
  unclosed := ⟨List.Sublist.refl _, fun x hx => by cases hx⟩
  pile := .base (.nil (Nat.zero_le _))
  aligned := ⟨0, .zero source isTrivia, fun _ _ => Nat.zero_le _⟩

/-- An entry that opens no node and closes none is passed over. -/
theorem pass {e : Entry} (h : log.Reading root source isTrivia good before (e :: after) a)
    (hstarts : (starts [e]).filter (log.rootMarker? root ≠ some ·) = [])
    (hpending : ∀ x ∈ a.pending.map (·.marker), .commit x ≠ e) :
    log.Reading root source isTrivia good (before ++ [e]) after a where
  unclosed := h.unclosed.pass hpending
  pile := by
    rw [starts_append, List.filter_append, hstarts, List.append_nil]
    exact h.pile
  aligned := by
    obtain ⟨q, hq, hle⟩ := h.aligned
    exact ⟨q, hq, fun e he => hle e (List.mem_cons_of_mem _ he)⟩

section
variable (hsound : log.Sound)
  (hascending : (log.brackets.map log.position).Pairwise (· ≤ ·))
include hascending

theorem position_le {e e' : Entry} (hsplit : log.brackets = before ++ e :: after)
    (he : e' ∈ after) : log.position e ≤ log.position e' := by
  rw [hsplit, List.map_append, List.map_cons] at hascending
  have hbehind := (List.pairwise_append.1 hascending).2.1
  exact (List.pairwise_cons.1 hbehind).1 _ (List.mem_map_of_mem he)

include hsound

theorem start (hsplit : log.brackets = before ++ .start m :: after)
    (h : log.Reading root source isTrivia good before (.start m :: after) a) :
    log.Reading root source isTrivia good (before ++ [.start m]) after
      (log.assemble source isTrivia (log.rootMarker? root) a (.start m)) := by
  have hmem : .start m ∈ log.brackets := by simp [hsplit]
  have hcommitted : log.isCommitted m = true := isCommitted_of_shapes (List.mem_filter.1 hmem).2
  by_cases hroot : log.rootMarker? root = some m
  · rw [hroot, (assemble_merged m a).1]
    exact h.pass (by simp [starts, hroot]) (by simp)
  · obtain ⟨info, kind, hi, hs, hle, hk⟩ := exists_info hsound hcommitted
    obtain ⟨q, hq, hbound⟩ := h.aligned
    -- up to the start of the node
    let n₀ := max a.next (min (info.trimmed isTrivia).1 source.size)
    let b := a.grow ((source.between a.next n₀).map .leaf) n₀
    have hn₀ : Aligned source isTrivia n₀ (log.start m) := by
      refine hq.advance (hbound _ List.mem_cons_self) fun i htriv => ?_
      simpa [MarkerLog.start, hi] using MarkerInfo.lt_trimmed_fst htriv
    have hopen : log.assemble source isTrivia (log.rootMarker? root) a (.start m) =
        { b with pending := pendingNode source m info n₀ :: b.pending } := by
      rw [assemble_start hi hs hroot, a.emit_eq_grow source _ hq.le]
      rfl
    have hmarkers : b.pending.map (·.marker) = a.pending.map (·.marker) := a.markers_grow _ _
    have hbegun : (pendingNode source m info n₀).Begun log source isTrivia n₀ :=
      ⟨by simp [kind?, hi, hs, hk, pendingNode], by simp [error?, hi, pendingNode], hn₀⟩
    have hpile := h.pile.grow (.tokens (Nat.le_max_left ..) hn₀.le)
    rw [List.append_nil] at hpile
    have hstarts : (starts (before ++ [.start m])).filter (log.rootMarker? root ≠ some ·) =
        (starts before).filter (log.rootMarker? root ≠ some ·) ++ [m] := by
      rw [starts_append, List.filter_append]
      simp [starts, hroot]
    rw [hopen]
    refine ⟨h.unclosed.started hsound hsplit hroot (congrArg (m :: ·) hmarkers), ?_, log.start m, hn₀,
      fun e he => position_le hascending hsplit he⟩
    rw [hstarts]
    exact .node hpile hbegun (.nil hn₀.le)

omit hascending in
/-- A node cuts what was begun inside it and is still open when it ends. -/
theorem cuts_of_above {above below : List Marker} (hsplit : log.brackets = before ++ .commit m :: after)
    (h : log.Reading root source isTrivia good before (.commit m :: after) a)
    (hmarkers : a.pending.map (·.marker) = above ++ m :: below)
    (hroot : log.rootMarker? root ≠ some m) : ∀ x ∈ above, log.Cuts root m x := by
  intro x hx
  have horder := h.unclosed.order
  rw [hmarkers] at horder
  have hpair : [Entry.start m, .start x].Sublist
      ((above ++ m :: below).reverse.map Entry.start) := by
    have hx' : [x].Sublist above.reverse := List.singleton_sublist.2 (List.mem_reverse.2 hx)
    have hmx : [m, x].Sublist (m :: above.reverse) := hx'.cons_cons m
    have hall : [m, x].Sublist (above ++ m :: below).reverse := by
      rw [List.reverse_append, List.reverse_cons, List.append_assoc]
      exact hmx.trans (List.sublist_append_right ..)
    exact hall.map Entry.start
  have hbefore : Before before (.start m) (.start x) := hpair.trans horder
  have hcommitted : log.isCommitted x = true := by
    have hmem : .start x ∈ log.brackets := by
      rw [hsplit]
      exact List.mem_append_left _ hbefore.mem.2
    exact isCommitted_of_shapes (List.mem_filter.1 hmem).2
  have hbehind := hsound.before_brackets hcommitted
  have hd := hsound.nodup_brackets
  have hwaits := (h.unclosed.waiting x (by simp [hmarkers, hx])).1
  refine ⟨hroot, ?_, ?_, ?_⟩
  · rw [hsplit]
    exact before_append.2 (.inl hbefore)
  · rw [hsplit]
    exact before_append.2 (.inr (.inl ⟨hbefore.mem.2, List.mem_cons_self⟩))
  · rw [hsplit] at hbehind hd ⊢
    have hne : x ≠ m := by
      rintro rfl
      have hd' := (List.nodup_append.1 hd).1.sublist hbefore
      simp at hd'
    grind [before_append, before_cons, Before.mem]

theorem commit (hsplit : log.brackets = before ++ .commit m :: after)
    (h : log.Reading root source isTrivia good before (.commit m :: after) a)
    (hgood : ∀ info, log.info? m = some info → m ∈ a.pending.map (·.marker) →
      let b := a.emit source (info.trimmed isTrivia).2
      Aligned source isTrivia b.next (log.stop m) → log.ClosesWell root source isTrivia good m b) :
    log.Reading root source isTrivia good (before ++ [.commit m]) after
      (log.assemble source isTrivia (log.rootMarker? root) a (.commit m)) := by
  have hmem : .commit m ∈ log.brackets := by simp [hsplit]
  have hcommitted : log.isCommitted m = true := isCommitted_of_shapes (List.mem_filter.1 hmem).2
  obtain ⟨info, kind, hi, hs, hle, hk⟩ := exists_info hsound hcommitted
  rcases assemble_commit_cases hi hs source isTrivia (log.rootMarker? root) a with
    ⟨hskip, hpass⟩ | ⟨hroot, above, below, hmarkers, hclose⟩
  · rw [hskip]
    exact h.pass (by simp [starts]) (h.unclosed.pass_commit hpass)
  · obtain ⟨q, hq, hbound⟩ := h.aligned
    -- up to the end of the node
    let n₂ := max a.next (min (info.trimmed isTrivia).2 source.size)
    let b := a.grow ((source.between a.next n₂).map .leaf) n₂
    have hemit : a.emit source (info.trimmed isTrivia).2 = b := a.emit_eq_grow source _ hq.le
    have hn₂ : Aligned source isTrivia n₂ (log.stop m) := by
      refine hq.advance (hbound _ List.mem_cons_self) fun i htriv => ?_
      simpa [MarkerLog.stop, hi] using MarkerInfo.lt_trimmed_snd hle htriv
    have hpile := h.pile.grow (.tokens (Nat.le_max_left ..) hn₂.le)
    rw [List.append_nil] at hpile
    have hopened : b.pending.map (·.marker) = above ++ m :: below :=
      (a.markers_grow _ _).trans hmarkers
    have hwell := hgood info hi (by simp [hmarkers])
    rw [hemit] at hwell hclose
    obtain ⟨hpile', hmarkers', hnext'⟩ :=
      close_pile (hwell hn₂) hpile hopened (h.cuts_of_above hsound hsplit hmarkers hroot)
    have hstarts : (starts (before ++ [.commit m])).filter (log.rootMarker? root ≠ some ·) =
        (starts before).filter (log.rootMarker? root ≠ some ·) := by
      rw [starts_append]
      simp [starts]
    rw [hclose]
    refine ⟨h.unclosed.ended hsound hsplit hmarkers hmarkers', ?_, log.stop m, hnext' ▸ hn₂,
      fun e he => position_le hascending hsplit he⟩
    rw [hstarts]
    exact hpile'

end

/-- When all is read, the nodes below the root are at places that are good for their markers. -/
theorem forall₂_innerPlaces (hsound : log.Sound) {language : Language}
    (h : log.Reading root source (fun i => language.isTrivia? (source.kind? i)) good log.brackets []
      (log.brackets.foldl (log.assemble source (fun i => language.isTrivia? (source.kind? i))
        (log.rootMarker? root)) {})) :
    List.Forall₂ good (log.innerNodes root) (log.toTree source language root).innerPlaces := by
  rw [innerNodes, toTree_eq, Assembly.toRoot, Tree.innerPlaces]
  generalize List.foldl _ _ _ = a at h
  obtain ⟨q, hq, -⟩ := h.aligned
  have hnil := h.unclosed.pending_eq_nil hsound
  have hsize : max a.next (min source.size source.size) = source.size := by
    have hle := hq.le
    omega
  have hpile := h.pile.grow (.tokens hq.le (Nat.le_refl source.size))
  have hemit := a.emit_eq_grow source source.size hq.le
  rw [hsize] at hemit
  rw [List.append_nil, ← hemit] at hpile
  have hpending : (a.emit source source.size).pending = [] := by
    have hmarkers := a.markers_grow ((source.between a.next source.size).map .leaf) source.size
    rw [← hemit, hnil] at hmarkers
    simpa using hmarkers
  rw [hpending] at hpile
  cases hpile with
  | base hsketch => simpa [hpending, Assembly.close, Tree.children] using hsketch.places [] 0

end Reading

/-- Below the root the tree of a log has the nodes that the log records and no others, in the order of
their starts. If the positions of the log do not go back, every node fits its marker up to the ends of
the nodes that cut it. -/
theorem places_toTree (hsound : log.Sound)
    (hascending : (log.brackets.map log.position).Pairwise (· ≤ ·)) (source : Source)
    (language : Language) (root : Kind) :
    List.Forall₂
      (log.FitsCut root source fun i => language.isTrivia? (source.kind? i))
      (log.innerNodes root) (log.toTree source language root).innerPlaces :=
  Reading.forall₂_innerPlaces hsound (log.read_brackets (Reading.begin log root source _ _)
    (Reading.start hsound hascending) fun hsplit h =>
      h.commit hsound hascending hsplit fun _ _ _ hend => closesWell_fitsCut hascending hend)

/-! ## Where a node is -/

/-- Where the node of a marker is in the tree of a log: at the top if it stands for the root, else
where the node begins that has its turn. -/
inductive HasPlace (log : MarkerLog) (root : Kind) (tree : Tree) (m : Marker) : Place → Prop
  | root (h : log.rootMarker? root = some m) : HasPlace log root tree m ⟨[], 0, tree⟩
  | inner {p : Place} (h : (m, p) ∈ (log.innerNodes root).zip tree.innerPlaces) :
    HasPlace log root tree m p

theorem Ascends.pairwise_brackets {q : Nat} (h : log.Ascends q) :
    (log.brackets.map log.position).Pairwise (· ≤ ·) := by
  have hplaces : (log.entries.reverse.filterMap log.place?).Pairwise (· ≤ ·) := by
    rw [List.filterMap_reverse, List.pairwise_reverse]
    exact (List.pairwise_cons.1 h).2
  have hsome : log.brackets.map log.position = log.brackets.filterMap log.place? := by
    rw [← List.filterMap_eq_map]
    refine List.filterMap_congr fun e he => ?_
    rcases start_or_commit_of_shapes (List.mem_filter.1 he).2 with he | he
    · rw [he]
      rfl
    · rw [he]
      rfl
  rw [hsome]
  exact hplaces.sublist (List.filter_sublist.filterMap log.place?)

/-- Where the positions ascend, every committed marker has its node in the tree, which has the tokens
that the marker covers but for those behind the end of a node that cuts it. -/
theorem exists_place (hsound : log.Sound) {q : Nat} (hascends : log.Ascends q)
    (hm : log.isCommitted m = true) (source : Source) (language : Language) (root : Kind) :
    ∃ p, log.HasPlace root (log.toTree source language root) m p ∧
      log.kind? m = some p.tree.kind ∧ p.tree.leaves = source.between p.first p.stop ∧
      ∀ i < source.size, language.isTrivia? (source.kind? i) = false → log.start m ≤ i →
        i < log.stop m → (p.first ≤ i ∧ i < p.stop) ∨ ∃ y, log.Cuts root y m ∧ log.stop y ≤ i := by
  by_cases hroot : log.rootMarker? root = some m
  · have hleaves := log.leaves_toTree source language root
    have hstop : Place.stop ⟨[], 0, log.toTree source language root⟩ = source.size := by
      rw [Place.stop, hleaves, Nat.zero_add, Source.size]
    refine ⟨_, .root hroot, ?_, ?_, fun i hi _ _ _ => .inl ⟨Nat.zero_le i, ?_⟩⟩
    · rw [rootMarker?_eq, Option.filter_eq_some_iff, beq_iff_eq] at hroot
      exact hroot.2
    · rw [hstop, hleaves]
      simp [Source.between, Source.size]
    · rw [hstop]
      exact hi
  · have hplaces := places_toTree hsound hascends.pairwise_brackets source language root
    obtain ⟨hlength, hfits⟩ := List.forall₂_iff_zip.1 hplaces
    have hmem := (mem_innerNodes hsound).2 ⟨hm, hroot⟩
    rw [← List.map_fst_zip (Nat.le_of_eq hlength)] at hmem
    obtain ⟨⟨_, p⟩, hzip, rfl⟩ := List.mem_map.1 hmem
    have hfit := hfits hzip
    exact ⟨_, .inner hzip, hfit.kind, hfit.leaves, hfit.covers⟩

end MarkerLog

end Descent
