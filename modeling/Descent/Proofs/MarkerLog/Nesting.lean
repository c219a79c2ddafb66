import Descent.Proofs.Tree.Brackets

/-!
# Well-nested logs

The brackets of a log are balanced if its nodes, as the log records them, are nested and do not
cross. If the positions they stand for do not go back either, the log is `WellNested`: then the
nodes lie in the source as they are nested in the log. What a node encloses (`Encloses`) is read off
the order of its entries and those of the other node.
-/

namespace Descent

/-- The entries are the starts and commitments of nested nodes, each commitment behind its start. -/
inductive BalancedBrackets : List Entry → Prop where
  | nil : BalancedBrackets []
  | node (m : Marker) {inside rest : List Entry} (hinside : BalancedBrackets inside)
    (hrest : BalancedBrackets rest) :
    BalancedBrackets (.start m :: (inside ++ .commit m :: rest))

/-- One entry comes before another. -/
def Before (es : List Entry) (x y : Entry) : Prop := [x, y].Sublist es

/-- Both entries of one marker are inside those of another. -/
def Encloses (es : List Entry) (m x : Marker) : Prop :=
  Before es (.start m) (.start x) ∧ Before es (.commit x) (.commit m)

/-- The markers started, in order. -/
def starts (es : List Entry) : List Marker :=
  es.filterMap fun
    | .start m => some m
    | _ => none

section
variable {es fs : List Entry} {x y z : Entry} {m a b : Marker}

theorem before_cons : Before (z :: es) x y ↔ (x = z ∧ y ∈ es) ∨ Before es x y := by
  rw [Before, Before, List.sublist_cons_iff]
  constructor
  · rintro (h | ⟨r, hr, h⟩)
    · exact .inr h
    · obtain ⟨rfl, rfl⟩ := List.cons.inj hr
      exact .inl ⟨rfl, List.singleton_sublist.1 h⟩
  · rintro (⟨rfl, h⟩ | h)
    · exact .inr ⟨_, rfl, List.singleton_sublist.2 h⟩
    · exact .inl h

theorem before_append :
    Before (es ++ fs) x y ↔ Before es x y ∨ (x ∈ es ∧ y ∈ fs) ∨ Before fs x y := by
  induction es with
  | nil => simp [Before]
  | cons z es ih => grind [before_cons]

theorem Before.mem (h : Before es x y) : x ∈ es ∧ y ∈ es :=
  ⟨h.subset (by simp), h.subset (by simp)⟩

/-- Of two entries one comes before the other. -/
theorem before_or_before (hx : x ∈ es) (hy : y ∈ es) (hne : x ≠ y) : Before es x y ∨ Before es y x := by
  induction es with
  | nil => cases hx
  | cons z es ih => grind [before_cons]

@[simp] theorem mem_starts : m ∈ starts es ↔ .start m ∈ es := by
  simp only [starts, List.mem_filterMap]
  constructor
  · rintro ⟨e, he, hm⟩
    cases e <;> simp_all
  · exact fun h => ⟨_, h, rfl⟩

theorem starts_cons_start : starts (.start m :: es) = m :: starts es := rfl

theorem starts_cons_commit : starts (.commit m :: es) = starts es := rfl

theorem starts_append : starts (es ++ fs) = starts es ++ starts fs :=
  List.filterMap_append

namespace BalancedBrackets

/-- What is started is committed, and the other way round. -/
theorem start_mem_iff (h : BalancedBrackets es) : .start m ∈ es ↔ .commit m ∈ es := by
  induction h with
  | nil => simp
  | node x _ _ hi hr => simp [hi, hr, or_left_comm]

theorem append (h : BalancedBrackets es) (h' : BalancedBrackets fs) :
    BalancedBrackets (es ++ fs) := by
  induction h with
  | nil => exact h'
  | node m hinside _ _ ih => simpa using node m hinside ih

end BalancedBrackets

/-! ## What encloses what -/

/-- The brackets of one node around others. -/
def bracketed (m : Marker) (es : List Entry) : List Entry := .start m :: (es ++ [.commit m])

theorem node_eq (m : Marker) (inside rest : List Entry) :
    .start m :: (inside ++ .commit m :: rest) = bracketed m inside ++ rest := by
  simp [bracketed]

theorem BalancedBrackets.bracketed (h : BalancedBrackets es) (m : Marker) :
    BalancedBrackets (bracketed m es) :=
  .node m h .nil

section SideBySide

variable (hd : (es ++ fs).Nodup)
include hd

theorem encloses_append_left (hes : BalancedBrackets es) (ha : .start a ∈ es)
    (hb : .start b ∈ es) : Encloses (es ++ fs) a b ↔ Encloses es a b := by
  have hca := hes.start_mem_iff.1 ha
  have hcb := hes.start_mem_iff.1 hb
  unfold Encloses
  grind [before_append, Before.mem]

theorem encloses_append_right (hfs : BalancedBrackets fs) (ha : .start a ∈ fs)
    (hb : .start b ∈ fs) : Encloses (es ++ fs) a b ↔ Encloses fs a b := by
  have hca := hfs.start_mem_iff.1 ha
  have hcb := hfs.start_mem_iff.1 hb
  unfold Encloses
  grind [before_append, Before.mem]

/-- Of two nodes side by side neither encloses the other. -/
theorem not_encloses_of_mem (hes : BalancedBrackets es) (hfs : BalancedBrackets fs)
    (ha : .start a ∈ es) (hb : .start b ∈ fs) :
    ¬ Encloses (es ++ fs) a b ∧ ¬ Encloses (es ++ fs) b a := by
  have hca := hes.start_mem_iff.1 ha
  have hcb := hfs.start_mem_iff.1 hb
  unfold Encloses
  grind [before_append, Before.mem]

end SideBySide

section Around

theorem encloses_outer (hes : BalancedBrackets es) (ha : .start a ∈ es) :
    Encloses (bracketed m es) m a := by
  have hc := hes.start_mem_iff.1 ha
  unfold Encloses bracketed
  grind [before_cons, before_append, Before.mem]

variable (hd : (bracketed m es).Nodup)
include hd

theorem not_encloses_outer : ¬ Encloses (bracketed m es) a m := by
  rintro ⟨h, -⟩
  unfold bracketed at *
  grind [before_cons, before_append, Before.mem]

theorem encloses_bracketed (hes : BalancedBrackets es) (ha : .start a ∈ es)
    (hb : .start b ∈ es) : Encloses (bracketed m es) a b ↔ Encloses es a b := by
  have hca := hes.start_mem_iff.1 ha
  have hcb := hes.start_mem_iff.1 hb
  unfold Encloses bracketed at *
  grind [before_cons, before_append, Before.mem]

end Around

/-- Without the first node the others enclose each other as before. -/
theorem encloses_node {inside rest : List Entry}
    (hd : (Entry.start m :: (inside ++ .commit m :: rest)).Nodup)
    (hes : BalancedBrackets (inside ++ rest)) (ha : .start a ∈ inside ++ rest)
    (hb : .start b ∈ inside ++ rest) :
    Encloses (.start m :: (inside ++ .commit m :: rest)) a b ↔ Encloses (inside ++ rest) a b := by
  have hca := hes.start_mem_iff.1 ha
  have hcb := hes.start_mem_iff.1 hb
  unfold Encloses
  grind [before_cons, before_append, Before.mem]

end

namespace MarkerLog

/-- The position that a start or a commitment stands for. -/
def position (log : MarkerLog) : Entry → Nat
  | .start m => log.start m
  | .commit m => log.stop m
  | .drop .. => 0

/-- The brackets of the log are balanced, and their positions never go back. -/
structure WellNested (log : MarkerLog) : Prop where
  balanced : BalancedBrackets log.brackets
  ascending : (log.brackets.map log.position).Pairwise (· ≤ ·)

variable {log : MarkerLog}

/-- The brackets `es` are balanced and lead from position `q` on to `q'`. -/
inductive Ascent (log : MarkerLog) : Nat → List Entry → Nat → Prop where
  | nil (q : Nat) : Ascent log q [] q
  | node (m : Marker) {inside rest : List Entry} {q q₁ q₂ : Nat} (hstart : q ≤ log.start m)
    (hinside : Ascent log (log.start m) inside q₁) (hstop : q₁ ≤ log.stop m)
    (hrest : Ascent log (log.stop m) rest q₂) :
    Ascent log q (.start m :: (inside ++ .commit m :: rest)) q₂

/-- A node does not end before it starts. -/
theorem exists_ascent {es : List Entry} (hb : BalancedBrackets es) {q : Nat}
    (hp : (q :: es.map log.position).Pairwise (· ≤ ·)) :
    ∃ q' ∈ q :: es.map log.position, Ascent log q es q' := by
  induction hb generalizing q with
  | nil => exact ⟨q, by simp, .nil q⟩
  | node m _ _ hi hr =>
    simp only [List.map_cons, List.map_append, List.pairwise_cons, List.pairwise_append,
      position] at hp
    obtain ⟨hq, hm, hinside, ⟨hc, hrest⟩, hacross⟩ := hp
    obtain ⟨q₁, hq₁, hi⟩ := hi (List.pairwise_cons.2
      ⟨fun x hx => hm x (List.mem_append_left _ hx), hinside⟩)
    obtain ⟨q₂, hq₂, hr⟩ := hr (List.pairwise_cons.2 ⟨hc, hrest⟩)
    have hstop : q₁ ≤ log.stop m := by
      rcases List.mem_cons.1 hq₁ with rfl | hq₁
      · exact hm _ (List.mem_append_right _ List.mem_cons_self)
      · exact hacross _ hq₁ _ List.mem_cons_self
    refine ⟨q₂, ?_, .node m (hq _ List.mem_cons_self) hi hstop hr⟩
    simp only [List.map_cons, List.map_append, position]
    grind

theorem WellNested.ascent (h : log.WellNested) {es : List Entry} (hb : BalancedBrackets es)
    (hs : es.Sublist log.brackets) : ∃ q, Ascent log 0 es q := by
  have hp := h.ascending.sublist (hs.map log.position)
  obtain ⟨q, -, hq⟩ := exists_ascent (q := 0) hb (List.pairwise_cons.2 ⟨by simp, hp⟩)
  exact ⟨q, hq⟩

theorem Sound.nodup_brackets (h : log.Sound) : log.brackets.Nodup := by
  refine List.nodup_iff_count.2 fun e => ?_
  refine Nat.le_trans ?_ (h.count_le_one e)
  rw [← List.count_reverse (l := log.entries)]
  exact List.filter_sublist.count_le e

end MarkerLog

end Descent
