import Descent.Proofs.Session.Siblings
import Mathlib.Algebra.GroupWithZero.Nat
import Mathlib.Algebra.Order.BigOperators.Group.Finset
import Mathlib.Algebra.Order.BigOperators.Group.List
import Mathlib.Data.List.TakeWhile
import Mathlib.Data.Nat.Log
import Mathlib.Order.Interval.Finset.Nat

/-!
# Generations of chunks

With no region open, no full run of chunks of one generation is left at the beginning of a round. If
moreover no region was opened behind a full run, the generations ascend from the latest chunk on, each of
them is there less often than makes a full run, and there are no more chunks than the logarithm of the
number of rounds allows (`Session.chunks_balanced`).

Behind a full run it is different: right after a region was opened nothing is within reach, so the run stays
as it is, and when the region is closed there may be one chunk too many for it.
-/

namespace Descent

/-! ## Runs of one generation -/

namespace Grouping

variable {k n h : Nat} {x : Chunk} {cs pre rest : List Chunk} {c : Grouping}

/-- The first chunks that are of one generation. -/
def leadingRun : List Chunk → List Chunk
  | [] => []
  | x :: cs => (x :: cs).takeWhile (·.generation == x.generation)

theorem latestRun_of_flat (hregions : c.regions = []) : c.latestRun = leadingRun c.chunks := by
  have hboundary : c.boundary = none := by
    rw [boundary, hregions]
    rfl
  have hbefore (y : Chunk) : (some y.marker != c.boundary) = true := by
    rw [hboundary]
    rfl
  unfold latestRun leadingRun
  simp only [hbefore, Bool.and_true]
  cases c.chunks <;> rfl

theorem leadingRun_cons_of_eq {y : Chunk} (h : x.generation = y.generation) :
    leadingRun (x :: y :: cs) = x :: leadingRun (y :: cs) := by
  rw [leadingRun, leadingRun, List.takeWhile_cons_of_pos (by simp), h]

theorem generation_of_mem_leadingRun {y : Chunk} (hy : y ∈ leadingRun (x :: cs)) :
    y.generation = x.generation := by
  simpa using List.mem_takeWhile_imp hy

/-- No full run of one generation is among the chunks. -/
def Sparse (k : Nat) (cs : List Chunk) : Prop :=
  ∀ h, ¬List.replicate k h <:+: cs.map (·.generation)

theorem Sparse.suffix (hcs : Sparse k cs) (hrest : rest <:+ cs) : Sparse k rest :=
  fun h hrun => hcs h (hrun.trans (hrest.map _).isInfix)

theorem length_le_of_replicate_prefix (hrun : List.replicate k h <+: cs.map (·.generation)) :
    k ≤ (cs.takeWhile (·.generation == h)).length := by
  induction k generalizing cs with
  | zero => exact Nat.zero_le _
  | succ k ih =>
    cases cs with
    | nil => exact absurd (List.prefix_nil.1 hrun) (List.cons_ne_nil _ _)
    | cons x cs =>
      rw [List.replicate_succ, List.map_cons, List.cons_prefix_cons] at hrun
      rw [List.takeWhile_cons_of_pos (by simp [hrun.1]), List.length_cons]
      exact Nat.succ_le_succ (ih hrun.2)

theorem Sparse.cons (hk : 0 < k) (hcs : Sparse k cs) (hlead : (leadingRun (x :: cs)).length < k) :
    Sparse k (x :: cs) := by
  intro h hrun
  rcases List.infix_cons_iff.1 hrun with hprefix | hinfix
  · obtain ⟨k, rfl⟩ : ∃ j, k = j + 1 := ⟨k - 1, by omega⟩
    have hx : h = x.generation := by
      rw [List.replicate_succ] at hprefix
      exact (List.cons_prefix_cons.1 hprefix).1
    have hle : k + 1 ≤ ((x :: cs).takeWhile (·.generation == h)).length :=
      length_le_of_replicate_prefix hprefix
    rw [hx] at hle
    exact absurd hlead (Nat.not_lt.2 hle)
  · exact hcs h hinfix

/-- It is enough that the first run is not full, if no other one is. -/
theorem Sparse.of_leadingRun (hk : 0 < k) (hpre : ∀ x ∈ pre, x.generation = h) (hrest : Sparse k rest)
    (hlead : (leadingRun (pre ++ rest)).length < k) : Sparse k (pre ++ rest) := by
  induction pre with
  | nil => exact hrest
  | cons x pre ih =>
    obtain ⟨hx, hpre⟩ := List.forall_mem_cons.1 hpre
    cases pre with
    | nil => exact hrest.cons hk hlead
    | cons y pre =>
      refine (ih hpre ?_).cons hk hlead
      rw [List.cons_append, List.cons_append, leadingRun_cons_of_eq (hx.trans (hpre y
        List.mem_cons_self).symm), List.length_cons] at hlead
      rw [List.cons_append]
      omega

end Grouping

namespace Session

open Grouping (leadingRun Sparse)

variable {g : Setup} {c : Grouping} {s : Session} {kind : Kind}

theorem length_leadingRun_foldFull (hregions : c.regions = []) (kind : Kind) (s : Session) :
    (leadingRun (s.foldFull g kind c).1.chunks).length < g.limits.fanOut := by
  obtain ⟨chunks, heq, -⟩ := exists_foldFull g kind c s
  have hlead := (foldRounds_eq_foldFull (g := g) kind c s).2
  rwa [Grouping.latestRun_of_flat (by rw [heq]; exact hregions)] at hlead

/-- What may be in front of a region: at most one chunk, of the first generation, behind no full run. -/
def SparseBase (k : Nat) (cs : List Chunk) : Prop :=
  ∃ pre rest, cs = pre ++ rest ∧ pre.length ≤ 1 ∧ (∀ x ∈ pre, x.generation = 1) ∧ Sparse k rest

/-- Folding leaves no full run. -/
theorem balances_sparse (g : Setup) (kind : Kind) :
    Balances g kind (fun _ => True) (fun _ => Sparse g.limits.fanOut)
      fun _ => SparseBase g.limits.fanOut where
  none := by
    intro h hrun
    have hsize := g.limits.fanOut_ge
    have hle := hrun.length_le
    rw [List.length_replicate] at hle
    exact absurd hle (by simp; omega)
  mono _ h := h
  opens h := ⟨[], _, rfl, Nat.zero_le 1, List.forall_mem_nil _, h⟩
  pushes m h _ := ⟨[⟨m, 1⟩], _, rfl, Nat.le_refl 1, fun x hx => by rw [List.mem_singleton.1 hx], h⟩
  folds := by
    intro n cs c m s hbase hregions hchunks
    have hsize := g.limits.fanOut_ge
    obtain ⟨pre, rest, rfl, hlength, hpre, hrest⟩ := hbase
    -- what is in front of a part without full runs is of one generation and no more than a full run
    have hfolded := foldFull_induction kind (g := g) (motive := fun c' _ => ∃ h pre rest,
      c'.chunks = pre ++ rest ∧ pre.length ≤ g.limits.fanOut ∧ (∀ x ∈ pre, x.generation = h) ∧
        Sparse g.limits.fanOut rest) ?_ (c := c) (s := s)
      ⟨1, ⟨m, 1⟩ :: pre, rest, hchunks, by rw [List.length_cons]; omega,
        List.forall_mem_cons.2 ⟨rfl, hpre⟩, hrest⟩
    · obtain ⟨h, pre, rest, heq, -, hpre, hrest⟩ := hfolded
      have hlead := length_leadingRun_foldFull (g := g) hregions kind s
      rw [heq] at hlead ⊢
      exact .of_leadingRun (by omega) hpre hrest hlead
    · rintro c' s' xs x rest' ⟨h, pre, rest, heq, hle, -, hrest⟩ hxs hfull -
      refine ⟨x.generation + 1, [⟨s'.log.fresh, x.generation + 1⟩], rest', rfl, by simp; omega,
        fun y hy => by rw [List.mem_singleton.1 hy], hrest.suffix ?_⟩
      have hdrop : rest' = (pre ++ rest).drop g.limits.fanOut := by
        rw [← heq, hxs, ← hfull, List.drop_append]
        simp
      rw [hdrop, List.drop_append, List.drop_eq_nil_of_le hle, List.nil_append]
      exact List.drop_suffix ..

end Session

/-! ## Ascending generations -/

namespace Grouping

variable {k n h : Nat} {x : Chunk} {cs run rest : List Chunk}

/-- What a chunk of each generation stands for, if one of the first stands for one round. -/
def weight (k : Nat) (cs : List Chunk) : Nat := (cs.map fun x => k ^ (x.generation - 1)).sum

theorem weight_cons (k : Nat) (x : Chunk) (cs : List Chunk) :
    weight k (x :: cs) = k ^ (x.generation - 1) + weight k cs := by
  rw [weight, weight, List.map_cons, List.sum_cons]

theorem weight_append (k : Nat) (cs rest : List Chunk) :
    weight k (cs ++ rest) = weight k cs + weight k rest := by
  rw [weight, weight, weight, List.map_append, List.sum_append]

/-- A full run stands for as much as the chunk that it is wrapped in. -/
theorem weight_of_generation (hpos : 1 ≤ h) (hcs : ∀ y ∈ cs, y.generation = h)
    (hlength : cs.length = k) : weight k cs = k ^ h := by
  have hmap : cs.map (fun x => k ^ (x.generation - 1)) = List.replicate k (k ^ (h - 1)) :=
    List.eq_replicate_iff.2 ⟨(List.length_map _).trans hlength, fun a ha => by
      obtain ⟨y, hy, rfl⟩ := List.mem_map.1 ha
      rw [hcs y hy]⟩
  rw [weight, hmap, List.sum_replicate_nat, ← Nat.pow_succ']
  congr 1
  omega

/-- The generations ascend from the latest chunk on, and no full run could be made of any of them. The
chunks stand for no more rounds than so many. -/
structure Ascending (k n : Nat) (cs : List Chunk) : Prop where
  ascending : (cs.map (·.generation)).Pairwise (· ≤ ·)
  count : ∀ h, (cs.map (·.generation)).count h < k
  positive : ∀ x ∈ cs, 1 ≤ x.generation
  weight : weight k cs ≤ n

/-- In ascending generations all that are the first one are in the leading run. -/
theorem count_eq_length_leadingRun (h : ((x :: cs).map (·.generation)).Pairwise (· ≤ ·)) :
    ((x :: cs).map (·.generation)).count x.generation = (leadingRun (x :: cs)).length := by
  have hall (l : List Chunk) (hl : (l.map (·.generation)).Pairwise (· ≤ ·))
      (hge : ∀ y ∈ l, x.generation ≤ y.generation) : (l.map (·.generation)).count x.generation =
        (l.takeWhile (·.generation == x.generation)).length := by
    induction l with
    | nil => rfl
    | cons y l ih =>
      obtain ⟨hy, hl⟩ := List.pairwise_cons.1 hl
      obtain ⟨hxy, hge⟩ := List.forall_mem_cons.1 hge
      by_cases heq : y.generation = x.generation
      · rw [List.map_cons, heq, List.count_cons_self, List.takeWhile_cons_of_pos (by simp [heq]),
          List.length_cons, ih hl hge]
      · rw [List.takeWhile_cons_of_neg (by simp [heq]), List.length_nil, List.count_eq_zero]
        intro hmem
        rcases List.mem_cons.1 hmem with hmem | hmem
        · exact heq hmem.symm
        · have hle : y.generation ≤ x.generation := hy _ hmem
          omega
  refine hall (x :: cs) h (List.forall_mem_cons.2 ⟨Nat.le_refl _, fun y hy => ?_⟩)
  exact (List.pairwise_cons.1 h).1 _ (List.mem_map_of_mem hy)

/-- Logarithmically many chunks are enough. -/
theorem Ascending.length_le (hk : 1 < k) (h : Ascending k n cs) :
    cs.length ≤ (k - 1) * (Nat.log k n + 1) := by
  have hbound : ∀ a ∈ (cs.map (·.generation)).toFinset, a ∈ Finset.Icc 1 (Nat.log k n + 1) := by
    intro a ha
    obtain ⟨x, hx, rfl⟩ := List.mem_map.1 (List.mem_toFinset.1 ha)
    have hpos := h.positive x hx
    have hpow : k ^ (x.generation - 1) ≤ n := by
      refine Nat.le_trans ?_ h.weight
      exact List.single_le_sum (fun _ _ => Nat.zero_le _) _ (List.mem_map_of_mem hx)
    have hlog := Nat.le_log_of_pow_le hk hpow
    exact Finset.mem_Icc.2 ⟨hpos, by omega⟩
  calc cs.length = (cs.map (·.generation)).length := (List.length_map _).symm
    _ = ∑ a ∈ (cs.map (·.generation)).toFinset, (cs.map (·.generation)).count a :=
        (List.sum_toFinset_count_eq_length _).symm
    _ ≤ (cs.map (·.generation)).toFinset.card * (k - 1) := by
        refine Finset.sum_le_card_nsmul _ _ _ fun a _ => ?_
        have hlt := h.count a
        omega
    _ ≤ (Nat.log k n + 1) * (k - 1) := by
        refine Nat.mul_le_mul_right _ ?_
        have hcard := Finset.card_le_card hbound
        rwa [Nat.card_Icc, Nat.add_sub_cancel] at hcard
    _ = (k - 1) * (Nat.log k n + 1) := Nat.mul_comm ..

theorem Ascending.suffix (hcs : Ascending k n cs) (hrest : rest <:+ cs) : Ascending k n rest where
  ascending := hcs.ascending.sublist (hrest.map _).sublist
  count h := Nat.lt_of_le_of_lt ((hrest.map _).sublist.count_le h) (hcs.count h)
  positive x hx := hcs.positive x (hrest.subset hx)
  weight := by
    refine Nat.le_trans ?_ hcs.weight
    obtain ⟨later, rfl⟩ := hrest
    rw [weight_append]
    exact Nat.le_add_left ..

/-- A chunk in front of ascending generations. It may make a full run with the first of them, which is then
folded: this is the carry of a counter. -/
structure Carries (k n : Nat) (x : Chunk) (cs : List Chunk) : Prop where
  positive : 1 ≤ x.generation
  le : ∀ y ∈ cs, x.generation ≤ y.generation
  behind : Ascending k n cs
  weight : Grouping.weight k (x :: cs) ≤ n

theorem Ascending.push (h : Ascending k n cs) (m : Marker) : Carries k (n + 1) ⟨m, 1⟩ cs where
  positive := Nat.le_refl 1
  le := h.positive
  behind := { h with weight := Nat.le_succ_of_le h.weight }
  weight := by
    rw [weight_cons, Nat.add_comm]
    exact Nat.add_le_add h.weight (Nat.le_refl 1)

/-- Where there is no full run, there is no more to carry. -/
theorem Carries.settles (h : Carries k n x cs) (hlead : (leadingRun (x :: cs)).length < k) :
    Ascending k n (x :: cs) := by
  have hascending : ((x :: cs).map (·.generation)).Pairwise (· ≤ ·) := by
    refine List.pairwise_cons.2 ⟨fun a ha => ?_, h.behind.ascending⟩
    obtain ⟨y, hy, rfl⟩ := List.mem_map.1 ha
    exact h.le y hy
  refine ⟨hascending, fun a => ?_, List.forall_mem_cons.2 ⟨h.positive, h.behind.positive⟩, h.weight⟩
  by_cases hx : x.generation = a
  · rw [← hx, count_eq_length_leadingRun hascending]
    exact hlead
  · rw [List.map_cons, List.count_cons_of_ne hx]
    exact h.behind.count a

/-- Behind a full run that begins with the first chunk, all are of later generations. -/
theorem Carries.lt_of_full (h : Carries k n x cs) (hcs : x :: cs = run ++ rest)
    (hrun : ∀ y ∈ run, y.generation = x.generation) (hlength : run.length = k)
    (hrest : rest <:+ cs) : ∀ y ∈ rest, x.generation + 1 ≤ y.generation := by
  have htotal := congrArg (fun l => (l.map (·.generation)).count x.generation) hcs
  have hmany : (run.map (·.generation)).count x.generation = k := by
    rw [List.count_eq_length.2 fun a ha => ?_, List.length_map, hlength]
    obtain ⟨y, hy, rfl⟩ := List.mem_map.1 ha
    exact (hrun y hy).symm
  rw [List.map_cons, List.count_cons_self, List.map_append, List.count_append, hmany] at htotal
  -- less than a full run was behind the first chunk
  have hfew := h.behind.count x.generation
  have hnone : x.generation ∉ rest.map (·.generation) := List.count_eq_zero.1 (by omega)
  intro y hy
  have hle := h.le y (hrest.subset hy)
  have hne : x.generation ≠ y.generation := fun heq => hnone (heq ▸ List.mem_map_of_mem hy)
  omega

/-- A full run is wrapped in one chunk of the next generation, which is carried on. -/
theorem Carries.wrap (hk : 0 < k) (h : Carries k n x cs) (hcs : x :: cs = run ++ rest)
    (hrun : ∀ y ∈ run, y.generation = x.generation) (hlength : run.length = k) (m : Marker) :
    Carries k n ⟨m, x.generation + 1⟩ rest := by
  have hrest : rest <:+ cs := by
    obtain ⟨y, ys, rfl⟩ := List.exists_cons_of_ne_nil (List.ne_nil_of_length_pos (hlength ▸ hk))
    exact ⟨ys, (List.cons.inj hcs).2.symm⟩
  refine ⟨Nat.succ_pos _, h.lt_of_full hcs hrun hlength hrest, h.behind.suffix hrest, ?_⟩
  calc Grouping.weight k (⟨m, x.generation + 1⟩ :: rest)
    _ = k ^ x.generation + Grouping.weight k rest := weight_cons ..
    _ = Grouping.weight k run + Grouping.weight k rest := by
        rw [weight_of_generation h.positive hrun hlength]
    _ = Grouping.weight k (x :: cs) := by rw [hcs, weight_append]
    _ ≤ n := h.weight

end Grouping

namespace Session

open Grouping (leadingRun Ascending Carries)

/-- Where no region is opened behind a full run, folding carries like a counter. -/
theorem balances_ascending (g : Setup) (kind : Kind) :
    Balances g kind (fun cs => (leadingRun cs).length < g.limits.fanOut)
      (Ascending g.limits.fanOut) (Ascending g.limits.fanOut) where
  none := by
    have hsize := g.limits.fanOut_ge
    exact ⟨.nil, fun h => by simp; omega, List.forall_mem_nil _, Nat.le_refl 0⟩
  mono hle h := { h with weight := Nat.le_trans h.weight hle }
  opens h := h
  pushes m h hlead := (h.push m).settles hlead
  folds := by
    intro n cs c m s hbase hregions hchunks
    have hsize := g.limits.fanOut_ge
    have hfolded := foldFull_induction kind (g := g) (motive := fun c' _ =>
      c'.regions = [] ∧ ∃ x rest, c'.chunks = x :: rest ∧ Carries g.limits.fanOut (n + 1) x rest)
      ?_ (c := c) (s := s) ⟨hregions, ⟨m, 1⟩, cs, hchunks, hbase.push m⟩
    · obtain ⟨-, x, rest, heq, hcarries⟩ := hfolded
      have hlead := length_leadingRun_foldFull (g := g) hregions kind s
      rw [heq] at hlead ⊢
      exact hcarries.settles hlead
    · rintro c' s' xs x' rest' ⟨hfree, x, rest, heq, hcarries⟩ hxs hfull hprefix
      have hcs : x :: rest = (xs ++ [x']) ++ rest' := by rw [← heq, hxs]; simp
      -- the run that is wrapped is of the first generation
      have hrun : ∀ y ∈ xs ++ [x'], y.generation = x.generation := by
        intro y hy
        have hmem := hprefix.subset hy
        rw [Grouping.latestRun_of_flat hfree, heq] at hmem
        exact Grouping.generation_of_mem_leadingRun hmem
      refine ⟨hfree, _, rest', rfl, ?_⟩
      rw [hrun x' (by simp)]
      exact hcarries.wrap (by omega) hcs hrun (by simpa using hfull) _

variable {g : Setup} {run : Runner} {pair? : Option Delimiters} {c : Grouping} {s t : Session}
  {item eatMore : RuleRef} {kind : Kind} {level n : Nat}

/-- With no region open, there is no full run of one generation. If no region was opened behind one, then
no generation is there so often as to make one, and the chunks are logarithmically many. -/
theorem chunks_balanced (hrun : run.Leads)
    (h : Turns (groupTurn g run level kind pair? item eatMore) n
      ({ regions := (s.firstRegions g pair?).1 }, (s.firstRegions g pair?).2) (c, t))
    (hregions : c.regions = []) :
    (∀ h, ¬List.replicate g.limits.fanOut h <:+: c.chunks.map (·.generation)) ∧
      ((∀ m x, m < n → Turns (groupTurn g run level kind pair? item eatMore) m
          ({ regions := (s.firstRegions g pair?).1 }, (s.firstRegions g pair?).2) x →
            OpensBehind g kind pair? (fun cs => (leadingRun cs).length < g.limits.fanOut) x) →
        (c.chunks.map (·.generation)).Pairwise (· ≤ ·) ∧
          (∀ h, (c.chunks.map (·.generation)).count h < g.limits.fanOut) ∧
          c.chunks.length ≤ (g.limits.fanOut - 1) * (Nat.log g.limits.fanOut n + 1)) := by
  have hsparse := siblings_of_turns (balances_sparse g kind) hrun h fun _ _ _ _ _ _ _ _ _ => trivial
  refine ⟨(hsparse.flat hregions).choose_spec.2, fun hallowed => ?_⟩
  have hascending := siblings_of_turns (balances_ascending g kind) hrun h hallowed
  obtain ⟨m, hm, hflat⟩ := hascending.flat hregions
  have hweight : Ascending g.limits.fanOut n c.chunks :=
    { hflat with weight := Nat.le_trans hflat.weight (Nat.le_trans (Nat.le_add_right _ _) hm) }
  exact ⟨hflat.ascending, hflat.count, hweight.length_le g.limits.fanOut_ge⟩

/-- Words in round brackets, and two items make a chunk. -/
def wordsByTwo (text : String) (kinds : List UInt16) : Setup :=
  { inBrackets text kinds [] with limits := Limits.withFanOut default 2 }

/-- A round of grouping all tokens. -/
def wordsTurn (g : Setup) :
    Grouping × Session → Option (Turn (Grouping × Session) (Grouping × Session)) :=
  groupTurn g (Grammar.runRef g (Grammar.eval g 6)) 0 .chunk (some ⟨⟨8⟩, ⟨9⟩⟩) .advance .always

/-- The region in `a(x)ab` was opened behind a chunk that makes no full run, and so all is well. -/
theorem chunks_balanced_apart :
    let g := wordsByTwo "a(x)ab" [3, 8, 3, 9, 3, 3]
    ∃ c t, Turns (wordsTurn g) 6 ({}, start default none) (c, t) ∧ c.regions = [] ∧
      c.chunks.map (·.generation) = [1, 2] ∧
      (∀ h, (c.chunks.map (·.generation)).count h < 2) ∧ c.chunks.length ≤ Nat.log 2 6 + 1 := by
  intro g
  have heval : (afterRounds (wordsTurn g) 6 ({}, start default none)).map
      (fun x => (x.1.regions, x.1.chunks.map (·.generation))) = some ([], [1, 2]) := by decide +kernel
  obtain ⟨⟨c, t⟩, hx, heq⟩ := Option.map_eq_some_iff.1 heval
  obtain ⟨hregions, hgenerations⟩ : c.regions = [] ∧ c.chunks.map (·.generation) = [1, 2] := by
    simpa using heq
  have hturns := turns_iff_afterRounds.2 hx
  have hopens : ∀ m < 6, ∀ x ∈ afterRounds (wordsTurn g) m ({}, start default none),
      OpensBehind g .chunk (some ⟨⟨8⟩, ⟨9⟩⟩) (fun cs => (leadingRun cs).length < 2) x := by
    decide +kernel
  have hall := chunks_balanced (s := start default none) (Grammar.leads_runRef g 6) hturns hregions
  have hmany := hall.2 fun m x hm hx => hopens m hm x (turns_iff_afterRounds.1 hx)
  exact ⟨c, t, hturns, hregions, hgenerations, hmany.2.1,
    Nat.le_trans hmany.2.2 (Nat.le_of_eq (Nat.one_mul _))⟩

/-- The region in `aba(x)ab` is opened behind two chunks of the first generation. One of them is left
behind when it is closed, and so two chunks of that generation are there in the end. -/
theorem chunks_left_behind :
    let g := wordsByTwo "aba(x)ab" [3, 3, 3, 8, 3, 9, 3, 3]
    ∃ c t, Turns (wordsTurn g) 8 ({}, start default none) (c, t) ∧ c.regions = [] ∧
      g.limits.fanOut ≤ (c.chunks.map (·.generation)).count 1 := by
  intro g
  have heval : (afterRounds (wordsTurn g) 8 ({}, start default none)).map
      (fun x => (x.1.regions, x.1.chunks.map (·.generation))) = some ([], [1, 2, 1]) := by
    decide +kernel
  obtain ⟨⟨c, t⟩, hx, heq⟩ := Option.map_eq_some_iff.1 heval
  obtain ⟨hregions, hgenerations⟩ : c.regions = [] ∧ c.chunks.map (·.generation) = [1, 2, 1] := by
    simpa using heq
  exact ⟨c, t, turns_iff_afterRounds.2 hx, hregions, by rw [hgenerations]; decide⟩

end Session

end Descent
