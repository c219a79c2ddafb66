import Descent.Proofs.Session.Enclosures

/-!
# The books of grouping

While tokens are grouped, there are open regions for just the opening delimiters that are open
(`Ledger.regions`), and the nodes made so far nest (`Ledger.nests`). Each thing that grouping does to its
markers keeps that: a chunk is committed in the innermost region or when that is closed, and what is folded
came in it.
-/

namespace Descent

/-- Where a run of grouping begins: the opening delimiter in front of it that counts as open, if any, and
the number of markers there are. -/
structure Outset (g : Setup) where
  pair : Delimiters
  differ : pair.opening ≠ pair.closing
  first : List Nat
  position : Nat
  before : ∀ i ∈ first, g.before? position = some i
  size : Nat

namespace Outset

variable {g : Setup} {o : Outset g} {q q' : Nat}

/-- How the delimiters match up to a position. -/
def matching (o : Outset g) (q : Nat) : Matching := g.matching o.pair o.first o.position q

theorem matching_congr (h : g.significant q = g.significant q') : o.matching q = o.matching q' :=
  Setup.matching_congr h

theorem matching_succ (hp : o.position ≤ q) (hq : g.isTriviaAt q = false) :
    o.matching (q + 1) = (o.matching q).step o.pair q (g.source.kind? q) :=
  Setup.matching_succ hp hq

end Outset

namespace Grouping

/-- The markers that are not part of a chunk, the latest first. -/
def tops (c : Grouping) (stack : List Marker) : List Marker := c.current.toList ++ stack

/-- The markers that are open. -/
def opens (c : Grouping) : List Marker := c.current.toList ++ c.regions.map (·.marker)

end Grouping

/-- What grouping has made of the tokens up to `q`, where its markers begin before `n` and its nodes end by
then: its markers are layered, its nodes nest, and the open regions are those of the opening delimiters
that are open. -/
structure Ledger {g : Setup} (o : Outset g) (asked : Marker → Prop) (made stack : List Marker) (n q : Nat)
    (c : Grouping) (log : MarkerLog) : Prop where
  layered : Grouping.Layered (fun _ => True) c.regions c.chunks stack
  chunks : ∀ x ∈ c.chunks, x.marker ∈ made
  marked : Marked o.size asked log made c.opens
  nests : Nests g o.pair log n (o.matching q).pairs made (c.tops stack) c.opens
  within : ∀ x ∈ c.tops stack, o.position ≤ log.start x ∨ log.start x ∈ o.first
  regions : c.regions.map (fun r => log.start r.marker) = (o.matching q).opened

namespace Ledger

variable {g : Setup} {o : Outset g} {asked asked' : Marker → Prop} {made stack : List Marker}
  {n q q' : Nat} {c : Grouping} {log log' : MarkerLog} {region : Region} {regions : List Region} {x : Chunk}
  {xs rest : List Chunk} {m : Marker} {a i : Nat}

theorem mono (h : Ledger o asked made stack n q c log) (hn : n ≤ q') :
    Ledger o asked made stack q' q c log :=
  { h with nests := h.nests.mono hn }

theorem congr_position (h : Ledger o asked made stack n q c log)
    (hq : g.significant q = g.significant q') : Ledger o asked made stack n q' c log := by
  have hsame := o.matching_congr hq
  exact { h with nests := hsame ▸ h.nests, regions := hsame ▸ h.regions }

/-- With no chunk that items are added to, all markers are in the layers. -/
theorem idle_iff (hcurrent : c.current = none) : Ledger o asked made stack n q c log ↔
    Grouping.Layered (fun _ => True) c.regions c.chunks stack ∧ (∀ x ∈ c.chunks, x.marker ∈ made) ∧
      Marked o.size asked log made (c.regions.map (·.marker)) ∧
      Nests g o.pair log n (o.matching q).pairs made stack (c.regions.map (·.marker)) ∧
      (∀ x ∈ stack, o.position ≤ log.start x ∨ log.start x ∈ o.first) ∧
      c.regions.map (fun r => log.start r.marker) = (o.matching q).opened := by
  have htops : c.tops stack = stack := by rw [Grouping.tops, hcurrent]; rfl
  have hopens : c.opens = c.regions.map (·.marker) := by rw [Grouping.opens, hcurrent]; rfl
  rw [← hopens]
  constructor
  · rintro ⟨hlayered, hchunks, hmarked, hnests, hwithin, hregions⟩
    rw [htops] at hnests hwithin
    exact ⟨hlayered, hchunks, hmarked, hnests, hwithin, hregions⟩
  · rintro ⟨hlayered, hchunks, hmarked, hnests, hwithin, hregions⟩
    rw [← htops] at hnests hwithin
    exact ⟨hlayered, hchunks, hmarked, hnests, hwithin, hregions⟩

theorem mem_of_top (h : Ledger o asked made stack n q c log) (hm : m ∈ c.tops stack) :
    m ∈ made ∨ m ∈ c.opens := by
  rcases List.mem_append.1 hm with hm | hm
  · exact .inr (List.mem_append_left _ hm)
  · rcases h.layered.exists_of_mem hm with ⟨x, hx, rfl⟩ | ⟨r, hr, rfl⟩
    · exact .inl (h.chunks x hx)
    · exact .inr (List.mem_append_right _ (List.mem_map_of_mem hr))

theorem lt_of_top (h : Ledger o asked made stack n q c log) (hm : m ∈ c.tops stack) :
    m.number < log.markers.size :=
  (h.mem_of_top hm).elim h.marked.lt_of_made h.marked.lt_of_open

/-- It depends on the log by what is known of these markers. -/
theorem congr_log (h : Ledger o asked made stack n q c log)
    (hmarked : Marked o.size asked' log' made c.opens)
    (hinfo : ∀ m, m ∈ made ∨ m ∈ c.opens → log'.info? m = log.info? m) :
    Ledger o asked' made stack n q c log' := by
  have hstart (m : Marker) (hm : m ∈ c.tops stack) : log'.start m = log.start m :=
    MarkerLog.start_congr (hinfo m (h.mem_of_top hm))
  refine ⟨h.layered, h.chunks, hmarked, h.nests.congr (fun m hm => hinfo m (.inl hm)) hstart,
    fun m hm => ?_, ?_⟩
  · rw [hstart m hm]
    exact h.within m hm
  · rw [← h.regions]
    refine List.map_congr_left fun r hr => hstart _ ?_
    exact List.mem_append_right _ (h.layered.mem_of_region hr)

/-- Behind the open regions all delimiters are closed. -/
theorem closed (h : Ledger o asked made stack n q c log) (hp : o.position ≤ q)
    (ha : o.position ≤ a ∨ a ∈ o.first) (hregions : ∀ r ∈ c.regions, log.start r.marker < a)
    (hi : i ∈ g.significantIn a q) (hkind : g.source.kind? i = some o.pair.opening) :
    ∃ j ∈ g.significantIn a q, (i, j) ∈ (o.matching q).pairs := by
  refine Setup.closed_of_matching o.before hp ha (fun b hb => ?_) hi hkind
  have hmem : b ∈ c.regions.map fun r => log.start r.marker := h.regions ▸ hb
  obtain ⟨r, hr, rfl⟩ := List.mem_map.1 hmem
  exact hregions r hr

/-! ## Beginnings -/

theorem of_nothing (hfirst : o.first = []) (hsize : o.size = log.markers.size)
    (hasked : ∀ m, ¬asked m) : Ledger o asked [] [] o.position o.position {} log := by
  have hbegin : o.matching o.position = { opened := [] } := by
    rw [Outset.matching, Setup.matching_self, hfirst]
  refine (idle_iff rfl).2 ⟨.nothing, List.forall_mem_nil _, ?_, ?_, List.forall_mem_nil _, ?_⟩
  · constructor
    case size => exact Nat.le_of_eq hsize
    case nodes => exact List.forall_mem_nil _
    case stages => exact List.forall_mem_nil _
    case known => exact fun m hb hlt => absurd (hsize ▸ hb) (Nat.not_le_of_lt hlt)
    case past => exact fun m hm => absurd hm (hasked m)
  · rw [hbegin]
    exact .nothing ..
  · rw [hbegin]
    rfl

/-- A region is open from an error on that has swallowed the opening delimiter. -/
theorem of_swallowed (hstart : log.start m = i) (hfirst : o.first = [i])
    (hsize : o.size = log.markers.size) (hasked : ∀ m, ¬asked m) :
    Ledger o asked [] [log.fresh] o.position o.position { regions := [⟨log.fresh, none⟩] }
      (log.wrap m).2 := by
  have hbegin : o.matching o.position = { opened := [i] } := by
    rw [Outset.matching, Setup.matching_self, hfirst]
  have hbefore : g.before? o.position = some i := o.before i (hfirst ▸ List.mem_singleton_self i)
  have hfresh : (log.wrap m).2.start log.fresh = i := by
    rw [← hstart]
    simp [MarkerLog.start, MarkerLog.info?, MarkerLog.wrap, MarkerLog.fresh]
  refine (idle_iff rfl).2 ⟨.region log.fresh .nothing fun _ => trivial, List.forall_mem_nil _, ?_, ?_,
    List.forall_mem_singleton.2 (.inr ?_), ?_⟩
  · have hwrap := MarkerLog.size_wrap log m
    constructor
    case size =>
      rw [hwrap, hsize]
      exact Nat.le_succ _
    case nodes => exact List.forall_mem_nil _
    case stages =>
      refine List.forall_mem_singleton.2 ⟨?_, Nat.le_of_eq hsize, hasked _⟩
      rw [MarkerLog.stage?_wrap, if_pos rfl]
    case known =>
      intro m' hb hlt
      rw [hsize] at hb
      rw [hwrap] at hlt
      have heq : m'.number = log.markers.size := by omega
      exact .inr (.inl (List.mem_singleton.2 (Marker.number_inj.1 heq)))
    case past => exact fun m hm => absurd hm (hasked m)
  · rw [hbegin]
    refine .one ?_ ?_
    · rw [hfresh]
      exact Setup.isTriviaAt_of_before? hbefore
    · rw [hfresh]
      exact Setup.before?_lt hbefore
  · rw [hfresh, hfirst]
    exact List.mem_singleton_self i
  · rw [hbegin, ← hfresh]
    rfl

/-! ## Chunks -/

/-- The chunk that items were added to is committed. -/
theorem closeCurrent {s : Session} (h : Ledger o asked made stack n s.position c s.log)
    (hn : n ≤ s.position) (hp : o.position ≤ s.position) (kind : Kind) :
    ∃ made stack, Ledger o asked made stack s.position s.position (s.closeCurrent kind c).1
      (s.closeCurrent kind c).2.log := by
  unfold Session.closeCurrent
  split
  · exact ⟨made, stack, h.mono hn⟩
  · next m hm =>
    have htops : c.tops stack = m :: stack := by rw [Grouping.tops, hm]; rfl
    have hopens : c.opens = m :: c.regions.map (·.marker) := by rw [Grouping.opens, hm]; rfl
    have hmarked := h.marked
    have hnests := h.nests
    have hwithin := h.within
    rw [hopens] at hmarked hnests
    rw [htops] at hnests hwithin
    have hstage := (hmarked.stages m List.mem_cons_self).1
    have hbelow (r : Region) (hr : r ∈ c.regions) : s.log.start r.marker < s.log.start m :=
      (List.pairwise_cons.1 hnests.order).1 _ (h.layered.mem_of_region hr)
    have hnot : m ∉ c.regions.map (·.marker) := fun hmem => by
      obtain ⟨r, hr, rfl⟩ := List.mem_map.1 hmem
      exact Nat.lt_irrefl _ (hbelow r hr)
    have hlog : (s.commitAs m kind).log = s.log.commit m kind none s.position :=
      Session.log_commit ..
    have hstart (x : Marker) := MarkerLog.start_commit hstage kind none s.position x
    rw [hlog]
    refine ⟨m :: made, m :: stack, .chunk ⟨m, 1⟩ h.layered,
      List.forall_mem_cons.2 ⟨List.mem_cons_self, fun x hx => List.mem_cons_of_mem m (h.chunks x hx)⟩,
      hmarked.commit hnot .., ?_, fun x hx => ?_, ?_⟩
    · rw [← List.nil_append (m :: stack)] at hnests
      refine hnests.commit hn hstage
        (fun x hx => hmarked.ne_of_open hx List.mem_cons_self) (fun b hb => ?_)
        (fun i hi hkind => h.closed hp (hwithin m List.mem_cons_self) hbelow hi hkind)
        (List.Subset.refl _) (fun i j hij => .inl hij) kind
      obtain ⟨r, hr, rfl⟩ := List.mem_map.1 hb
      exact h.layered.mem_of_region hr
    · rw [hstart x]
      exact hwithin x hx
    · rw [← h.regions]
      exact List.map_congr_left fun r _ => hstart r.marker

/-- The latest chunks of a run are wrapped. -/
theorem fold (h : Ledger o asked made stack n q c log) (hn : n ≤ q) (hp : o.position ≤ q)
    (hcurrent : c.current = none) (hchunks : c.chunks = xs ++ x :: rest) (hmany : xs ≠ [])
    (hrun : xs ++ [x] <+: c.latestRun) (kind : Kind) :
    ∃ made stack, Ledger o asked made stack q q
      { c with chunks := ⟨log.fresh, x.generation + 1⟩ :: rest }
      (log.enclose x.marker kind none q) := by
  obtain ⟨hlayered, hnodes, hmarked, hnests, hwithin, hopened⟩ := (idle_iff hcurrent).1 h
  obtain ⟨stack', rfl, hwrapped, hregions⟩ :=
    hlayered.fold hchunks hrun ⟨log.fresh, x.generation + 1⟩
  have hrest := (List.pairwise_append.1 hnests.order).2.1
  have hbelow (r : Region) (hr : r ∈ c.regions) : log.start r.marker < log.start x.marker :=
    (List.pairwise_cons.1 hrest).1 _ (hregions r hr)
  have hx : x.marker ∈ xs.map (·.marker) ++ x.marker :: stack' := by simp
  have hlt (m : Marker) (hm : m ∈ xs.map (·.marker) ++ x.marker :: stack') :
      m.number < log.markers.size := h.lt_of_top (List.mem_append_right _ hm)
  have hsame (m : Marker) (hm : m ∈ xs.map (·.marker) ++ x.marker :: stack') :=
    MarkerLog.start_congr (MarkerLog.info?_enclose_of_lt (x := x.marker) (hlt m hm) kind none q)
  have hbegins := (hnests.begins x.marker hx).2
  have hstart : (log.enclose x.marker kind none q).start log.fresh = log.start x.marker :=
    (MarkerLog.span_enclose (by omega) kind none).1
  refine ⟨log.fresh :: made, log.fresh :: stack', (idle_iff (by exact hcurrent)).2 ⟨hwrapped,
    List.forall_mem_cons.2 ⟨List.mem_cons_self, fun y hy => List.mem_cons_of_mem _ (hnodes y ?_)⟩,
    hmarked.enclose x.marker kind none q, ?_, List.forall_mem_cons.2 ⟨?_, fun m hm => ?_⟩, ?_⟩⟩
  · rw [hchunks]
    exact List.mem_append_right _ (List.mem_cons_of_mem x hy)
  · refine hnests.enclose hn (fun hnil => hmany (List.map_eq_nil_iff.1 hnil))
      (fun m hm => hmarked.lt_of_made hm) hlt (fun b hb => ?_)
      (fun i hi hkind => h.closed hp (hwithin _ hx) hbelow hi hkind) kind
    obtain ⟨r, hr, rfl⟩ := List.mem_map.1 hb
    exact hregions r hr
  · rw [hstart]
    exact hwithin _ hx
  · have hm : m ∈ xs.map (·.marker) ++ x.marker :: stack' := by simp [hm]
    rw [hsame m hm]
    exact hwithin m hm
  · rw [← hopened]
    exact List.map_congr_left fun r hr => hsame _ (by simp [hregions r hr])

/-- Full runs are wrapped. -/
theorem foldFull {s : Session} (h : Ledger o asked made stack s.position s.position c s.log)
    (hp : o.position ≤ s.position) (hcurrent : c.current = none) (kind : Kind) :
    ∃ made stack, Ledger o asked made stack s.position s.position (s.foldFull g kind c).1
      (s.foldFull g kind c).2.log := by
  have hfolded := Session.foldFull_induction kind (g := g) (motive := fun c' s' =>
    c'.current = none ∧ s'.position = s.position ∧
      ∃ made stack, Ledger o asked made stack s.position s.position c' s'.log) ?_
    (c := c) (s := s) ⟨hcurrent, rfl, made, stack, h⟩
  · exact hfolded.2.2
  rintro c' s' xs x rest ⟨hcurrent, hposition, made, stack, h⟩ hchunks hlength hrun
  have hmany : xs ≠ [] := by
    rintro rfl
    have hsize := g.limits.fanOut_ge
    rw [List.length_nil] at hlength
    omega
  refine ⟨hcurrent, ?_, ?_⟩
  · show (s'.enclose x.marker kind none).position = _
    rw [Session.position_enclose, hposition]
  · show ∃ made stack, Ledger o asked made stack _ _ _ (s'.enclose x.marker kind none).log
    rw [Session.log_enclose, hposition]
    exact h.fold (Nat.le_refl _) hp hcurrent hchunks hmany hrun kind

/-! ## Tokens -/

/-- A token that is minded by nobody is passed. -/
theorem pass (h : Ledger o asked made stack n q c log) (hp : o.position ≤ q)
    (hq : g.isTriviaAt q = false) (hopening : g.source.kind? q ≠ some o.pair.opening)
    (hclosing : g.source.kind? q = some o.pair.closing → c.regions = []) :
    Ledger o asked made stack n (q + 1) c log := by
  have hsame : (o.matching (q + 1)).pairs = (o.matching q).pairs ∧
      (o.matching (q + 1)).opened = (o.matching q).opened := by
    rw [Outset.matching_succ hp hq]
    by_cases hc : g.source.kind? q = some o.pair.closing
    · have hnone : (o.matching q).opened = [] := by rw [← h.regions, hclosing hc]; rfl
      rw [Matching.step_stray hopening hc hnone]
      exact ⟨rfl, rfl⟩
    · rw [Matching.step_other hopening hc]
      exact ⟨rfl, rfl⟩
  exact { h with nests := hsame.1 ▸ h.nests, regions := h.regions.trans hsame.2.symm }

/-- Passing an opening delimiter opens a region. -/
theorem openRegion (h : Ledger o asked made stack n q c log) (hn : n ≤ q) (hp : o.position ≤ q)
    (hq : g.isTriviaAt q = false) (hopening : g.source.kind? q = some o.pair.opening)
    (hcurrent : c.current = none) :
    Ledger o asked made (log.fresh :: stack) (q + 1) (q + 1)
      { c with regions := ⟨log.fresh, c.chunks.head?.map (·.marker)⟩ :: c.regions }
      (log.openAt q).2 := by
  obtain ⟨hlayered, hnodes, hmarked, hnests, hwithin, hopened⟩ := (idle_iff hcurrent).1 h
  have hstart (m : Marker) (hm : m ∈ stack) := MarkerLog.start_congr
    (MarkerLog.info?_openAt_of_lt (h.lt_of_top (List.mem_append_right _ hm)) q)
  have hfresh := MarkerLog.start_openAt_fresh log q
  have hnext : o.matching (q + 1) = { o.matching q with opened := q :: (o.matching q).opened } := by
    rw [Outset.matching_succ hp hq, Matching.step_opening hopening]
  refine (idle_iff (by exact hcurrent)).2 ⟨.region log.fresh hlayered fun _ => trivial, hnodes,
    hmarked.openAt q, ?_, List.forall_mem_cons.2 ⟨?_, fun m hm => ?_⟩, ?_⟩
  · rw [hnext]
    exact hnests.openAt hn hq (fun m hm => hmarked.lt_of_made hm) fun m hm =>
      h.lt_of_top (List.mem_append_right _ hm)
  · rw [hfresh]
    exact .inl hp
  · rw [hstart m hm]
    exact hwithin m hm
  · rw [hnext, List.map_cons, hfresh, ← hopened]
    congr 1
    exact List.map_congr_left fun r hr => hstart _ (hlayered.mem_of_region hr)

/-- Passing a closing delimiter closes the innermost region. -/
theorem closeRegion (h : Ledger o asked made stack n q c log) (hn : n ≤ q) (hp : o.position ≤ q)
    (hq : g.isTriviaAt q = false) (hclosing : g.source.kind? q = some o.pair.closing)
    (hcurrent : c.current = none) (hregions : c.regions = region :: regions) (kind : Kind) :
    ∃ made stack, Ledger o asked made stack (q + 1) (q + 1)
      { c with
        regions
        chunks := ⟨region.marker, 1⟩ :: c.chunks.dropWhile fun x => some x.marker != region.before }
      (log.commit region.marker kind none (q + 1)) := by
  obtain ⟨hlayered, hnodes, hmarked, hnests, hwithin, hopened⟩ := (idle_iff hcurrent).1 h
  rw [hregions] at hlayered hmarked hnests hopened
  rw [List.map_cons] at hopened hmarked hnests
  obtain ⟨later, stack', rfl, hchunks, hbase, -⟩ :=
    hlayered.close (hnests.order.imp fun {x y} hlt heq => by
      rw [heq] at hlt
      exact Nat.lt_irrefl _ hlt)
  have hrest := (List.pairwise_append.1 hnests.order).2.1
  have hmem : region.marker ∈ later.map (·.marker) ++ region.marker :: stack' := by simp
  have hstage := (hmarked.stages _ List.mem_cons_self).1
  have hinside (r : Region) (hr : r ∈ regions) : r.marker ∈ stack' := hbase.mem_of_region hr
  have hbelow (r : Region) (hr : r ∈ regions) : log.start r.marker < log.start region.marker :=
    (List.pairwise_cons.1 hrest).1 _ (hinside r hr)
  have hstart (x : Marker) := MarkerLog.start_commit hstage kind none (q + 1) x
  have hnext : o.matching (q + 1) = { o.matching q with
      opened := regions.map fun r => log.start r.marker
      pairs := (log.start region.marker, q) :: (o.matching q).pairs } := by
    rw [Outset.matching_succ hp hq, Matching.step_closing (by
      rw [hclosing]; exact fun heq => o.differ (Option.some.inj heq).symm) hclosing hopened.symm]
  refine ⟨region.marker :: made, region.marker :: stack', (idle_iff (by exact hcurrent)).2
    ⟨.chunk ⟨region.marker, 1⟩ hbase, List.forall_mem_cons.2 ⟨List.mem_cons_self, fun y hy =>
      List.mem_cons_of_mem _ (hnodes y (List.dropWhile_subset _ hy))⟩, hmarked.commit ?_ .., ?_,
    fun m hm => ?_, ?_⟩⟩
  · intro hagain
    obtain ⟨r, hr, heq⟩ := List.mem_map.1 hagain
    exact Nat.lt_irrefl _ (heq ▸ hbelow r hr)
  · rw [hnext]
    refine hnests.commit (Nat.le_succ_of_le hn) hstage
      (fun x hx => hmarked.ne_of_open hx List.mem_cons_self) (fun b hb => ?_) (fun i hi hkind => ?_)
      (List.subset_cons_self ..) (fun i j hij => ?_) kind
    · obtain ⟨r, hr, rfl⟩ := List.mem_map.1 hb
      exact hinside r hr
    · have hall := Setup.closed_of_matching o.before (q := q + 1) (by omega) (hwithin _ hmem)
        (fun b hb => ?_) hi hkind
      · rwa [← Outset.matching, hnext] at hall
      · rw [← Outset.matching, hnext] at hb
        obtain ⟨r, hr, rfl⟩ := List.mem_map.1 hb
        exact hbelow r hr
    · rcases List.mem_cons.1 hij with heq | hij
      · obtain ⟨rfl, rfl⟩ := Prod.mk.inj heq
        refine .inr ⟨rfl, ?_⟩
        rw [Setup.before?_succ, hq]
        rfl
      · exact .inl hij
  · rw [hstart m]
    exact hwithin m (by simpa using .inr (List.mem_cons.1 hm))
  · rw [hnext]
    exact List.map_congr_left fun r _ => hstart r.marker

/-- The chunk for the next item is opened. -/
theorem openCurrent {s : Session} (h : Ledger o asked made stack n s.position c s.log)
    (hn : n ≤ s.position) (hp : o.position ≤ s.position) (hs : g.isTriviaAt s.position = false) :
    Ledger o asked made stack (s.position + 1) s.position (s.openCurrent g c).1
      (s.openCurrent g c).2.log := by
  unfold Session.openCurrent
  split
  · exact h.mono (Nat.le_succ_of_le hn)
  · next hcurrent =>
    obtain ⟨hlayered, hnodes, hmarked, hnests, hwithin, hopened⟩ := (idle_iff hcurrent).1 h
    have hlog : (s.openMarker g).2.log = (s.log.openAt s.position).2 := by
      show (s.log.openAt (g.significant s.position)).2 = _
      rw [Setup.significant_of_token hs]
    have hstart (m : Marker) (hm : m ∈ stack) := MarkerLog.start_congr
      (MarkerLog.info?_openAt_of_lt (h.lt_of_top (List.mem_append_right _ hm)) s.position)
    have hfresh := MarkerLog.start_openAt_fresh s.log s.position
    rw [hlog]
    refine ⟨hlayered, hnodes, hmarked.openAt s.position, ?_,
      List.forall_mem_cons.2 ⟨?_, fun m hm => ?_⟩, ?_⟩
    · exact hnests.openAt hn hs (fun m hm => hmarked.lt_of_made hm) fun m hm =>
        h.lt_of_top (List.mem_append_right _ hm)
    · exact .inl (Nat.le_trans hp (Nat.le_of_eq hfresh.symm))
    · rw [hstart m hm]
      exact hwithin m hm
    · rw [← hopened]
      exact List.map_congr_left fun r hr => hstart _ (hlayered.mem_of_region hr)

end Ledger

end Descent
