import Descent.Proofs.Grammar.LeadsTo
import Descent.Proofs.Session.LaminarWork
import Descent.Proofs.Session.Rounds

/-!
# Chunks side by side

With no region open, each round of grouping leaves the chunks as they are, adds to the one that is open,
pushes that one onto them, or folds them (`Session.Balances`). Opening a region leaves them alone, and
closing it puts one chunk behind those that were there before (`Grouping.Placed.closeRegion`). So what holds
of no chunks and is kept by pushing and folding holds whenever no region is open
(`Session.siblings_of_turns`).
-/

namespace Descent

/-! ## Chunks in their places -/

namespace Grouping

variable {P Q : List Chunk → Prop} {c c' : Grouping} {size size' : Nat}

theorem Layered.mono {regions : List Region} {chunks : List Chunk} {stack : List Marker}
    (h : Layered P regions chunks stack) (hPQ : ∀ cs, P cs → Q cs) : Layered Q regions chunks stack := by
  induction h with
  | nothing => exact .nothing
  | chunk x _ ih => exact .chunk x ih
  | region m _ hP ih => exact .region m ih fun hregions => hPQ _ (hP hregions)

/-- The markers of a grouping are layered, different from each other and known. -/
structure Placed (P : List Chunk → Prop) (size : Nat) (c : Grouping) : Prop where
  layered : ∃ stack, Layered P c.regions c.chunks stack ∧ (c.current.toList ++ stack).Nodup ∧
    ∀ m ∈ c.current.toList ++ stack, m.number < size

namespace Placed

theorem mono (h : Placed P size c) (hPQ : ∀ cs, P cs → Q cs) (hsize : size ≤ size') :
    Placed Q size' c where
  layered := by
    obtain ⟨stack, hlayered, hnodup, hknown⟩ := h.layered
    exact ⟨stack, hlayered.mono hPQ, hnodup, fun m hm => Nat.lt_of_lt_of_le (hknown m hm) hsize⟩

theorem not_mem {l : List Marker} (h : ∀ m ∈ l, m.number < size) : (⟨size⟩ : Marker) ∉ l :=
  fun hm => Nat.lt_irrefl _ (h _ hm)

theorem closeCurrent (h : Placed P size c) (kind : Kind) (s : Session) :
    Placed P size (s.closeCurrent kind c).1 ∧ (s.closeCurrent kind c).1.current = none := by
  unfold Session.closeCurrent
  split
  · next hnone => exact ⟨h, hnone⟩
  · next m hm =>
    obtain ⟨stack, hlayered, hnodup, hknown⟩ := h.layered
    rw [hm] at hnodup hknown
    exact ⟨⟨m :: stack, .chunk ⟨m, 1⟩ hlayered, hnodup, hknown⟩, rfl⟩

theorem openCurrent (h : Placed P size c) {g : Setup} {s : Session}
    (hs : s.log.markers.size = size) :
    Placed P (s.openCurrent g c).2.log.markers.size (s.openCurrent g c).1 := by
  unfold Session.openCurrent
  split
  · exact hs ▸ h
  · next hnone =>
    obtain ⟨stack, hlayered, hnodup, hknown⟩ := h.layered
    rw [hnone] at hnodup hknown
    refine ⟨stack, hlayered, List.nodup_cons.2 ⟨?_, hnodup⟩, ?_⟩
    · show (⟨s.log.markers.size⟩ : Marker) ∉ stack
      rw [hs]
      exact not_mem hknown
    · show ∀ m ∈ (⟨s.log.markers.size⟩ : Marker) :: stack, m.number < (s.log.markers.push _).size
      rw [hs, Array.size_push, hs]
      exact List.forall_mem_cons.2 ⟨Nat.lt_succ_self size, fun m hm => Nat.lt_succ_of_lt (hknown m hm)⟩

/-- A region is opened behind the chunks. -/
theorem openRegion (h : Placed P size c) (hcurrent : c.current = none)
    (hP : c.regions = [] → P c.chunks) :
    Placed P (size + 1)
      { c with regions := ⟨⟨size⟩, c.chunks.head?.map (·.marker)⟩ :: c.regions } where
  layered := by
    obtain ⟨stack, hlayered, hnodup, hknown⟩ := h.layered
    dsimp only
    rw [hcurrent] at hnodup hknown ⊢
    refine ⟨⟨size⟩ :: stack, .region ⟨size⟩ hlayered hP, List.nodup_cons.2 ⟨not_mem hknown, hnodup⟩,
      List.forall_mem_cons.2 ⟨Nat.lt_succ_self size, fun m hm => Nat.lt_succ_of_lt (hknown m hm)⟩⟩

/-- The innermost region becomes a chunk behind those that were there before it. -/
theorem closeRegion (h : Placed P size c) {region : Region} {regions : List Region}
    (hregions : c.regions = region :: regions) :
    Placed P size { c with
        regions
        chunks := ⟨region.marker, 1⟩ :: c.chunks.dropWhile fun x => some x.marker != region.before } ∧
      (regions = [] → P (c.chunks.dropWhile fun x => some x.marker != region.before)) := by
  obtain ⟨stack, hlayered, hnodup, hknown⟩ := h.layered
  rw [hregions] at hlayered
  obtain ⟨later, stack', rfl, -, hbase, hP⟩ := hlayered.close (List.nodup_append.1 hnodup).2.1
  have hsub : (c.current.toList ++ region.marker :: stack').Sublist
      (c.current.toList ++ (later.map (·.marker) ++ region.marker :: stack')) :=
    (List.sublist_append_right _ _).append_left _
  exact ⟨⟨region.marker :: stack', .chunk ⟨region.marker, 1⟩ hbase, hnodup.sublist hsub,
    fun m hm => hknown m (hsub.subset hm)⟩, hP⟩

theorem foldFull (h : Placed P size c) {g : Setup} (kind : Kind) {s : Session}
    (hs : s.log.markers.size = size) :
    Placed P (s.foldFull g kind c).2.log.markers.size (s.foldFull g kind c).1 := by
  refine Session.foldFull_induction kind (motive := fun c s => Placed P s.log.markers.size c) ?_ (hs ▸ h)
  intro c s xs x rest h hchunks _ hprefix
  obtain ⟨stack, hlayered, hnodup, hknown⟩ := h.layered
  obtain ⟨stack', rfl, hfolded, -⟩ :=
    hlayered.fold hchunks hprefix ⟨s.log.fresh, x.generation + 1⟩
  have hgrown : (s.enclose x.marker kind none).log.markers.size = s.log.markers.size + 1 := by
    rw [Session.log_enclose, MarkerLog.enclose, MarkerLog.size_commit, MarkerLog.size_wrap]
  have hsub : (c.current.toList ++ stack').Sublist
      (c.current.toList ++ (xs.map (·.marker) ++ x.marker :: stack')) :=
    ((List.sublist_cons_self x.marker stack').trans (List.sublist_append_right _ _)).append_left _
  have hknown' : ∀ m ∈ c.current.toList ++ stack', m.number < s.log.markers.size :=
    fun m hm => hknown m (hsub.subset hm)
  refine ⟨⟨s.log.markers.size⟩ :: stack', hfolded, List.perm_middle.nodup_iff.2 (List.nodup_cons.2
    ⟨not_mem hknown', hnodup.sublist hsub⟩), fun m hm => ?_⟩
  show m.number < (s.enclose x.marker kind none).log.markers.size
  rw [hgrown]
  rcases List.mem_append.1 hm with hm | hm
  · exact Nat.lt_succ_of_lt (hknown' m (List.mem_append_left _ hm))
  · rcases List.mem_cons.1 hm with rfl | hm
    · exact Nat.lt_succ_self _
    · exact Nat.lt_succ_of_lt (hknown' m (List.mem_append_right _ hm))

end Placed

end Grouping

namespace Session

open Grouping (Placed)

variable {g : Setup} {run : Runner} {pair? : Option Delimiters} {c c' : Grouping} {s s' : Session}
  {item eatMore : RuleRef} {kind : Kind} {level n m : Nat} {flat base : Nat → List Chunk → Prop}
  {allowed : List Chunk → Prop}

/-! ## What is kept from round to round -/

/-- With no region open the chunks are `flat`, and those before an open region are a `base`, after so many
rounds. Where regions are opened behind what is allowed only, each round keeps that. -/
structure Balances (g : Setup) (kind : Kind) (allowed : List Chunk → Prop)
    (flat base : Nat → List Chunk → Prop) : Prop where
  none : flat 0 []
  mono {n m : Nat} {cs : List Chunk} : n ≤ m → base n cs → base m cs
  opens {n : Nat} {cs : List Chunk} : flat n cs → base n cs
  pushes {n : Nat} {cs : List Chunk} (m : Marker) :
    flat n cs → allowed (⟨m, 1⟩ :: cs) → base (n + 1) (⟨m, 1⟩ :: cs)
  folds {n : Nat} {cs : List Chunk} {c : Grouping} (m : Marker) (s : Session) : base n cs →
    c.regions = [] → c.chunks = ⟨m, 1⟩ :: cs → flat (n + 1) (s.foldFull g kind c).1.chunks

/-- Some rounds have left the chunks in their places. The rounds for the items that are in no chunk yet do
not count for the chunks. -/
structure Siblings (flat base : Nat → List Chunk → Prop) (n : Nat) (c : Grouping) (s : Session) :
    Prop where
  placed : Placed (base n) s.log.markers.size c
  current : c.current = none ↔ c.inCurrent = 0
  flat : c.regions = [] → ∃ m, m + c.inCurrent ≤ n ∧ flat m c.chunks

theorem inCurrent_closeCurrent (h : c.current = none ↔ c.inCurrent = 0) (kind : Kind) (s : Session) :
    (s.closeCurrent kind c).1.inCurrent = 0 := by
  unfold closeCurrent
  split
  · next hnone => exact h.1 hnone
  · rfl

/-- Outside of regions the chunk that items are added to is pushed onto the chunks. -/
theorem Siblings.closeCurrent (hb : Balances g kind allowed flat base)
    (h : Siblings flat base n c s) (hregions : c.regions = [])
    (hallowed : c.current ≠ none → allowed (s.closeCurrent kind c).1.chunks) :
    base n (s.closeCurrent kind c).1.chunks := by
  obtain ⟨m, hm, hflat⟩ := h.flat hregions
  unfold Session.closeCurrent at hallowed ⊢
  split
  · exact hb.mono (Nat.le_trans (Nat.le_add_right _ _) hm) (hb.opens hflat)
  · next marker hmarker =>
    rw [hmarker] at hallowed
    have hitems : c.inCurrent ≠ 0 := fun hzero => by
      rw [h.current.2 hzero] at hmarker
      cases hmarker
    exact hb.mono (by omega) (hb.pushes marker hflat (hallowed (Option.some_ne_none marker)))

/-- When a region is closed there is a chunk for it, and full runs are folded. -/
theorem Siblings.of_closeRegion (hb : Balances g kind allowed flat base)
    (hplaced : Placed (base n) s.log.markers.size c) (hcurrent : c.current = none)
    (hitems : c.inCurrent = 0) {pair : Delimiters} (hregions : c.regions ≠ []) :
    Siblings flat base (n + 1) (s.closeRegion g kind pair (some pair.closing) c).1
      (s.closeRegion g kind pair (some pair.closing) c).2 := by
  obtain ⟨region, regions, hregions⟩ := List.exists_cons_of_ne_nil hregions
  obtain ⟨hclosed, hbase⟩ := hplaced.closeRegion hregions
  rw [Session.closeRegion, if_pos rfl, hregions]
  dsimp only
  have hsize : (s.commitAs region.marker kind).log.markers.size = s.log.markers.size := by
    rw [commitAs, log_commit, MarkerLog.size_commit]
  generalize hc' : ({ c with
    regions
    chunks := ⟨region.marker, 1⟩ :: c.chunks.dropWhile fun x => some x.marker != region.before } :
      Grouping) = c' at hclosed ⊢
  obtain ⟨chunks, heq, -⟩ := exists_foldFull g kind c' (s.commitAs region.marker kind)
  refine ⟨(hclosed.foldFull kind hsize).mono (fun _ => hb.mono (Nat.le_succ n)) (Nat.le_refl _), ?_,
    fun hnone => ⟨n + 1, ?_, ?_⟩⟩
  · rw [heq, ← hc']
    exact ⟨fun _ => hitems, fun _ => hcurrent⟩
  · rw [heq, ← hc']
    exact Nat.le_of_eq (congrArg (n + 1 + ·) hitems)
  · rw [heq, ← hc'] at hnone
    refine hb.folds region.marker _ (hbase hnone) ?_ ?_
    · rw [← hc']
      exact hnone
    · rw [← hc']

/-- An outermost region is not opened but behind chunks that are allowed. -/
def OpensBehind (g : Setup) (kind : Kind) (pair? : Option Delimiters) (allowed : List Chunk → Prop)
    (x : Grouping × Session) : Prop :=
  ∀ pair ∈ pair?, x.1.regions = [] → x.1.current ≠ none →
    g.source.kind? (g.significant x.2.position) = some pair.opening →
    allowed ((x.2.toSignificant g).closeCurrent kind x.1).1.chunks

instance [DecidablePred allowed] (x : Grouping × Session) :
    Decidable (OpensBehind g kind pair? allowed x) :=
  inferInstanceAs (Decidable (∀ pair ∈ pair?, _))

theorem Siblings.delimiterStep (hb : Balances g kind allowed flat base) (hrun : run.Leads)
    (h : Siblings flat base n c s) {pair : Delimiters}
    (htoken : s.kindHere? g = some pair.opening ∨ s.kindHere? g = some pair.closing ∧ c.regions ≠ [])
    (hallowed : c.regions = [] → c.current ≠ none → s.kindHere? g = some pair.opening →
      allowed (s.closeCurrent kind c).1.chunks)
    (hstep : s.delimiterStep g run level kind pair c = some (c', s')) :
    Siblings flat base (n + 1) c' s' := by
  rw [delimiterStep_eq] at hstep
  obtain ⟨⟨b, t⟩, hadvance, hstep⟩ := Option.bind_eq_some_iff.1 hstep
  dsimp only at hadvance hstep
  have hsize := size_closeCurrent kind c s
  obtain ⟨hplaced, hcurrent⟩ := h.placed.closeCurrent kind s
  have hitems := inCurrent_closeCurrent h.current kind s
  have hregions := regions_closeCurrent kind c s
  have hbase : c.regions = [] → s.kindHere? g = some pair.opening →
      base n (s.closeCurrent kind c).1.chunks :=
    fun hnone ho => h.closeCurrent hb hnone fun hsome => hallowed hnone hsome ho
  generalize s.closeCurrent kind c = x at *
  by_cases ho : s.kindHere? g = some pair.opening
  · -- a region is opened, nothing is within reach, and the region may be closed at once
    rw [openRegion, if_pos ho] at hadvance hstep
    rw [foldFull_of_reach rfl] at hadvance hstep
    have hopened := hplaced.openRegion hcurrent fun hnone => hbase (hregions ▸ hnone) ho
    rw [← hsize] at hopened
    have hgrown : x.2.log.markers.size + 1 ≤ t.log.markers.size := by
      have hle := (hrun _ _ _ _ _ hadvance).size_le
      rwa [openMarker, MarkerLog.openAt, Array.size_push] at hle
    have hplaced' := hopened.mono (fun _ h => h) hgrown
    by_cases hc : s.kindHere? g = some pair.closing
    · rw [hc] at hstep
      obtain ⟨rfl, rfl⟩ := Prod.ext_iff.1 (Option.some.inj hstep)
      exact .of_closeRegion hb hplaced' hcurrent hitems (List.cons_ne_nil _ _)
    · rw [closeRegion, if_neg hc] at hstep
      obtain ⟨rfl, rfl⟩ := Prod.mk.inj (Option.some.inj hstep)
      exact ⟨hplaced'.mono (fun _ => hb.mono (Nat.le_succ n)) (Nat.le_refl _),
        ⟨fun _ => hitems, fun _ => hcurrent⟩, fun hnil => absurd hnil (List.cons_ne_nil _ _)⟩
  · obtain ⟨hc, hopen⟩ := htoken.resolve_left ho
    rw [openRegion, if_neg ho] at hadvance hstep
    have hfolded := hplaced.foldFull (g := g) kind hsize
    obtain ⟨chunks, heq, -⟩ := exists_foldFull g kind x.1 x.2
    have hplaced' := hfolded.mono (fun _ h => h) (hrun _ _ _ _ _ hadvance).size_le
    rw [hc] at hstep
    obtain ⟨rfl, rfl⟩ := Prod.ext_iff.1 (Option.some.inj hstep)
    refine .of_closeRegion hb hplaced' ?_ ?_ ?_
    · rw [heq]
      exact hcurrent
    · rw [heq]
      exact hitems
    · rw [heq]
      exact hregions ▸ hopen

theorem Siblings.itemStep (hb : Balances g kind allowed flat base) (hrun : run.Leads)
    (h : Siblings flat base n c s) (hstep : s.itemStep g run level item eatMore c = some (true, c', s')) :
    Siblings flat base (n + 1) c' s' := by
  have hopened := h.placed.openCurrent (g := g) rfl
  rw [itemStep_eq] at hstep
  obtain ⟨⟨more, t⟩, ht, hstep⟩ := Option.bind_eq_some_iff.1 hstep
  obtain ⟨⟨parsed, u⟩, hu, hstep⟩ := Option.bind_eq_some_iff.1 hstep
  have hmore : (s.openCurrent g c).2.log.markers.size ≤ t.log.markers.size := by
    split at ht
    · exact (hrun _ _ _ _ _ ht).size_le
    · cases ht
      exact Nat.le_refl _
  have hparsed : t.log.markers.size ≤ u.log.markers.size := by
    split at hu
    · exact (hrun _ _ _ _ _ hu).size_le
    · cases hu
      exact Nat.le_refl _
  have hfields : (s.openCurrent g c).1.current ≠ none ∧
      (s.openCurrent g c).1.inCurrent = c.inCurrent ∧
      (s.openCurrent g c).1.regions = c.regions ∧ (s.openCurrent g c).1.chunks = c.chunks := by
    unfold openCurrent
    split
    · next hsome => exact ⟨by rw [hsome]; exact Option.some_ne_none _, rfl, rfl, rfl⟩
    · exact ⟨Option.some_ne_none _, rfl, rfl, rfl⟩
  generalize s.openCurrent g c = x at *
  obtain ⟨hcurrent, hitems, hregions, hchunks⟩ := hfields
  cases parsed with
  | false => cases hstep
  | true =>
    obtain ⟨rfl, rfl⟩ : _ = c' ∧ u = s' := by simpa using hstep
    refine ⟨⟨?_⟩, ⟨fun hnone => absurd hnone hcurrent, fun hzero => absurd hzero (Nat.succ_ne_zero _)⟩,
      fun hnone => ?_⟩
    · exact (hopened.mono (fun _ => hb.mono (Nat.le_succ n)) (Nat.le_trans hmore hparsed)).layered
    · obtain ⟨m, hm, hflat⟩ := h.flat (hregions ▸ hnone)
      refine ⟨m, ?_, hchunks ▸ hflat⟩
      show m + (x.1.inCurrent + 1) ≤ n + 1
      omega

/-- A full chunk is pushed onto the others, and runs that are full are folded. -/
theorem Siblings.foldIfFull (hb : Balances g kind allowed flat base)
    (h : Siblings flat base n c s) :
    Siblings flat base n (s.foldIfFull g kind c).1 (s.foldIfFull g kind c).2 := by
  have hsize := g.limits.fanOut_ge
  unfold Session.foldIfFull
  split
  · next hfull =>
    obtain ⟨marker, hmarker⟩ : ∃ marker, c.current = some marker :=
      Option.ne_none_iff_exists'.1 fun hnone => by
        have hzero := h.current.1 hnone
        omega
    obtain ⟨hclosed, hnone⟩ := h.placed.closeCurrent kind s
    have hregions := regions_closeCurrent kind c s
    have hzero : (s.closeCurrent kind c).1.inCurrent = 0 ∧
        (s.closeCurrent kind c).1.chunks = ⟨marker, 1⟩ :: c.chunks := by
      rw [Session.closeCurrent, hmarker]
      exact ⟨rfl, rfl⟩
    obtain ⟨chunks, heq, -⟩ :=
      exists_foldFull g kind (s.closeCurrent kind c).1 (s.closeCurrent kind c).2
    refine ⟨hclosed.foldFull kind (size_closeCurrent kind c s), ?_, fun hfree => ?_⟩
    · rw [heq]
      exact ⟨fun _ => hzero.1, fun _ => hnone⟩
    · have hopen : c.regions = [] := by
        rw [heq] at hfree
        exact hregions ▸ hfree
      obtain ⟨m, hm, hflat⟩ := h.flat hopen
      refine ⟨m + 1, ?_, hb.folds marker _ (hb.opens hflat) (hregions.trans hopen) hzero.2⟩
      rw [heq]
      show m + 1 + (s.closeCurrent kind c).1.inCurrent ≤ n
      omega
  · exact h

/-- Each round that goes on leaves the chunks in their places, for one round more. -/
theorem Siblings.on {x y : Grouping × Session} (hb : Balances g kind allowed flat base)
    (hrun : run.Leads) (hallowed : OpensBehind g kind pair? allowed x)
    (hx : Siblings flat base n x.1 x.2)
    (h : groupTurn g run level kind pair? item eatMore x = some (.on y)) :
    Siblings flat base (n + 1) y.1 y.2 := by
  obtain ⟨c, u⟩ := x
  have hseek : Siblings flat base n c (u.toSignificant g) := { hx with }
  obtain ⟨b, c₁, s₁, hstep, ⟨-, hr⟩ | ⟨rfl, -, hr⟩ | ⟨-, -, t, hr, -⟩⟩ := groupTurn_cases h
  · cases hr
  · obtain rfl : y = s₁.foldIfFull g kind c₁ := Turn.on.inj hr
    rcases roundStep_cases hstep with ⟨pair, hpair, htoken, -, hdelimiter⟩ | ⟨-, hitem⟩
    · exact .foldIfFull hb (hseek.delimiterStep hb hrun htoken (hallowed pair hpair) hdelimiter)
    · exact .foldIfFull hb (hseek.itemStep hb hrun hitem)
  · cases hr

theorem siblings_begin (hb : Balances g kind allowed flat base) (pair? : Option Delimiters)
    (s : Session) :
    Siblings flat base 0 { regions := (s.firstRegions g pair?).1 } (s.firstRegions g pair?).2 := by
  have hnone : ({} : Grouping).current = none ↔ ({} : Grouping).inCurrent = 0 :=
    ⟨fun _ => rfl, fun _ => rfl⟩
  rcases firstRegions_cases g pair? s with h | ⟨_, _, m, -, -, -, -, -, h⟩
  · rw [h]
    exact ⟨⟨[], .nothing, .nil, fun m hm => nomatch hm⟩, hnone, fun _ => ⟨0, Nat.le_refl 0, hb.none⟩⟩
  · rw [h]
    refine ⟨⟨[s.log.fresh], .region s.log.fresh .nothing fun _ => hb.opens hb.none,
      List.pairwise_singleton .., fun x hx => ?_⟩, hnone, fun hnil => absurd hnil (List.cons_ne_nil _ _)⟩
    rw [List.mem_singleton.1 hx]
    show s.log.markers.size < (s.wrap m).2.log.markers.size
    rw [log_wrap, MarkerLog.size_wrap]
    exact Nat.lt_succ_self _

/-- If regions are opened behind what is allowed only, the chunks are in their places after each round. -/
theorem siblings_of_turns {y : Grouping × Session} (hb : Balances g kind allowed flat base)
    (hrun : run.Leads)
    (h : Turns (groupTurn g run level kind pair? item eatMore) n
      ({ regions := (s.firstRegions g pair?).1 }, (s.firstRegions g pair?).2) y)
    (hallowed : ∀ m x, m < n → Turns (groupTurn g run level kind pair? item eatMore) m
      ({ regions := (s.firstRegions g pair?).1 }, (s.firstRegions g pair?).2) x →
        OpensBehind g kind pair? allowed x) :
    Siblings flat base n y.1 y.2 := by
  refine Turns.induction (motive := fun n y => (∀ m x, m < n → Turns _ m _ x →
    OpensBehind g kind pair? allowed x) → Siblings flat base n y.1 y.2)
    (fun _ => siblings_begin hb pair? s) (fun k x y hx ih hy hallowed => ?_) h hallowed
  exact (ih fun m z hm => hallowed m z (Nat.lt_succ_of_lt hm)).on hb hrun
    (hallowed k x (Nat.lt_succ_self k) hx) hy

end Session

end Descent
