import Descent.Proofs.MarkerLog.Idle
import Descent.Proofs.Session.LaminarWork
import Descent.Proofs.Session.Rounds

/-!
# What chunks enclose

The nodes that grouping makes and the markers it has open lie on a stack of stretches: a node that
begins before such a marker has ended before it (`Nests.frontier`). So a node that takes the place of a
marker on the stack encloses what has come since, and the delimiters in it match if those of the open
regions are all in front of it (`Nests.make`). The markers that grouping has made are told apart from those
that come in while the condition is asked (`Marked`).
-/

namespace Descent

namespace Setup

variable {g : Setup} {pair : Delimiters} {first : List Nat} {a i p q : Nat}

theorem before?_lt (h : g.before? p = some i) : i < p := by
  have hmem := List.mem_of_find?_eq_some h
  simpa using hmem

theorem le_before? (hi : g.isTriviaAt i = false) (hlt : i < p) :
    ∃ b, g.before? p = some b ∧ i ≤ b := by
  induction p with
  | zero => omega
  | succ p ih =>
    rw [before?_succ]
    cases hp : g.isTriviaAt p with
    | true =>
      have hne : i ≠ p := fun h => by rw [h, hp] at hi; cases hi
      exact ih (by omega)
    | false => exact ⟨p, rfl, by omega⟩

/-- If the delimiters still open are all in front of a position, those behind it have been closed. -/
theorem closed_of_matching (hfirst : ∀ i ∈ first, g.before? p = some i) (hle : p ≤ q)
    (ha : p ≤ a ∨ a ∈ first) (hopened : ∀ o ∈ (g.matching pair first p q).opened, o < a)
    (hi : i ∈ g.significantIn a q) (hkind : g.source.kind? i = some pair.opening) :
    ∃ j ∈ g.significantIn a q, (i, j) ∈ (g.matching pair first p q).pairs := by
  obtain ⟨hai, hiq, htoken⟩ := mem_significantIn.1 hi
  have hcases : (i ∈ first ∧ i < p) ∨ i ∈ g.significantIn p q ∧
      g.source.kind? i = some pair.opening := by
    rcases Nat.lt_or_ge i p with hlt | hge
    · have hmem : a ∈ first := ha.resolve_left (by omega)
      obtain ⟨b, hb, hib⟩ := le_before? htoken hlt
      obtain rfl : a = b := by simpa using (hfirst a hmem).symm.trans hb
      obtain rfl : i = a := by omega
      exact .inl ⟨hmem, hlt⟩
    · exact .inr ⟨mem_significantIn.2 ⟨hge, hiq, htoken⟩, hkind⟩
  rcases opening_of_matching hle hcases with hopen | ⟨j, hj, hij, hmem⟩
  · have hlt := hopened i hopen
    omega
  · obtain ⟨-, hjq, hj⟩ := mem_significantIn.1 hj
    exact ⟨j, mem_significantIn.2 ⟨by omega, hjq, hj⟩, hmem⟩

end Setup

namespace MarkerLog

variable {log log' : MarkerLog} {m : Marker}

theorem stop_congr (h : log'.info? m = log.info? m) : log'.stop m = log.stop m := by
  rw [stop, stop, h]

theorem start_openAt_fresh (log : MarkerLog) (p : Nat) : (log.openAt p).2.start log.fresh = p := by
  simp [start, info?, openAt, fresh]

/-- Markers keep their starts. -/
theorem start_commit (hm : log.stage? m = some .opened) (kind : Kind) (error : Option SyntaxError)
    (p : Nat) (x : Marker) : (log.commit m kind error p).start x = log.start x := by
  by_cases hx : m = x
  · obtain ⟨info, hi, hs⟩ := Option.map_eq_some_iff.1 hm
    rw [← hx, start, info?_commit_self hi hs, start, hi]
    rfl
  · exact start_congr (info?_commit_of_ne hx ..)

theorem stop_commit {p : Nat} (hm : log.stage? m = some .opened) (hp : log.start m ≤ p) (kind : Kind)
    (error : Option SyntaxError) : (log.commit m kind error p).stop m = p := by
  obtain ⟨info, hi, hs⟩ := Option.map_eq_some_iff.1 hm
  have hstart : log.start m = info.start := by rw [start, hi]; rfl
  rw [stop, info?_commit_self hi hs]
  exact Nat.max_eq_left (hstart ▸ hp)

theorem span_enclose {x : Marker} {p : Nat} (hp : log.start x ≤ p) (kind : Kind)
    (error : Option SyntaxError) :
    (log.enclose x kind error p).start log.fresh = log.start x ∧
      (log.enclose x kind error p).stop log.fresh = p := by
  rw [start, stop, info?_enclose_fresh hp]
  exact ⟨rfl, rfl⟩

theorem info?_enclose_of_lt {x : Marker} (h : m.number < log.markers.size) (kind : Kind)
    (error : Option SyntaxError) (p : Nat) : (log.enclose x kind error p).info? m = log.info? m := by
  have hne : log.fresh ≠ m := fun he => Nat.ne_of_gt h (congrArg Marker.number he)
  rw [enclose, info?_commit_of_ne hne, info?_wrap_of_ne hne]

/-- Where the markers from a number on are left as they are, and there is one, none is taken away. -/
theorem size_le_of_keeps {base : Nat} (hbase : base < log.markers.size)
    (hkeeps : ∀ m info, base ≤ m.number → log.info? m = some info → log'.info? m = some info) :
    log.markers.size ≤ log'.markers.size := by
  have hlast : log.markers.size - 1 < log.markers.size := by omega
  have hinfo := hkeeps ⟨log.markers.size - 1⟩ _ (by show base ≤ _ - 1; omega)
    (Array.getElem?_eq_getElem hlast)
  have hlt : log.markers.size - 1 < log'.markers.size := lt_size_of_info? hinfo
  omega

end MarkerLog

/-! ## Stretches on a stack -/

/-- The nodes made up to a position, no two of one stretch, and the markers on top that begin in front of
it, the latest first. A node that begins before one of these has ended before it, and none begins where an
open one does. The opening delimiters in a node are paired there, and for each pair there is a node. -/
structure Nests (g : Setup) (pair : Delimiters) (log : MarkerLog) (n : Nat) (pairs : List (Nat × Nat))
    (made tops opens : List Marker) : Prop where
  spans : ∀ m ∈ made, log.start m < log.stop m ∧ log.stop m ≤ n
  begins : ∀ x ∈ tops, g.isTriviaAt (log.start x) = false ∧ log.start x < n
  order : tops.Pairwise fun x y => log.start y < log.start x
  frontier : ∀ x ∈ tops, ∀ m ∈ made, log.start m < log.start x → log.stop m ≤ log.start x
  free : ∀ o ∈ opens, o ∈ tops ∧ ∀ m ∈ made, log.start m ≠ log.start o
  apart : ∀ m ∈ made, ∀ m' ∈ made, log.start m = log.start m' →
    g.before? (log.stop m) = g.before? (log.stop m') → m = m'
  whole : ∀ m ∈ made, ∀ i ∈ g.significantIn (log.start m) (log.stop m),
    g.source.kind? i = some pair.opening →
      ∃ j ∈ g.significantIn (log.start m) (log.stop m), (i, j) ∈ pairs
  found : ∀ i j, (i, j) ∈ pairs → ∃ m ∈ made, log.start m = i ∧ g.before? (log.stop m) = some j

namespace Nests

variable {g : Setup} {pair : Delimiters} {log log' : MarkerLog} {n q : Nat}
  {pairs pairs' : List (Nat × Nat)} {made above tops rest opens opens' : List Marker} {x y m : Marker}

theorem nothing (g : Setup) (pair : Delimiters) (log : MarkerLog) (n : Nat) :
    Nests g pair log n [] [] [] [] where
  spans := List.forall_mem_nil _
  begins := List.forall_mem_nil _
  order := .nil
  frontier := List.forall_mem_nil _
  free := List.forall_mem_nil _
  apart := List.forall_mem_nil _
  whole := List.forall_mem_nil _
  found _ _ hij := absurd hij List.not_mem_nil

/-- One marker is open, and nothing is made. -/
theorem one (hx : g.isTriviaAt (log.start x) = false) (hlt : log.start x < n) :
    Nests g pair log n [] [] [x] [x] :=
  { nothing g pair log n with
    begins := List.forall_mem_singleton.2 ⟨hx, hlt⟩
    order := List.pairwise_singleton ..
    frontier := fun _ _ => List.forall_mem_nil _
    free := fun _ ho => ⟨ho, List.forall_mem_nil _⟩ }

theorem mono (h : Nests g pair log n pairs made tops opens) (hn : n ≤ q) :
    Nests g pair log q pairs made tops opens :=
  { h with
    spans := fun m hm => ⟨(h.spans m hm).1, Nat.le_trans (h.spans m hm).2 hn⟩
    begins := fun x hx => ⟨(h.begins x hx).1, Nat.lt_of_lt_of_le (h.begins x hx).2 hn⟩ }

/-- It depends on where the nodes reach from and to, and on where the markers on top begin. -/
theorem congr (h : Nests g pair log n pairs made tops opens)
    (hmade : ∀ m ∈ made, log'.info? m = log.info? m)
    (htops : ∀ x ∈ tops, log'.start x = log.start x) :
    Nests g pair log' n pairs made tops opens := by
  have hstart (m : Marker) (hm : m ∈ made) := MarkerLog.start_congr (hmade m hm)
  have hstop (m : Marker) (hm : m ∈ made) := MarkerLog.stop_congr (hmade m hm)
  constructor
  case spans =>
    intro m hm
    rw [hstart m hm, hstop m hm]
    exact h.spans m hm
  case begins =>
    intro x hx
    rw [htops x hx]
    exact h.begins x hx
  case order =>
    refine h.order.imp_of_mem fun {x y} hx hy hlt => ?_
    rwa [htops x hx, htops y hy]
  case frontier =>
    intro x hx m hm
    rw [hstart m hm, hstop m hm, htops x hx]
    exact h.frontier x hx m hm
  case free =>
    intro o ho
    obtain ⟨hmem, hne⟩ := h.free o ho
    refine ⟨hmem, fun m hm => ?_⟩
    rw [hstart m hm, htops o hmem]
    exact hne m hm
  case apart =>
    intro m hm m' hm'
    rw [hstart m hm, hstart m' hm', hstop m hm, hstop m' hm']
    exact h.apart m hm m' hm'
  case whole =>
    intro m hm
    rw [hstart m hm, hstop m hm]
    exact h.whole m hm
  case found =>
    intro i j hij
    obtain ⟨m, hm, hi, hj⟩ := h.found i j hij
    refine ⟨m, hm, ?_⟩
    rw [hstart m hm, hstop m hm]
    exact ⟨hi, hj⟩

/-- What is on top of the others may be left out. -/
theorem cut (h : Nests g pair log n pairs made (above ++ tops) opens)
    (hopens : ∀ o ∈ opens', o ∈ opens ∧ o ∈ tops) : Nests g pair log n pairs made tops opens' :=
  { h with
    begins := fun x hx => h.begins x (List.mem_append_right _ hx)
    order := (List.pairwise_append.1 h.order).2.1
    frontier := fun x hx => h.frontier x (List.mem_append_right _ hx)
    free := fun o ho => ⟨(hopens o ho).2, (h.free o (hopens o ho).1).2⟩ }

/-- A marker is opened behind all there is. -/
theorem push (h : Nests g pair log n pairs made tops opens) (hn : n ≤ q)
    (hq : g.isTriviaAt q = false) (hx : log.start x = q) :
    Nests g pair log (q + 1) pairs made (x :: tops) (x :: opens) := by
  have hnext := h.mono (Nat.le_succ_of_le hn)
  constructor
  case spans => exact hnext.spans
  case begins =>
    refine List.forall_mem_cons.2 ⟨?_, hnext.begins⟩
    rw [hx]
    exact ⟨hq, Nat.lt_succ_self q⟩
  case order =>
    refine List.pairwise_cons.2 ⟨fun y hy => ?_, h.order⟩
    rw [hx]
    exact Nat.lt_of_lt_of_le (h.begins y hy).2 hn
  case frontier =>
    refine List.forall_mem_cons.2 ⟨fun m hm _ => ?_, h.frontier⟩
    rw [hx]
    exact Nat.le_trans (h.spans m hm).2 hn
  case free =>
    refine List.forall_mem_cons.2 ⟨⟨List.mem_cons_self, fun m hm heq => ?_⟩, fun o ho => ?_⟩
    · have hspan := h.spans m hm
      omega
    · exact ⟨List.mem_cons_of_mem x (h.free o ho).1, (h.free o ho).2⟩
  case apart => exact h.apart
  case whole => exact h.whole
  case found => exact h.found

/-- A node that begins before a marker on top does not end with the token that is last now. -/
theorem before?_ne (h : Nests g pair log n pairs made tops opens) (hn : n ≤ q) (hy : y ∈ tops)
    (hm : m ∈ made) (hlt : log.start m < log.start y) : g.before? (log.stop m) ≠ g.before? q := by
  intro heq
  obtain ⟨htoken, hyn⟩ := h.begins y hy
  obtain ⟨b, hb, hyb⟩ := Setup.le_before? htoken (Nat.lt_of_lt_of_le hyn hn)
  have hstop := h.frontier y hy m hm hlt
  have hbefore := Setup.before?_lt (heq.trans hb)
  omega

/-- A node takes the place of the marker on top, and reaches up to where it is now. -/
theorem make (h : Nests g pair log n pairs made (y :: tops) opens) (hn : n ≤ q)
    (hx : log.start x = log.start y) (hstop : log.stop x = q)
    (hopens : ∀ o ∈ opens', o ∈ opens ∧ o ∈ tops)
    (hapart : ∀ m ∈ made, log.start m = log.start y → g.before? (log.stop m) ≠ g.before? q)
    (hwhole : ∀ i ∈ g.significantIn (log.start y) q, g.source.kind? i = some pair.opening →
      ∃ j ∈ g.significantIn (log.start y) q, (i, j) ∈ pairs')
    (hpairs : pairs ⊆ pairs')
    (hfound : ∀ i j, (i, j) ∈ pairs' →
      (i, j) ∈ pairs ∨ log.start y = i ∧ g.before? q = some j) :
    Nests g pair log q pairs' (x :: made) (x :: tops) opens' := by
  have hbelow := (List.pairwise_cons.1 h.order).1
  have hq := (h.mono hn).begins
  constructor
  case spans =>
    refine List.forall_mem_cons.2 ⟨?_, (h.mono hn).spans⟩
    rw [hx, hstop]
    exact ⟨(hq y List.mem_cons_self).2, Nat.le_refl q⟩
  case begins =>
    refine List.forall_mem_cons.2 ⟨?_, fun z hz => hq z (List.mem_cons_of_mem y hz)⟩
    rw [hx]
    exact hq y List.mem_cons_self
  case order =>
    refine List.pairwise_cons.2 ⟨fun z hz => ?_, (List.pairwise_cons.1 h.order).2⟩
    rw [hx]
    exact hbelow z hz
  case frontier =>
    refine List.forall_mem_cons.2 ⟨List.forall_mem_cons.2 ⟨?_, fun m hm => ?_⟩, fun z hz =>
      List.forall_mem_cons.2 ⟨?_, h.frontier z (List.mem_cons_of_mem y hz)⟩⟩
    · intro hlt
      exact absurd hlt (Nat.lt_irrefl _)
    · rw [hx]
      exact h.frontier y List.mem_cons_self m hm
    · -- the node begins behind the markers that are below it
      intro hlt
      rw [hx] at hlt
      exact absurd hlt (Nat.lt_asymm (hbelow z hz))
  case free =>
    intro o ho
    obtain ⟨hmem, htop⟩ := hopens o ho
    refine ⟨List.mem_cons_of_mem x htop, List.forall_mem_cons.2 ⟨?_, (h.free o hmem).2⟩⟩
    rw [hx]
    exact Nat.ne_of_gt (hbelow o htop)
  case apart =>
    refine List.forall_mem_cons.2 ⟨List.forall_mem_cons.2 ⟨fun _ _ => rfl, fun m hm hs hb => ?_⟩,
      fun m hm => List.forall_mem_cons.2 ⟨fun hs hb => ?_, h.apart m hm⟩⟩
    · exact absurd (hstop ▸ hb).symm (hapart m hm (hs.symm.trans hx))
    · exact absurd (hstop ▸ hb) (hapart m hm (hs.trans hx))
  case whole =>
    refine List.forall_mem_cons.2 ⟨?_, fun m hm i hi hkind => ?_⟩
    · rw [hx, hstop]
      exact hwhole
    · obtain ⟨j, hj, hmem⟩ := h.whole m hm i hi hkind
      exact ⟨j, hj, hpairs hmem⟩
  case found =>
    intro i j hij
    rcases hfound i j hij with hmem | ⟨hi, hj⟩
    · obtain ⟨m, hm, hspan⟩ := h.found i j hmem
      exact ⟨m, List.mem_cons_of_mem x hm, hspan⟩
    · exact ⟨x, List.mem_cons_self, hx.trans hi, hstop.symm ▸ hj⟩

/-- A marker is opened where there is a token. -/
theorem openAt (h : Nests g pair log n pairs made tops opens) (hn : n ≤ q)
    (hq : g.isTriviaAt q = false) (hmade : ∀ m ∈ made, m.number < log.markers.size)
    (htops : ∀ x ∈ tops, x.number < log.markers.size) :
    Nests g pair (log.openAt q).2 (q + 1) pairs made (log.fresh :: tops) (log.fresh :: opens) :=
  (h.congr (fun m hm => MarkerLog.info?_openAt_of_lt (hmade m hm) q) fun x hx =>
    MarkerLog.start_congr (MarkerLog.info?_openAt_of_lt (htops x hx) q)).push hn hq
      (MarkerLog.start_openAt_fresh log q)

/-- An open marker is committed, and what came behind it is part of it. -/
theorem commit (h : Nests g pair log n pairs made (above ++ y :: tops) (y :: opens)) (hn : n ≤ q)
    (hstage : log.stage? y = some .opened) (hmade : ∀ m ∈ made, m ≠ y)
    (hopens : ∀ o ∈ opens, o ∈ tops)
    (hwhole : ∀ i ∈ g.significantIn (log.start y) q, g.source.kind? i = some pair.opening →
      ∃ j ∈ g.significantIn (log.start y) q, (i, j) ∈ pairs')
    (hpairs : pairs ⊆ pairs')
    (hfound : ∀ i j, (i, j) ∈ pairs' →
      (i, j) ∈ pairs ∨ log.start y = i ∧ g.before? q = some j) (kind : Kind) :
    Nests g pair (log.commit y kind none q) q pairs' (y :: made) (y :: tops) opens := by
  have hstart (x : Marker) := MarkerLog.start_commit hstage kind none q x
  have hbegins := (h.begins y (by simp)).2
  have hcut : Nests g pair (log.commit y kind none q) n pairs made (y :: tops) (y :: opens) :=
    (h.congr (fun m hm => MarkerLog.info?_commit_of_ne (hmade m hm).symm ..) fun x _ =>
      hstart x).cut fun o ho => ⟨ho, by
        rcases List.mem_cons.1 ho with rfl | ho
        · exact List.mem_cons_self
        · exact List.mem_cons_of_mem y (hopens o ho)⟩
  refine hcut.make hn rfl (MarkerLog.stop_commit hstage (by omega) ..)
    (fun o ho => ⟨List.mem_cons_of_mem y ho, hopens o ho⟩)
    (fun m hm heq => absurd heq ((hcut.free y List.mem_cons_self).2 m hm)) ?_ hpairs ?_
  · rwa [hstart y]
  · rwa [hstart y]

/-- A marker on top is wrapped together with what came behind it. It does not end where the wrapping node
does, as something came. -/
theorem enclose (h : Nests g pair log n pairs made (above ++ y :: tops) opens) (hn : n ≤ q)
    (habove : above ≠ []) (hmade : ∀ m ∈ made, m.number < log.markers.size)
    (htops : ∀ x ∈ above ++ y :: tops, x.number < log.markers.size) (hopens : ∀ o ∈ opens, o ∈ tops)
    (hwhole : ∀ i ∈ g.significantIn (log.start y) q, g.source.kind? i = some pair.opening →
      ∃ j ∈ g.significantIn (log.start y) q, (i, j) ∈ pairs) (kind : Kind) :
    Nests g pair (log.enclose y kind none q) q pairs (log.fresh :: made) (log.fresh :: tops) opens := by
  have hy : y ∈ above ++ y :: tops := by simp
  have hinfo (m : Marker) (hm : m.number < log.markers.size) :=
    MarkerLog.info?_enclose_of_lt (x := y) hm kind none q
  have hsame := MarkerLog.start_congr (hinfo y (htops y hy))
  have hbegins := (h.begins y hy).2
  obtain ⟨hstart, hstop⟩ : (log.enclose y kind none q).start log.fresh = log.start y ∧
      (log.enclose y kind none q).stop log.fresh = q :=
    MarkerLog.span_enclose (by omega) kind none
  have hcut : Nests g pair (log.enclose y kind none q) n pairs made (y :: tops) opens :=
    (h.congr (fun m hm => hinfo m (hmade m hm)) fun x hx =>
      MarkerLog.start_congr (hinfo x (htops x hx))).cut fun o ho =>
        ⟨ho, List.mem_cons_of_mem y (hopens o ho)⟩
  refine hcut.make hn (hstart.trans hsame.symm) hstop (fun o ho => ⟨ho, hopens o ho⟩)
    (fun m hm heq => ?_) ?_ (List.Subset.refl _) fun i j hij => .inl hij
  · -- what came right behind the marker begins before the wrapping node ends
    obtain ⟨z, zs, rfl⟩ := List.exists_cons_of_ne_nil habove
    rw [MarkerLog.start_congr (hinfo m (hmade m hm)), hsame] at heq
    rw [MarkerLog.stop_congr (hinfo m (hmade m hm))]
    refine h.before?_ne hn List.mem_cons_self hm ?_
    rw [heq]
    exact (List.pairwise_append.1 h.order).2.2 z List.mem_cons_self y List.mem_cons_self
  · rwa [hsame]

end Nests

/-! ## Whose markers they are -/

/-- Of the markers from a number on, some nodes were made, some markers are open, and the others came in
while something was asked. -/
structure Marked (base : Nat) (asked : Marker → Prop) (log : MarkerLog) (made opens : List Marker) :
    Prop where
  size : base ≤ log.markers.size
  nodes : ∀ m ∈ made, log.isCommitted m = true ∧ base ≤ m.number ∧ ¬asked m
  stages : ∀ o ∈ opens, log.stage? o = some .opened ∧ base ≤ o.number ∧ ¬asked o
  known : ∀ m, base ≤ m.number → m.number < log.markers.size → m ∈ made ∨ m ∈ opens ∨ asked m
  past : ∀ m, asked m → m.number < log.markers.size

namespace Marked

variable {base : Nat} {asked asked' : Marker → Prop} {log log' : MarkerLog} {made opens : List Marker}
  {m o x : Marker}

theorem lt_of_made (h : Marked base asked log made opens) (hm : m ∈ made) :
    m.number < log.markers.size :=
  MarkerLog.number_lt_of_stage? (MarkerLog.isCommitted_iff_stage?.1 (h.nodes m hm).1)

theorem lt_of_open (h : Marked base asked log made opens) (ho : o ∈ opens) :
    o.number < log.markers.size :=
  MarkerLog.number_lt_of_stage? (h.stages o ho).1

theorem ne_of_open (h : Marked base asked log made opens) (hm : m ∈ made) (ho : o ∈ opens) : m ≠ o := by
  rintro rfl
  have hstage := (h.stages m ho).1
  rw [MarkerLog.isCommitted_iff_stage?.1 (h.nodes m hm).1] at hstage
  cases hstage

/-- A marker with the next number comes in. -/
theorem fresh_cases (h : Marked base asked log made opens) :
    base ≤ log.fresh.number ∧ ¬asked log.fresh ∧
      ∀ m, base ≤ m.number → m.number < log.markers.size + 1 →
        m = log.fresh ∨ m ∈ made ∨ m ∈ opens ∨ asked m := by
  refine ⟨h.size, fun hasked => Nat.lt_irrefl _ (h.past _ hasked), fun m hbase hlt => ?_⟩
  rcases Nat.lt_succ_iff_lt_or_eq.1 hlt with hlt | heq
  · exact .inr (h.known m hbase hlt)
  · exact .inl (Marker.number_inj.1 heq)

theorem openAt (h : Marked base asked log made opens) (p : Nat) :
    Marked base asked (log.openAt p).2 made (log.fresh :: opens) := by
  obtain ⟨hbase, hnot, hcases⟩ := h.fresh_cases
  have hsize := MarkerLog.size_openAt log p
  constructor
  case size =>
    rw [hsize]
    exact Nat.le_succ_of_le h.size
  case nodes =>
    intro m hm
    refine ⟨?_, (h.nodes m hm).2⟩
    rw [MarkerLog.isCommitted_congr (MarkerLog.info?_openAt_of_lt (h.lt_of_made hm) p)]
    exact (h.nodes m hm).1
  case stages =>
    refine List.forall_mem_cons.2 ⟨⟨?_, hbase, hnot⟩, fun o ho => ⟨?_, (h.stages o ho).2⟩⟩
    · rw [MarkerLog.stage?_openAt, if_pos rfl]
    · rw [MarkerLog.stage?, MarkerLog.info?_openAt_of_lt (h.lt_of_open ho)]
      exact (h.stages o ho).1
  case known =>
    intro m hb hlt
    rcases hcases m hb (hsize ▸ hlt) with rfl | hm | ho | ha
    · exact .inr (.inl List.mem_cons_self)
    · exact .inl hm
    · exact .inr (.inl (List.mem_cons_of_mem _ ho))
    · exact .inr (.inr ha)
  case past =>
    intro m hm
    rw [hsize]
    exact Nat.lt_succ_of_lt (h.past m hm)

theorem commit (h : Marked base asked log made (o :: opens)) (hnot : o ∉ opens) (kind : Kind)
    (error : Option SyntaxError) (p : Nat) :
    Marked base asked (log.commit o kind error p) (o :: made) opens := by
  have hopen := h.stages o List.mem_cons_self
  have hsize := MarkerLog.size_commit log o kind error p
  constructor
  case size =>
    rw [hsize]
    exact h.size
  case nodes =>
    refine List.forall_mem_cons.2 ⟨⟨?_, hopen.2⟩, fun m hm => ⟨?_, (h.nodes m hm).2⟩⟩
    · rw [MarkerLog.isCommitted_iff_stage?, MarkerLog.stage?_commit hopen.1, if_pos rfl]
    · have hne := h.ne_of_open hm List.mem_cons_self
      rw [MarkerLog.isCommitted_congr (MarkerLog.info?_commit_of_ne hne.symm ..)]
      exact (h.nodes m hm).1
  case stages =>
    intro x hx
    have hx' := h.stages x (List.mem_cons_of_mem o hx)
    refine ⟨?_, hx'.2⟩
    rw [MarkerLog.stage?_commit hopen.1, if_neg fun he : x = o => hnot (he ▸ hx)]
    exact hx'.1
  case known =>
    intro m hb hlt
    rcases h.known m hb (hsize ▸ hlt) with hm | hm | hm
    · exact .inl (List.mem_cons_of_mem o hm)
    · rcases List.mem_cons.1 hm with rfl | hm
      · exact .inl List.mem_cons_self
      · exact .inr (.inl hm)
    · exact .inr (.inr hm)
  case past =>
    intro m hm
    rw [hsize]
    exact h.past m hm

theorem enclose (h : Marked base asked log made opens) (x : Marker) (kind : Kind)
    (error : Option SyntaxError) (p : Nat) :
    Marked base asked (log.enclose x kind error p) (log.fresh :: made) opens := by
  obtain ⟨hbase, hnot, hcases⟩ := h.fresh_cases
  have hsize : (log.enclose x kind error p).markers.size = log.markers.size + 1 := by
    rw [MarkerLog.enclose, MarkerLog.size_commit, MarkerLog.size_wrap]
  constructor
  case size =>
    rw [hsize]
    exact Nat.le_succ_of_le h.size
  case nodes =>
    refine List.forall_mem_cons.2 ⟨⟨?_, hbase, hnot⟩, fun m hm => ⟨?_, (h.nodes m hm).2⟩⟩
    · rw [MarkerLog.isCommitted_iff_stage?, MarkerLog.stage?_enclose, if_pos rfl]
    · rw [MarkerLog.isCommitted_congr (MarkerLog.info?_enclose_of_lt (h.lt_of_made hm) ..)]
      exact (h.nodes m hm).1
  case stages =>
    intro o ho
    refine ⟨?_, (h.stages o ho).2⟩
    rw [MarkerLog.stage?, MarkerLog.info?_enclose_of_lt (h.lt_of_open ho)]
    exact (h.stages o ho).1
  case known =>
    intro m hb hlt
    rcases hcases m hb (hsize ▸ hlt) with rfl | hm | ho | ha
    · exact .inl List.mem_cons_self
    · exact .inl (List.mem_cons_of_mem _ hm)
    · exact .inr (.inl ho)
    · exact .inr (.inr ha)
  case past =>
    intro m hm
    rw [hsize]
    exact Nat.lt_succ_of_lt (h.past m hm)

/-- What is known of the markers from the number on is kept while something is asked. -/
theorem asks (h : Marked base asked log made opens) (ho : o ∈ opens)
    (hkeeps : ∀ m info, base ≤ m.number → log.info? m = some info → log'.info? m = some info)
    (hasked : ∀ m, asked' m ↔
      asked m ∨ log.markers.size ≤ m.number ∧ m.number < log'.markers.size) :
    Marked base asked' log' made opens ∧
      ∀ m, m ∈ made ∨ m ∈ opens → log'.info? m = log.info? m := by
  have hkept (m : Marker) (hb : base ≤ m.number) (hlt : m.number < log.markers.size) :
      log'.info? m = log.info? m := by
    obtain ⟨info, hi⟩ : ∃ info, log.info? m = some info := ⟨_, Array.getElem?_eq_getElem hlt⟩
    rw [hkeeps m info hb hi, hi]
  have hmade (m : Marker) (hm : m ∈ made) := hkept m (h.nodes m hm).2.1 (h.lt_of_made hm)
  have hopens (m : Marker) (hm : m ∈ opens) := hkept m (h.stages m hm).2.1 (h.lt_of_open hm)
  have hsize : log.markers.size ≤ log'.markers.size :=
    MarkerLog.size_le_of_keeps (Nat.lt_of_le_of_lt (h.stages o ho).2.1 (h.lt_of_open ho)) hkeeps
  have hnot (m : Marker) (hlt : m.number < log.markers.size) (hm : ¬asked m) : ¬asked' m := by
    rw [hasked]
    rintro (ha | ⟨hge, -⟩)
    · exact hm ha
    · omega
  refine ⟨?_, fun m hm => hm.elim (hmade m) (hopens m)⟩
  constructor
  case size => exact Nat.le_trans h.size hsize
  case nodes =>
    intro m hm
    refine ⟨?_, (h.nodes m hm).2.1, hnot m (h.lt_of_made hm) (h.nodes m hm).2.2⟩
    rw [MarkerLog.isCommitted_congr (hmade m hm)]
    exact (h.nodes m hm).1
  case stages =>
    intro x hx
    refine ⟨?_, (h.stages x hx).2.1, hnot x (h.lt_of_open hx) (h.stages x hx).2.2⟩
    rw [MarkerLog.stage?, hopens x hx]
    exact (h.stages x hx).1
  case known =>
    intro m hb hlt
    by_cases hold : m.number < log.markers.size
    · rcases h.known m hb hold with hm | hm | hm
      · exact .inl hm
      · exact .inr (.inl hm)
      · exact .inr (.inr ((hasked m).2 (.inl hm)))
    · exact .inr (.inr ((hasked m).2 (.inr ⟨Nat.le_of_not_lt hold, hlt⟩)))
  case past =>
    intro m hm
    rcases (hasked m).1 hm with ha | ⟨-, hlt⟩
    · exact Nat.lt_of_lt_of_le (h.past m ha) hsize
    · exact hlt

end Marked

end Descent
