import Descent.Proofs.Session.Ascending
import Descent.Proofs.Session.Grouping
import Descent.Proofs.Session.LaminarWork
import Descent.Proofs.Session.Rounds
import Descent.Proofs.Tree.Sequel
import Mathlib.Data.Nat.Digits.Defs

/-!
# Grouping counts

The generations of the chunks that a run of items is grouped into are the digits of the number of
items: so many chunks of a generation are left as the digit at its place tells, and the digit at the last
place is the number of items that are in no chunk yet. A new chunk of the first generation adds one, and
each run that is wrapped is a carry (`Session.foldRounds_row`).
-/

namespace Descent

namespace Grouping

/-- So many times a generation, and then the later ones, as the digits tell. -/
def tally : List Nat → Nat → List Nat
  | [], _ => []
  | d :: ds, h => List.replicate d h ++ tally ds (h + 1)

variable {k : Nat}

theorem tally_digits (hk : 1 < k) (n h : Nat) :
    tally (k.digits n) h = List.replicate (n % k) h ++ tally (k.digits (n / k)) (h + 1) := by
  rcases Nat.eq_zero_or_pos n with rfl | hn
  · simp [tally]
  · rw [Nat.digits_def' hk hn, tally]

theorem le_of_mem_tally {ds : List Nat} {h x : Nat} (hx : x ∈ tally ds h) : h ≤ x := by
  induction ds generalizing h with
  | nil => cases hx
  | cons d ds ih =>
    rcases List.mem_append.1 hx with hx | hx
    · exact Nat.le_of_eq (List.eq_of_mem_replicate hx).symm
    · exact Nat.le_of_succ_le (ih hx)

theorem digits_succ (hk : 1 < k) {n : Nat} (hn : n % k + 1 < k) :
    (n + 1) % k = n % k + 1 ∧ (n + 1) / k = n / k := by
  refine ⟨by rw [Nat.add_mod, Nat.mod_eq_of_lt hk, Nat.mod_eq_of_lt hn], ?_⟩
  rw [Nat.add_div (by omega), if_neg (by rw [Nat.mod_eq_of_lt hk]; omega), Nat.div_eq_of_lt hk,
    Nat.add_zero]

theorem digits_carry (hk : 1 < k) {n : Nat} (hn : n % k + 1 = k) :
    (n + 1) % k = 0 ∧ (n + 1) / k = n / k + 1 := by
  refine ⟨by rw [Nat.add_mod, Nat.mod_eq_of_lt hk, hn, Nat.mod_self], ?_⟩
  rw [Nat.add_div (by omega), if_pos (by rw [Nat.mod_eq_of_lt hk]; omega), Nat.div_eq_of_lt hk,
    Nat.add_zero]

/-- One more does not carry unless the last digit is the greatest. -/
theorem tally_succ (hk : 1 < k) {n : Nat} (h : Nat) (hn : n % k + 1 < k) :
    tally (k.digits (n + 1)) h = h :: tally (k.digits n) h := by
  obtain ⟨hmod, hdiv⟩ := digits_succ hk hn
  rw [tally_digits hk, tally_digits hk n, hmod, hdiv, List.replicate_succ, List.cons_append]

/-- One more than a number with the greatest last digit carries. -/
theorem tally_carry (hk : 1 < k) {n : Nat} (h : Nat) (hn : n % k + 1 = k) :
    tally (k.digits (n + 1)) h = tally (k.digits (n / k + 1)) (h + 1) := by
  obtain ⟨hmod, hdiv⟩ := digits_carry hk hn
  rw [tally_digits hk, hmod, hdiv, List.replicate_zero, List.nil_append]

/-- The latest chunks of one generation are those in front of chunks of other ones. -/
theorem latestRun_eq {c : Grouping} {xs rest : List Chunk} {h : Nat} (hregions : c.regions = [])
    (hchunks : c.chunks = xs ++ rest) (hne : xs ≠ []) (hxs : ∀ y ∈ xs, y.generation = h)
    (hrest : ∀ y ∈ rest, y.generation ≠ h) : c.latestRun = xs := by
  have hboundary : c.boundary = none := by
    rw [boundary, hregions]
    rfl
  obtain ⟨x, xs, rfl⟩ := List.exists_cons_of_ne_nil hne
  have hx := hxs x List.mem_cons_self
  rw [latestRun, hchunks, List.cons_append]
  dsimp only
  rw [hboundary, hx, ← List.cons_append, List.takeWhile_append_of_pos fun y hy => by simp [hxs y hy]]
  cases rest with
  | nil => simp
  | cons y rest => simp [hrest y List.mem_cons_self]

/-- The latest chunks of one generation are as many as the last digit tells. -/
theorem exists_latestRun (hk : 1 < k) {c : Grouping} {m h : Nat} (hregions : c.regions = [])
    (hgenerations : c.chunks.map (·.generation) = h :: tally (k.digits m) h) :
    ∃ xs rest, c.chunks = xs ++ rest ∧ c.latestRun = xs ∧ xs.length = m % k + 1 ∧
      (∀ y ∈ xs, y.generation = h) ∧
      rest.map (·.generation) = tally (k.digits (m / k)) (h + 1) := by
  rw [tally_digits hk, ← List.cons_append, ← List.replicate_succ] at hgenerations
  obtain ⟨xs, rest, hchunks, hxs, hrest⟩ := List.map_eq_append_iff.1 hgenerations
  have hlength : xs.length = m % k + 1 := by simpa using congrArg List.length hxs
  have hgeneration : ∀ y ∈ xs, y.generation = h := fun y hy =>
    List.eq_of_mem_replicate (hxs ▸ List.mem_map_of_mem hy)
  have hothers : ∀ y ∈ rest, y.generation ≠ h := fun y hy => by
    have hmem : y.generation ∈ rest.map (·.generation) := List.mem_map_of_mem hy
    have hle := le_of_mem_tally (hrest ▸ hmem)
    omega
  have hne : xs ≠ [] := by
    rintro rfl
    cases hlength
  exact ⟨xs, rest, hchunks, latestRun_eq hregions hchunks hne hgeneration hothers, hlength, hgeneration,
    hrest⟩

end Grouping

namespace Session

open Grouping (tally)

variable {g : Setup} {kind : Kind} {old : MarkerLog} {c : Grouping} {s : Session} {p r : Nat}

/-- A chunk behind those that stand for a number makes them stand for the next one, once all runs that are
full have been wrapped. -/
theorem foldRounds_row (hsize : 1 < g.limits.fanOut) (rounds m h : Nat)
    (hrow : old.Row g kind p c.chunks r s.log) (hr : r ≤ s.position)
    (hcount : g.countBefore s.position = g.countBefore r) (hregions : c.regions = [])
    (hgenerations : c.chunks.map (·.generation) = h :: tally (g.limits.fanOut.digits m) h)
    (hrounds : c.chunks.length ≤ rounds) :
    ∃ cs r', (s.foldRounds g kind rounds c).1 = { c with chunks := cs } ∧
      (s.foldRounds g kind rounds c).2.position = s.position ∧
      old.Row g kind p cs r' (s.foldRounds g kind rounds c).2.log ∧ r' ≤ s.position ∧
      g.countBefore s.position = g.countBefore r' ∧
      cs.map (·.generation) = tally (g.limits.fanOut.digits (m + 1)) h := by
  induction rounds generalizing c s m h r with
  | zero =>
    rw [List.eq_nil_of_length_eq_zero (Nat.le_zero.1 hrounds)] at hgenerations
    cases hgenerations
  | succ rounds ih =>
    obtain ⟨xs, rest, hchunks, hrun, hlength, hgeneration, hrest⟩ :=
      Grouping.exists_latestRun hsize hregions hgenerations
    have hdigit := Nat.mod_lt m (Nat.lt_of_succ_lt hsize)
    by_cases hfull : m % g.limits.fanOut + 1 < g.limits.fanOut
    · rw [foldRounds_of_lt (by rwa [hrun, hlength])]
      exact ⟨c.chunks, r, rfl, rfl, hrow, hr, hcount,
        hgenerations.trans (Grouping.tally_succ hsize h hfull).symm⟩
    · have hcarry : m % g.limits.fanOut + 1 = g.limits.fanOut := by omega
      have hne : xs ≠ [] := List.ne_nil_of_length_eq_add_one hlength
      obtain ⟨init, x, rfl⟩ := (List.eq_nil_or_concat xs).resolve_left hne
      have hx := hgeneration x (by simp)
      rw [List.concat_eq_append] at *
      have hfold := (show old.Row g kind p (init ++ x :: rest) r s.log by
        rwa [hchunks, List.append_assoc] at hrow).fold hr (by omega) hgeneration hcount
      rw [← log_enclose] at hfold
      have hwrapped := foldRounds_of_run (g := g) (hrun ▸ List.prefix_rfl)
        (by rw [List.length_append, List.length_singleton] at hlength; omega)
        (hchunks.trans (List.append_assoc ..)) kind rounds s
      rw [hwrapped, hx]
      have hposition := s.position_enclose x.marker kind none
      obtain ⟨cs, r', hc, hp, hrow', hr', hcount', hcs⟩ :=
        ih (c := { c with chunks := ⟨s.log.fresh, h + 1⟩ :: rest })
          (s := (s.enclose x.marker kind none).note (.chunkFolded (h + 1)))
          (m / g.limits.fanOut) (h + 1) hfold (Nat.le_of_eq hposition.symm)
          (congrArg g.countBefore hposition) hregions (congrArg ((h + 1) :: ·) hrest) (by
            rw [hchunks, List.length_append] at hrounds
            simp only [List.length_cons]
            omega)
      refine ⟨cs, r', hc, hp.trans hposition, hrow', hposition ▸ hr', hposition ▸ hcount', ?_⟩
      rw [hcs, Grouping.tally_carry hsize h hcarry]

/-! ## Items -/

/-- A run of items over a session. So many times the condition holds where it is, and the item takes one
significant token and leaves the nodes as they are. Then one of the two fails, and what it may have made
is behind the items. -/
inductive Itemizes (g : Setup) (run : Runner) (level : Nat) (kind : Kind) (item eatMore : RuleRef) :
    Nat → Grouping → Session → Prop
  | item {n : Nat} {c c' : Grouping} {s s₀ s₁ s₂ : Session}
    (hopen : (s.toSignificant g).openCurrent g c = (c', s₀))
    (hmore : run eatMore (level + 1) s₀ = some (true, s₁)) (hhere : s₁.position = s₀.position)
    (hidle : s₀.log.Idle s₁.log) (hitem : run item (level + 1) s₁ = some (true, s₂))
    (hone : g.countBefore s₂.position = g.countBefore s₁.position + 1)
    (hidle' : s₁.log.Idle s₂.log)
    (hnext : Itemizes g run level kind item eatMore n
      (s₂.foldIfFull g kind { c' with inCurrent := c'.inCurrent + 1, total := c'.total + 1 }).1
      (s₂.foldIfFull g kind { c' with inCurrent := c'.inCurrent + 1, total := c'.total + 1 }).2) :
    Itemizes g run level kind item eatMore (n + 1) c s
  | noItem {c c' : Grouping} {s s₀ s₁ s₂ : Session}
    (hopen : (s.toSignificant g).openCurrent g c = (c', s₀))
    (hmore : run eatMore (level + 1) s₀ = some (true, s₁)) (hhere : s₁.position = s₀.position)
    (hidle : s₀.log.Idle s₁.log) (hitem : run item (level + 1) s₁ = some (false, s₂))
    (hadds : s₁.log.Adds s₁.position s₂.log) : Itemizes g run level kind item eatMore 0 c s
  | noMore {c c' : Grouping} {s s₀ s₁ : Session}
    (hopen : (s.toSignificant g).openCurrent g c = (c', s₀))
    (hmore : run eatMore (level + 1) s₀ = some (false, s₁))
    (hadds : s₀.log.Adds s₀.position s₁.log) : Itemizes g run level kind item eatMore 0 c s

/-- The chunk that items are added to was opened behind a row of chunks, and so many items are in it. -/
structure Filled (g : Setup) (kind : Kind) (s₀ : Session) (i : Nat) (c : Grouping) (s : Session) :
    Prop where
  current : ∃ log r q, s₀.log.Row g kind s₀.position c.chunks r log ∧ c.current = some log.fresh ∧
    (log.openAt q).2.Idle s.log ∧ r ≤ q ∧ g.countBefore q = g.countBefore r ∧ q ≤ s.position ∧
    g.countBefore s.position = g.countBefore q + i

/-- No chunk is open behind a row of chunks, and no item is there that is in none of them. -/
structure Folded (g : Setup) (kind : Kind) (s₀ : Session) (c : Grouping) (s : Session) : Prop where
  current : c.current = none
  row : ∃ r ≤ s.position, s₀.log.Row g kind s₀.position c.chunks r s.log ∧
    g.countBefore s.position = g.countBefore r

/-- The grouping of so many items. -/
structure Counts (g : Setup) (c : Grouping) (n : Nat) : Prop where
  regions : c.regions = []
  total : c.total = n
  inCurrent : c.inCurrent = n % g.limits.fanOut
  generations : c.chunks.map (·.generation) =
    tally (g.limits.fanOut.digits (n / g.limits.fanOut)) 1

/-- So many items were grouped since the session `s₀`, and the next one may come. -/
structure Counted (g : Setup) (kind : Kind) (s₀ : Session) (n : Nat) (c : Grouping) (s : Session) :
    Prop where
  counts : Counts g c n
  place : g.countBefore s.position = g.countBefore s₀.position + n
  log : Filled g kind s₀ (n % g.limits.fanOut) c s ∨
    n % g.limits.fanOut = 0 ∧ Folded g kind s₀ c s

section
variable {s₀ s₁ s' : Session} {c' : Grouping} {n i : Nat}

theorem countBefore_toSignificant (g : Setup) (s : Session) :
    g.countBefore (s.toSignificant g).position = g.countBefore s.position :=
  g.countBefore_significant s.position

theorem Counted.begin (h : s.log.Sound) (g : Setup) (kind : Kind) : Counted g kind s 0 {} s where
  counts := by
    refine ⟨rfl, rfl, (Nat.zero_mod _).symm, ?_⟩
    rw [Nat.zero_div, Nat.digits_zero]
    rfl
  place := rfl
  log := .inr ⟨Nat.zero_mod _, rfl, s.position, Nat.le_refl _, .refl h g kind s.position, rfl⟩

/-- What leaves the nodes as they are only moves on. -/
theorem Filled.idle (h : Filled g kind s₀ i c s) (hidle : s.log.Idle s₁.log) {j : Nat}
    (hle : s.position ≤ s₁.position)
    (hcount : g.countBefore s₁.position = g.countBefore s.position + j) :
    Filled g kind s₀ (i + j) c s₁ where
  current := by
    obtain ⟨log, r, q, hrow, hcurrent, hopen, hr, hq, hp, hi⟩ := h.current
    exact ⟨log, r, q, hrow, hcurrent, hopen.trans hidle, hr, hq, by omega, by omega⟩

/-- In each round a chunk is open that the item may be added to. -/
theorem Counted.openCurrent (h : Counted g kind s₀ n c s)
    (hopen : (s.toSignificant g).openCurrent g c = (c', s')) :
    Filled g kind s₀ (n % g.limits.fanOut) c' s' ∧ Counts g c' n ∧
      g.countBefore s'.position = g.countBefore s₀.position + n := by
  have hle := g.le_significant s.position
  have hcount := s.countBefore_toSignificant g
  rcases h.log with hfilled | ⟨hzero, hfolded⟩
  · obtain ⟨log, r, q, hrow, hcurrent, hidle, hr, hq, hp, hi⟩ := hfilled.current
    rw [Session.openCurrent, hcurrent] at hopen
    obtain ⟨rfl, rfl⟩ := Prod.mk.inj hopen
    refine ⟨⟨log, r, q, hrow, hcurrent, hidle, hr, hq, Nat.le_trans hp hle, hcount.trans hi⟩, h.counts,
      hcount.trans h.place⟩
  · obtain ⟨r, hr, hrow, hq⟩ := hfolded.row
    rw [Session.openCurrent, hfolded.current] at hopen
    obtain ⟨rfl, rfl⟩ := Prod.mk.inj hopen
    have hcount' := ((s.toSignificant g).countBefore_toSignificant g).trans hcount
    have hle' := Nat.le_trans hle (g.le_significant (s.toSignificant g).position)
    refine ⟨⟨s.log, r, _, hrow, rfl, .refl (hrow.sound.openAt _), Nat.le_trans hr hle',
      hcount'.trans hq, Nat.le_refl _, ?_⟩, ⟨h.counts.regions, h.counts.total, h.counts.inCurrent,
        h.counts.generations⟩, hcount'.trans h.place⟩
    rw [hzero]
    rfl

/-- A chunk with enough items in it is closed, and then the runs that are full are wrapped. -/
theorem foldIfFull_of_le {m : Marker} (hcurrent : c.current = some m)
    (hfull : g.limits.fanOut ≤ c.inCurrent) :
    s.foldIfFull g kind c = (s.commitAs m kind).foldRounds g kind (c.chunks.length + 1)
      { c with current := none, inCurrent := 0, chunks := ⟨m, 1⟩ :: c.chunks } := by
  have hclose : s.closeCurrent kind c =
      ({ c with current := none, inCurrent := 0, chunks := ⟨m, 1⟩ :: c.chunks },
        s.commitAs m kind) := by
    rw [closeCurrent, hcurrent]
  rw [foldIfFull, if_pos hfull, hclose, foldFull]
  rfl

section
variable (hsize : 1 < g.limits.fanOut) (h : Filled g kind s₀ (n % g.limits.fanOut + 1) c s)
  (hcounts : Counts g c n)
  (hplace : g.countBefore s.position = g.countBefore s₀.position + (n + 1))
include hsize h hcounts hplace

/-- Another item counts, where there is room for it. -/
theorem Filled.another_of_lt (hroom : n % g.limits.fanOut + 1 < g.limits.fanOut) :
    Counted g kind s₀ (n + 1) { c with inCurrent := c.inCurrent + 1, total := c.total + 1 } s := by
  obtain ⟨hmod, hdiv⟩ := Grouping.digits_succ hsize hroom
  refine ⟨⟨hcounts.regions, congrArg (· + 1) hcounts.total, ?_, ?_⟩, hplace, .inl ?_⟩
  · rw [hmod, ← hcounts.inCurrent]
  · rw [hdiv, ← hcounts.generations]
  · rw [hmod]
    exact ⟨h.current⟩

/-- With the last item that there is room for, a chunk is closed, and the count carries. -/
theorem Filled.another_of_carry (hcarry : n % g.limits.fanOut + 1 = g.limits.fanOut) :
    let x := s.foldIfFull g kind { c with inCurrent := c.inCurrent + 1, total := c.total + 1 }
    Counted g kind s₀ (n + 1) x.1 x.2 ∧ x.2.position = s.position := by
  intro x
  obtain ⟨hmod, hdiv⟩ := Grouping.digits_carry hsize hcarry
  obtain ⟨log, r, q, hrow, hcurrent, hidle, hr, hq, hp, hi⟩ := h.current
  let closed : Grouping :=
    { c with current := none, inCurrent := 0, total := c.total + 1
             chunks := ⟨log.fresh, 1⟩ :: c.chunks }
  have hx : x = (s.commitAs log.fresh kind).foldRounds g kind closed.chunks.length closed :=
    foldIfFull_of_le hcurrent (Nat.le_of_eq (by rw [hcounts.inCurrent, hcarry]))
  have hposition : (s.commitAs log.fresh kind).position = s.position := position_commit ..
  have hclosed : s₀.log.Row g kind s₀.position closed.chunks s.position
      (s.commitAs log.fresh kind).log := by
    rw [commitAs, log_commit]
    exact hrow.close hidle hr hq hp (by omega)
  obtain ⟨cs, r', hc, hpos, hrow', hr', hcount', hcs⟩ :=
    foldRounds_row hsize closed.chunks.length (n / g.limits.fanOut) 1 hclosed
      (Nat.le_of_eq hposition.symm) (congrArg g.countBefore hposition) hcounts.regions
      (congrArg (1 :: ·) hcounts.generations) (Nat.le_refl _)
  rw [← hx] at hc hpos hrow'
  rw [← hpos] at hr' hcount'
  have hlast : x.2.position = s.position := hpos.trans hposition
  have hcounts' : Counts g { closed with chunks := cs } (n + 1) :=
    ⟨hcounts.regions, congrArg (· + 1) hcounts.total, hmod.symm, by rw [hdiv]; exact hcs⟩
  have hfolded : Folded g kind s₀ { closed with chunks := cs } x.2 := ⟨rfl, r', hr', hrow', hcount'⟩
  rw [hc]
  exact ⟨⟨hcounts', by rw [hlast, hplace], .inr ⟨hmod, hfolded⟩⟩, hlast⟩

/-- Another item counts, and a chunk with enough items in it is closed. -/
theorem Filled.foldIfFull :
    let x := s.foldIfFull g kind { c with inCurrent := c.inCurrent + 1, total := c.total + 1 }
    Counted g kind s₀ (n + 1) x.1 x.2 ∧ x.2.position = s.position := by
  intro x
  have hdigit := Nat.mod_lt n (Nat.lt_of_succ_lt hsize)
  by_cases hroom : n % g.limits.fanOut + 1 < g.limits.fanOut
  · have hx : x = ({ c with inCurrent := c.inCurrent + 1, total := c.total + 1 }, s) :=
      if_neg (by simp only [hcounts.inCurrent]; omega)
    rw [hx]
    exact ⟨h.another_of_lt hsize hcounts hplace hroom, rfl⟩
  · exact h.another_of_carry hsize hcounts hplace (by omega)

end

theorem roundStep_none (run : Runner) (level : Nat) (item eatMore : RuleRef)
    (hregions : c.regions = []) (hopen : s.openCurrent g c = (c', s')) :
    s.roundStep g run level kind none item eatMore c = (run eatMore (level + 1) s').bind fun x =>
      (if x.1 then run item (level + 1) x.2 else some (false, x.2)).bind fun y =>
        if y.1 then
          some (true, { c' with inCurrent := c'.inCurrent + 1, total := c'.total + 1 }, y.2)
        else some (false, c', y.2) := by
  have hnone : c'.regions.isEmpty = true := by
    have hsame : (s.openCurrent g c).1.regions = c.regions := by
      rw [Session.openCurrent]
      split <;> rfl
    rw [hopen, hregions] at hsame
    rw [hsame]
    rfl
  rw [roundStep, Option.filter_none]
  dsimp only
  rw [itemStep_eq, hopen, if_pos hnone]

/-- After all items the chunk that they are added to is open, and what was done then is behind. -/
theorem Itemizes.groupItems {run : Runner} {level m rounds : Nat} {item eatMore : RuleRef}
    (hsize : 1 < g.limits.fanOut) (h : Itemizes g run level kind item eatMore m c s)
    (hcounted : Counted g kind s₀ n c s) (hrounds : m < rounds) :
    ∃ c' s₁ s', s.groupItems g run level kind none item eatMore rounds c = some (c', s') ∧
      Counts g c' (n + m) ∧ Filled g kind s₀ ((n + m) % g.limits.fanOut) c' s₁ ∧
      g.countBefore s₁.position = g.countBefore s₀.position + (n + m) ∧
      s₁.log.Adds s₁.position s'.log := by
  induction h generalizing n rounds with
  | @item m c c' s t t₁ t₂ hopen hmore hhere hidle hitem hone hidle' _ ih =>
    obtain ⟨rounds, rfl⟩ := Nat.exists_eq_add_one_of_ne_zero (Nat.ne_of_gt (Nat.zero_lt_of_lt hrounds))
    obtain ⟨hfilled, hcounts, hplace⟩ := hcounted.openCurrent hopen
    have hlt : t₁.position < t₂.position := Setup.lt_of_countBefore_lt (g := g) (by omega)
    have hone' : g.countBefore t₂.position = g.countBefore t.position + 1 := by rw [hone, hhere]
    have hfull := hfilled.idle (hidle.trans hidle') (by omega) hone'
    obtain ⟨hcounted', hposition⟩ := hfull.foldIfFull hsize hcounts (by omega)
    obtain ⟨d, t₃, t', heq, hcounts', hfilled', hplace', hadds⟩ :=
      ih hcounted' (Nat.lt_of_succ_lt_succ hrounds)
    have hmoved : s.position ≠ (t₂.foldIfFull g kind
        { c' with inCurrent := c'.inCurrent + 1, total := c'.total + 1 }).2.position := by
      intro heq
      have hbefore := hcounted.place
      rw [heq, hposition] at hbefore
      omega
    have hsum : n + 1 + m = n + (m + 1) := by omega
    rw [hsum] at hcounts' hfilled' hplace'
    refine ⟨d, t₃, t', ?_, hcounts', hfilled', hplace', hadds⟩
    rw [groupItems_succ, roundStep_none run level item eatMore hcounted.counts.regions hopen, hmore,
      Option.bind_some, if_pos rfl, hitem, Option.bind_some, if_pos rfl, Option.bind_some]
    dsimp only
    rw [guardProgress, if_pos hmoved]
    exact heq
  | @noItem c c' s t t₁ t₂ hopen hmore hhere hidle hitem hadds =>
    obtain ⟨rounds, rfl⟩ := Nat.exists_eq_add_one_of_ne_zero (Nat.ne_of_gt hrounds)
    obtain ⟨hfilled, hcounts, hplace⟩ := hcounted.openCurrent hopen
    have hstays := hfilled.idle (j := 0) hidle (Nat.le_of_eq hhere.symm) (by rw [hhere]; rfl)
    refine ⟨c', t₁, t₂, ?_, hcounts, hstays, by rw [hhere]; exact hplace, hadds⟩
    rw [groupItems_succ, roundStep_none run level item eatMore hcounted.counts.regions hopen, hmore,
      Option.bind_some, if_pos rfl, hitem]
    rfl
  | @noMore c c' s t t₁ hopen hmore hadds =>
    obtain ⟨rounds, rfl⟩ := Nat.exists_eq_add_one_of_ne_zero (Nat.ne_of_gt hrounds)
    obtain ⟨hfilled, hcounts, hplace⟩ := hcounted.openCurrent hopen
    refine ⟨c', t, t₁, ?_, hcounts, hfilled, hplace, hadds⟩
    rw [groupItems_succ, roundStep_none run level item eatMore hcounted.counts.regions hopen, hmore]
    rfl

end

end Session

namespace Session

end Session

end Descent
