import Descent.Proofs.Session.Ledger

/-!
# Regions and their chunks

No chunk has an opening delimiter without the one that closes it, and each pair of delimiters that match
has one chunk of its own, from the one to the other (`Session.groupRun_encloses`). A round passes one token
and keeps the books (`Ledger.roundStep`), whatever it does to them, and in the end the regions that are
still open are dropped.
-/

namespace Descent

/-- The rule leaves the markers from a number on as they are. -/
def Runner.KeepsFrom (run : Runner) (rule : RuleRef) (level size : Nat) : Prop :=
  ∀ s b s', run rule level s = some (b, s') → ∀ m info, size ≤ m.number →
    s.log.info? m = some info → s'.log.info? m = some info

namespace Session

variable {g : Setup} {run : Runner} {pair : Delimiters} {c : Grouping} {s : Session} {eatMore : RuleRef}
  {kind : Kind} {level n : Nat} {b : Bool}

/-! ## What the condition brings in -/

/-- A marker came in while the condition was asked whether to go on. It is asked where no region is open
and no opening delimiter comes next. -/
def AskedAt (g : Setup) (run : Runner) (level : Nat) (pair : Delimiters) (eatMore : RuleRef)
    (x : Grouping × Session) (m : Marker) : Prop :=
  x.1.regions = [] ∧ (x.2.toSignificant g).kindHere? g ≠ some pair.opening ∧
    ∃ b s, run eatMore (level + 1) ((x.2.toSignificant g).openCurrent g x.1).2 = some (b, s) ∧
      ((x.2.toSignificant g).openCurrent g x.1).2.log.markers.size ≤ m.number ∧
      m.number < s.log.markers.size

/-- A marker came in while the condition was asked in one of the first rounds. -/
def AskedBefore (g : Setup) (run : Runner) (level : Nat) (kind : Kind) (pair : Delimiters)
    (eatMore : RuleRef) (first : Grouping × Session) (n : Nat) (m : Marker) : Prop :=
  ∃ k x, k < n ∧ Turns (groupTurn g run level kind (some pair) .advance eatMore) k first x ∧
    AskedAt g run level pair eatMore x m

theorem askedBefore_succ {first x : Grouping × Session}
    (hx : Turns (groupTurn g run level kind (some pair) .advance eatMore) n first x) (m : Marker) :
    AskedBefore g run level kind pair eatMore first (n + 1) m ↔
      AskedBefore g run level kind pair eatMore first n m ∨ AskedAt g run level pair eatMore x m := by
  constructor
  · rintro ⟨k, y, hk, hy, hm⟩
    rcases Nat.lt_succ_iff_lt_or_eq.1 hk with hlt | rfl
    · exact .inl ⟨k, y, hlt, hy, hm⟩
    · obtain rfl : x = y := Option.some.inj
        ((turns_iff_afterRounds.1 hx).symm.trans (turns_iff_afterRounds.1 hy))
      exact .inr hm
  · rintro (⟨k, y, hk, hy, hm⟩ | hm)
    · exact ⟨k, y, Nat.lt_succ_of_lt hk, hy, hm⟩
    · exact ⟨n, x, Nat.lt_succ_self n, hx, hm⟩

/-! ## Rounds with regions -/

/-- A step from a token leads behind it. There is none only at the end. -/
theorem stepOver_eq_or_eq (g : Setup) (s : Session) :
    s.stepOver g = (true, { s with position := g.significant s.position + 1 }) ∨
      s.stepOver g = (false, s.toSignificant g) := by
  unfold stepOver
  dsimp only
  split
  · exact .inr rfl
  · exact .inl rfl

/-- An item that is a step from a token leads behind it. Where there is none, the cursor stays. -/
theorem item_advance {more : Bool} {t : Session} (hrun : run.Standard g)
    (h : (if more then run .advance level s else some (false, s)) = some (b, t)) :
    t.log = s.log ∧ (b = true → t.position = g.significant s.position + 1) ∧
      (b = false → g.significant t.position = g.significant s.position) := by
  cases more with
  | false =>
    obtain ⟨rfl, rfl⟩ := Prod.mk.inj (Option.some.inj h)
    exact ⟨rfl, fun h => absurd h (by decide), fun _ => rfl⟩
  | true =>
    rw [if_pos rfl, hrun.advance] at h
    have h : s.stepOver g = (b, t) := Option.some.inj h
    rcases stepOver_eq_or_eq g s with heq | heq
    · obtain ⟨rfl, rfl⟩ := Prod.mk.inj (heq.symm.trans h)
      exact ⟨rfl, fun _ => rfl, fun h => absurd h (by decide)⟩
    · obtain ⟨rfl, rfl⟩ := Prod.mk.inj (heq.symm.trans h)
      exact ⟨rfl, fun h => absurd h (by decide), fun _ => significant_significant g s.position⟩

theorem openCurrent_spec (hs : g.isTriviaAt s.position = false) (c : Grouping) :
    (s.openCurrent g c).2.position = s.position ∧ (s.openCurrent g c).1.regions = c.regions ∧
      ∃ m, (s.openCurrent g c).1.current = some m := by
  unfold openCurrent
  split
  · next m hm => exact ⟨rfl, rfl, m, hm⟩
  · exact ⟨Setup.significant_of_token hs, rfl, _, rfl⟩

end Session

namespace Ledger

open Session (AskedAt AskedBefore askedBefore_succ roundStep_cases groupTurn groupTurn_cases
  item_advance openCurrent_spec itemStep_eq delimiterStep_of_token significant_significant
  exists_foldFull position_closeCurrent position_commit position_foldFull position_foldIfFull log_commit
  current_closeCurrent regions_closeCurrent)

variable {g : Setup} {run : Runner} {o : Outset g} {asked asked' : Marker → Prop}
  {made stack : List Marker} {n : Nat} {c c' : Grouping} {s s' : Session} {eatMore : RuleRef}
  {kind : Kind} {level : Nat} {b : Bool}

/-- What the condition brings in is new, and only with no region open is it asked. -/
theorem asks {m : Marker} {more : Bool} {t : Session} (heat : run.StaysAt g eatMore level)
    (hkeeps : run.KeepsFrom eatMore level o.size)
    (h : Ledger o asked made stack n s.position c s.log) (hcurrent : c.current = some m)
    (hasked : ∀ m, asked' m ↔ asked m ∨ c.regions = [] ∧ ∃ b t, run eatMore level s = some (b, t) ∧
      s.log.markers.size ≤ m.number ∧ m.number < t.log.markers.size)
    (ht : (if c.regions.isEmpty then run eatMore level s else some (true, s)) = some (more, t)) :
    Ledger o asked' made stack n s.position c t.log ∧
      g.significant t.position = g.significant s.position := by
  split at ht
  · next hempty =>
    have hnew (m : Marker) : asked' m ↔ asked m ∨
        s.log.markers.size ≤ m.number ∧ m.number < t.log.markers.size := by
      rw [hasked m]
      refine or_congr_right ⟨?_, fun hm => ⟨List.isEmpty_iff.1 hempty, more, t, ht, hm⟩⟩
      rintro ⟨-, more', t', ht', hm⟩
      obtain ⟨-, rfl⟩ := Prod.mk.inj (Option.some.inj (ht.symm.trans ht'))
      exact hm
    have hopen : m ∈ c.opens := by rw [Grouping.opens, hcurrent]; exact List.mem_cons_self
    obtain ⟨hmarked, hinfo⟩ := h.marked.asks hopen (hkeeps _ _ _ ht) hnew
    exact ⟨h.congr_log hmarked hinfo, heat _ _ _ ht⟩
  · next hsome =>
    obtain rfl : asked' = asked := funext fun m => propext <| (hasked m).trans <|
      or_iff_left fun hm => hsome (List.isEmpty_iff.2 hm.1)
    obtain ⟨-, rfl⟩ := Prod.mk.inj (Option.some.inj ht)
    exact ⟨h, rfl⟩

section
variable (hp : o.position ≤ s.position) (hs : g.isTriviaAt s.position = false)
  (h : Ledger o asked made stack s.position s.position c s.log) (hcurrent : c.current = none)
include hp hs h hcurrent

/-- An opening delimiter opens a region. Nothing is within its reach yet, so nothing is folded. -/
theorem opening_step (hopening : s.kindHere? g = some o.pair.opening) (kind : Kind)
    {y z : Grouping × Session} (hy : s.openRegion g o.pair (s.kindHere? g) c = y)
    (hz : { (y.2.foldFull g kind y.1).2 with position := s.position + 1 }.closeRegion g kind o.pair
      (s.kindHere? g) (y.2.foldFull g kind y.1).1 = z) :
    (∃ made stack, Ledger o asked made stack z.2.position z.2.position z.1 z.2.log) ∧
      z.2.position = s.position + 1 := by
  have hopen := h.openRegion (Nat.le_refl _) hp hs hopening hcurrent
  rw [Session.openRegion, if_pos hopening] at hy
  subst hy
  rw [Session.foldFull_of_reach rfl, Session.closeRegion, if_neg (by
    rw [hopening]; exact fun heq => o.differ (Option.some.inj heq))] at hz
  subst hz
  refine ⟨⟨made, s.log.fresh :: stack, ?_⟩, rfl⟩
  show Ledger o asked made _ (s.position + 1) (s.position + 1) _
    (s.log.openAt (g.significant s.position)).2
  rw [Setup.significant_of_token hs]
  exact hopen

/-- A closing delimiter makes a chunk of the region that was opened last. -/
theorem closing_step (hclosing : s.kindHere? g = some o.pair.closing) (hregions : c.regions ≠ [])
    (kind : Kind) {y z : Grouping × Session} (hy : s.openRegion g o.pair (s.kindHere? g) c = y)
    (hz : { (y.2.foldFull g kind y.1).2 with position := s.position + 1 }.closeRegion g kind o.pair
      (s.kindHere? g) (y.2.foldFull g kind y.1).1 = z) :
    (∃ made stack, Ledger o asked made stack z.2.position z.2.position z.1 z.2.log) ∧
      z.2.position = s.position + 1 := by
  obtain ⟨region, regions, heq⟩ := List.exists_cons_of_ne_nil hregions
  rw [Session.openRegion, if_neg (by
    rw [hclosing]; exact fun heq => o.differ (Option.some.inj heq).symm)] at hy
  subst hy
  obtain ⟨made₁, stack₁, hfolded⟩ := h.foldFull hp hcurrent kind
  obtain ⟨chunks, hchunks, -⟩ := exists_foldFull g kind c s
  generalize s.foldFull g kind c = x at hz hfolded hchunks
  have hx : x.1.current = none := by rw [hchunks]; exact hcurrent
  have hxregions : x.1.regions = region :: regions := by rw [hchunks]; exact heq
  obtain ⟨made₂, stack₂, hcommitted⟩ := hfolded.closeRegion (Nat.le_refl _) hp hs hclosing hx
    hxregions kind
  rw [Session.closeRegion, if_pos hclosing, hxregions] at hz
  dsimp only at hz
  generalize hu : Session.commitAs region.marker kind { x.2 with position := s.position + 1 } = u at hz
  have hlog : u.log = x.2.log.commit region.marker kind none (s.position + 1) := by
    rw [← hu, Session.commitAs, log_commit]
  have hat : u.position = s.position + 1 := by
    rw [← hu, Session.commitAs, position_commit]
  rw [← hlog, ← hat] at hcommitted
  have hlast := hcommitted.foldFull (by omega) hx kind
  rw [← position_foldFull g kind, hz] at hlast
  refine ⟨hlast, ?_⟩
  rw [← hz, position_foldFull, hat]

end

section
variable (hrun : run.Standard g) (hp : o.position ≤ s.position) (hs : g.isTriviaAt s.position = false)
include hrun hp hs

/-- An item that no one minds is passed, or it is the end. -/
theorem itemStep (heat : run.StaysAt g eatMore (level + 1))
    (hkeeps : run.KeepsFrom eatMore (level + 1) o.size)
    (hopening : s.kindHere? g ≠ some o.pair.opening)
    (hclosing : s.kindHere? g = some o.pair.closing → c.regions = [])
    (h : Ledger o asked made stack n s.position c s.log) (hn : n ≤ s.position)
    (hasked : ∀ m, asked' m ↔ asked m ∨ c.regions = [] ∧
      ∃ b t, run eatMore (level + 1) (s.openCurrent g c).2 = some (b, t) ∧
        (s.openCurrent g c).2.log.markers.size ≤ m.number ∧ m.number < t.log.markers.size)
    (hstep : s.itemStep g run level .advance eatMore c = some (b, c', s')) :
    Ledger o asked' made stack (s.position + 1) s'.position c' s'.log ∧
      (b = true → s'.position = s.position + 1) := by
  have hopened := h.openCurrent hn hp hs
  obtain ⟨hposition, hregions, m, hm⟩ := openCurrent_spec hs c
  rw [itemStep_eq] at hstep
  generalize s.openCurrent g c = x at hstep hopened hposition hregions hm hasked
  obtain ⟨⟨more, t⟩, ht, hstep⟩ := Option.bind_eq_some_iff.1 hstep
  obtain ⟨⟨parsed, u⟩, hu, hstep⟩ := Option.bind_eq_some_iff.1 hstep
  rw [← hposition] at hopened
  obtain ⟨hledger, hsignificant⟩ := hopened.asks heat hkeeps hm (hregions ▸ hasked) ht
  rw [hposition] at hledger hsignificant
  rw [Setup.significant_of_token hs] at hsignificant
  obtain ⟨hlog, hnext, hend⟩ := item_advance hrun hu
  rw [hsignificant] at hnext hend
  rw [← hlog] at hledger
  cases parsed with
  | true =>
    obtain ⟨rfl, rfl, rfl⟩ : true = b ∧ { x.1 with
        inCurrent := x.1.inCurrent + 1
        total := x.1.total + 1 } = c' ∧ u = s' := by simpa using hstep
    have hpass := hledger.pass hp hs hopening fun hc => hregions.trans (hclosing hc)
    rw [hnext rfl]
    exact ⟨{ hpass with }, fun _ => rfl⟩
  | false =>
    obtain ⟨rfl, rfl, rfl⟩ : false = b ∧ x.1 = c' ∧ u = s' := by simpa using hstep
    refine ⟨hledger.congr_position ?_, fun h => absurd h (by decide)⟩
    rw [hend rfl, Setup.significant_of_token hs]

/-- Stepping over a delimiter opens or closes a region. -/
theorem delimiterStep (hadvancer : g.advancer = .advance)
    (htoken : s.kindHere? g = some o.pair.opening ∨
      s.kindHere? g = some o.pair.closing ∧ c.regions ≠ [])
    (h : Ledger o asked made stack n s.position c s.log) (hn : n ≤ s.position)
    (hstep : s.delimiterStep g run level kind o.pair c = some (c', s')) :
    (∃ made stack, Ledger o asked made stack s'.position s'.position c' s'.log) ∧
      s'.position = s.position + 1 := by
  have hsome : (s.kindHere? g).isSome = true := by
    rcases htoken with ho | ⟨hc, -⟩
    · rw [ho]; rfl
    · rw [hc]; rfl
  rw [delimiterStep_of_token hadvancer hrun hs hsome] at hstep
  obtain ⟨made₁, stack₁, hclosed⟩ := h.closeCurrent hn hp kind
  have hposition := position_closeCurrent kind c s
  have hcurrent := current_closeCurrent kind c s
  have hregions := regions_closeCurrent kind c s
  dsimp only at hstep
  generalize s.closeCurrent kind c = x at hstep hclosed hposition hcurrent hregions
  have hkind : s.kindHere? g = x.2.kindHere? g := congrArg g.source.kind? hposition.symm
  rw [hkind] at htoken
  rw [hkind, ← hposition] at hstep
  rw [← hposition] at hclosed hp hs ⊢
  rcases htoken with ho | ⟨hc, hne⟩
  · exact hclosed.opening_step hp hs hcurrent ho kind rfl (Option.some.inj hstep)
  · exact hclosed.closing_step hp hs hcurrent hc (hregions ▸ hne) kind rfl (Option.some.inj hstep)

end

section
variable (hadvancer : g.advancer = .advance) (hrun : run.Standard g)
  (heat : run.StaysAt g eatMore (level + 1)) (hkeeps : run.KeepsFrom eatMore (level + 1) o.size)
include hadvancer hrun heat hkeeps

/-- A round passes one token, or it is the last. -/
theorem roundStep (hp : o.position ≤ s.position)
    (h : Ledger o asked made stack s.position s.position c s.log)
    (hasked : ∀ m, asked' m ↔ asked m ∨ AskedAt g run level o.pair eatMore (c, s) m)
    (hstep : (s.toSignificant g).roundStep g run level kind (some o.pair) .advance eatMore c =
      some (b, c', s')) :
    ∃ made stack n, Ledger o asked' made stack n s'.position c' s'.log ∧
      (b = true → s'.position = g.significant s.position + 1 ∧ n = s'.position) := by
  have hs : g.isTriviaAt (s.toSignificant g).position = false := (g.significant_spec s.position).1
  have hle : s.position ≤ (s.toSignificant g).position := g.le_significant s.position
  have hhere : Ledger o asked made stack s.position (s.toSignificant g).position c
      (s.toSignificant g).log := h.congr_position (significant_significant g s.position).symm
  rcases roundStep_cases hstep with ⟨pair, hpair, htoken, rfl, hdelimiter⟩ | ⟨hminds, hitem⟩
  · obtain rfl := Option.some.inj hpair
    have hnever : asked' = asked := funext fun m => propext <| (hasked m).trans <|
      or_iff_left fun ⟨hregions, hopening, _⟩ => htoken.elim hopening fun h => h.2 hregions
    obtain ⟨⟨made, stack, hstepped⟩, hnext⟩ := hhere.delimiterStep hrun (Nat.le_trans hp hle) hs
      hadvancer htoken hle hdelimiter
    exact ⟨made, stack, _, hnever ▸ hstepped, fun _ => ⟨hnext, rfl⟩⟩
  · obtain ⟨hopening, hclosing⟩ := hminds o.pair rfl
    obtain ⟨hstepped, hnext⟩ := hhere.itemStep hrun (Nat.le_trans hp hle) hs heat hkeeps hopening
      hclosing hle (fun m => (hasked m).trans (or_congr_right
        ⟨fun h => ⟨h.1, h.2.2⟩, fun h => ⟨h.1, hopening, h.2⟩⟩)) hitem
    exact ⟨made, stack, _, hstepped, fun hb => ⟨hnext hb, (hnext hb).symm⟩⟩

/-- Each round begins with all in order. -/
theorem of_turns {first x : Grouping × Session}
    (hfirst : o.position ≤ first.2.position ∧ ∃ made stack,
      Ledger o (AskedBefore g run level kind o.pair eatMore first 0) made stack first.2.position
        first.2.position first.1 first.2.log)
    (h : Turns (groupTurn g run level kind (some o.pair) .advance eatMore) n first x) :
    o.position ≤ x.2.position ∧ ∃ made stack,
      Ledger o (AskedBefore g run level kind o.pair eatMore first n) made stack x.2.position
        x.2.position x.1 x.2.log := by
  refine Turns.induction (motive := fun n x => o.position ≤ x.2.position ∧ ∃ made stack,
    Ledger o (AskedBefore g run level kind o.pair eatMore first n) made stack x.2.position
      x.2.position x.1 x.2.log) hfirst ?_ h
  rintro n ⟨c, s⟩ y hturns ⟨hp, made, stack, hledger⟩ hturn
  obtain ⟨b, c₁, s₁, hstep, ⟨-, hr⟩ | ⟨rfl, -, hr⟩ | ⟨-, -, t, hr, -⟩⟩ := groupTurn_cases hturn
  · cases hr
  · obtain rfl : y = s₁.foldIfFull g kind c₁ := Turn.on.inj hr
    obtain ⟨made, stack, _, hstepped, hnext⟩ := hledger.roundStep hadvancer hrun heat hkeeps hp
      (askedBefore_succ hturns) hstep
    obtain ⟨hposition, rfl⟩ := hnext rfl
    have hnow : o.position ≤ s₁.position := by
      rw [hposition]
      exact Nat.le_succ_of_le (Nat.le_trans hp (g.le_significant s.position))
    rw [position_foldIfFull]
    refine ⟨hnow, ?_⟩
    unfold Session.foldIfFull
    split
    · obtain ⟨made, stack, hclosed⟩ := hstepped.closeCurrent (Nat.le_refl _) hnow kind
      rw [← position_closeCurrent kind c₁ s₁] at hclosed hnow ⊢
      exact hclosed.foldFull hnow (current_closeCurrent kind c₁ s₁) kind
    · exact ⟨made, stack, hstepped⟩
  · cases hr

end

end Ledger

/-! ## Whole runs -/

namespace MarkerLog

variable {log : MarkerLog} {m : Marker} {ms : List Marker}

theorem info?_drops (hm : m ∉ ms) : (ms.foldl drop log).info? m = log.info? m := by
  induction ms generalizing log with
  | nil => rfl
  | cons x ms ih =>
    obtain ⟨hne, hm⟩ := not_or.1 fun hor => hm (List.mem_cons.2 hor)
    rw [List.foldl_cons, ih hm, info?_drop_of_ne (Ne.symm hne)]

theorem isCommitted_drops (hm : m ∈ ms) : (ms.foldl drop log).isCommitted m = false := by
  induction ms generalizing log with
  | nil => cases hm
  | cons x ms ih =>
    by_cases hmem : m ∈ ms
    · exact ih hmem
    · obtain rfl := (List.mem_cons.1 hm).resolve_right hmem
      rw [List.foldl_cons, isCommitted_congr (info?_drops hmem), isCommitted_drop_self]

theorem size_drops (ms : List Marker) (log : MarkerLog) :
    (ms.foldl drop log).markers.size = log.markers.size := by
  induction ms generalizing log with
  | nil => rfl
  | cons x ms ih => rw [List.foldl_cons, ih, size_drop]

end MarkerLog

/-- Where what is open is dropped, the nodes that were made stay, and the others came in while something was
asked. -/
theorem Marked.drops {base : Nat} {asked : Marker → Prop} {log : MarkerLog} {made opens ms : List Marker}
    (h : Marked base asked log made opens) (hms : ∀ m, m ∈ ms ↔ m ∈ opens) :
    (∀ m ∈ made, (ms.foldl MarkerLog.drop log).info? m = log.info? m) ∧
      ∀ m, base ≤ m.number → (ms.foldl MarkerLog.drop log).isCommitted m = true →
        m ∈ made ∨ asked m := by
  refine ⟨fun m hm => MarkerLog.info?_drops fun hmem => ?_, fun m hbase hcommitted => ?_⟩
  · exact h.ne_of_open hm ((hms m).1 hmem) rfl
  · have hlt := MarkerLog.number_lt_of_stage? (MarkerLog.isCommitted_iff_stage?.1 hcommitted)
    rw [MarkerLog.size_drops] at hlt
    rcases h.known m hbase hlt with hm | hm | hm
    · exact .inl hm
    · rw [MarkerLog.isCommitted_drops ((hms m).2 hm)] at hcommitted
      cases hcommitted
    · exact .inr hm

namespace Session

variable {g : Setup} {run : Runner} {pair : Delimiters} {c : Grouping} {s s' : Session}
  {eatMore : RuleRef} {kind : Kind} {level rounds : Nat} {b : Bool}

/-- The opening delimiter of the region that is open when a run begins, if any. -/
def swallowed (g : Setup) (pair : Delimiters) (s : Session) : List Nat :=
  if (s.swallowedRegion g pair).1 = [] then [] else (g.before? s.position).toList

/-- A run that groups all tokens has made a node: it was committed there, and it did not come in while the
condition was asked. -/
structure MadeBy (g : Setup) (run : Runner) (level : Nat) (kind : Kind) (pair : Delimiters)
    (eatMore : RuleRef) (s s' : Session) (m : Marker) : Prop where
  new : s.log.markers.size ≤ m.number
  committed : s'.log.isCommitted m = true
  unasked : ∀ n, ¬AskedBefore g run level kind pair eatMore
    ({ regions := (s.firstRegions g (some pair)).1 }, (s.firstRegions g (some pair)).2) n m

/-- In the beginning nothing is made, and the one region that may be open is that of the delimiter that was
swallowed. -/
theorem exists_outset (hdiffer : pair.opening ≠ pair.closing) :
    ∃ o : Outset g, o.pair = pair ∧ o.first = s.swallowed g pair ∧ o.position = s.position ∧
      o.size = s.log.markers.size ∧ ∀ asked, (∀ m, ¬asked m) → ∃ stack,
        Ledger o asked [] stack s.position s.position { regions := (s.firstRegions g (some pair)).1 }
          (s.firstRegions g (some pair)).2.log := by
  rcases firstRegions_cases g (some pair) s with h | ⟨_, i, m, hpair, hi, hkind, hlast, hstart, h⟩
  · have hnone : (s.swallowedRegion g pair).1 = [] := congrArg Prod.fst h
    let o : Outset g := ⟨pair, hdiffer, [], s.position, List.forall_mem_nil _, s.log.markers.size⟩
    refine ⟨o, rfl, (if_pos hnone).symm, rfl, rfl, fun asked hasked => ⟨[], ?_⟩⟩
    rw [h]
    exact Ledger.of_nothing rfl rfl hasked
  · have hregions : (s.swallowedRegion g pair).1 = [⟨s.log.fresh, none⟩] := congrArg Prod.fst h
    have hfirst : s.swallowed g pair = [i] := by
      rw [swallowed, if_neg (hregions ▸ List.cons_ne_nil _ _), hi]
      rfl
    let o : Outset g := ⟨pair, hdiffer, [i], s.position, List.forall_mem_singleton.2 hi,
      s.log.markers.size⟩
    refine ⟨o, rfl, hfirst.symm, rfl, rfl, fun asked hasked => ⟨[s.log.fresh], ?_⟩⟩
    rw [h]
    show Ledger o asked [] [s.log.fresh] s.position s.position _ (s.wrap m).2.log
    rw [log_wrap]
    exact Ledger.of_swallowed hstart rfl rfl hasked

section
variable (hpair : g.language.delimiters.head? = some pair) (hdiffer : pair.opening ≠ pair.closing)
  (hadvancer : g.advancer = .advance) (hrun : run.Standard g)
  (heat : run.StaysAt g eatMore (level + 1))
  (hkeeps : run.KeepsFrom eatMore (level + 1) s.log.markers.size)
  (h : s.groupRun g run rounds level kind true .advance eatMore = some (b, s'))
include hpair hdiffer hadvancer hrun heat hkeeps h

/-- In the end the nodes of the run nest, and what was open is gone. -/
theorem exists_nests : ∃ made n, (∀ m, MadeBy g run level kind pair eatMore s s' m ↔ m ∈ made) ∧
    Nests g pair s'.log n (g.matching pair (s.swallowed g pair) s.position s'.position).pairs made
      [] [] := by
  obtain ⟨n, c, u, found, c', t, hturns, hstep, hend⟩ := exists_last_round h
  rw [if_pos rfl, hpair] at hturns hstep
  obtain ⟨o, rfl, hfirst, hposition, hsize, hbegin⟩ := exists_outset (g := g) (s := s) hdiffer
  obtain ⟨stack₀, hbegin⟩ := hbegin (AskedBefore g run level kind o.pair eatMore
    ({ regions := (s.firstRegions g (some o.pair)).1 }, (s.firstRegions g (some o.pair)).2) 0)
    (by rintro m ⟨k, -, hk, -⟩; exact absurd hk (Nat.not_lt_zero k))
  have hat := position_firstRegions g (some o.pair) s
  obtain ⟨hp, made₁, stack₁, hledger⟩ := Ledger.of_turns hadvancer hrun heat (hsize ▸ hkeeps)
    ⟨Nat.le_of_eq (hposition.trans hat.symm), [], stack₀, hat.symm ▸ hbegin⟩ hturns
  obtain ⟨made, stack, q, hlast, hnext⟩ := hledger.roundStep hadvancer hrun heat (hsize ▸ hkeeps) hp
    (askedBefore_succ hturns) hstep
  rcases hend with ⟨rfl, -, rfl⟩ | ⟨rfl, hstays, -⟩
  rotate_left
  · have hmoved := (hnext rfl).1
    have hle : u.position ≤ g.significant u.position := g.le_significant u.position
    dsimp only at hmoved
    omega
  have hlog : (t.dropOpen c').log = (c'.current.toList ++
      (c'.regions.map (·.marker)).reverse).foldl MarkerLog.drop t.log :=
    congrArg (·.log) (dropOpen_eq c' t)
  have hopens (m : Marker) : m ∈ c'.current.toList ++ (c'.regions.map (·.marker)).reverse ↔
      m ∈ c'.opens := by
    rw [Grouping.opens, List.mem_append, List.mem_append, List.mem_reverse]
  obtain ⟨hinfo, hleft⟩ := hlast.marked.drops hopens
  rw [← hlog] at hinfo hleft
  have hstops (y : Grouping × Session) :
      groupTurn g run level kind (some o.pair) .advance eatMore (c, u) ≠ some (.on y) := by
    intro hon
    obtain ⟨found, c₁, s₁, hstep', ⟨-, hr⟩ | ⟨hfound, -⟩ | ⟨hfound, -⟩⟩ := groupTurn_cases hon
    · cases hr
    · rw [hfound, hstep] at hstep'
      cases hstep'
    · rw [hfound, hstep] at hstep'
      cases hstep'
  refine ⟨made, q, fun m => ⟨fun hm => ?_, fun hm => ⟨?_, ?_, ?_⟩⟩, ?_⟩
  · rcases hleft m (hsize ▸ hm.new) hm.committed with hm' | hasked
    · exact hm'
    · exact absurd hasked (hm.unasked (n + 1))
  · exact hsize ▸ (hlast.marked.nodes m hm).2.1
  · exact (MarkerLog.isCommitted_congr (hinfo m hm)).trans (hlast.marked.nodes m hm).1
  · -- the last round does not go on, so the condition is not asked later
    rintro - ⟨j, y, -, hy, hasked⟩
    have hle := hturns.le_of_last hstops hy
    exact (hlast.marked.nodes m hm).2.2 ⟨j, y, Nat.lt_succ_of_le hle, hy, hasked⟩
  · have hnests := hlast.nests
    rw [← List.append_nil (c'.tops stack)] at hnests
    have hnodes : Nests g o.pair t.log q (o.matching t.position).pairs made [] [] :=
      hnests.cut (List.forall_mem_nil _)
    show Nests g o.pair (t.dropOpen c').log q (g.matching o.pair (s.swallowed g o.pair) s.position
      (t.dropOpen c').position).pairs made [] []
    rw [position_dropOpen, ← hfirst, ← hposition]
    exact hnodes.congr hinfo (List.forall_mem_nil _)

/-- No chunk has an opening delimiter without the closing one that it is matched with, and each pair of
delimiters that match has just one chunk from the one to the other. -/
theorem groupRun_encloses :
    (∀ m, MadeBy g run level kind pair eatMore s s' m →
      ∀ i ∈ g.significantIn (s'.log.start m) (s'.log.stop m), g.source.kind? i = some pair.opening →
        ∃ j ∈ g.significantIn (s'.log.start m) (s'.log.stop m),
          (i, j) ∈ (g.matching pair (s.swallowed g pair) s.position s'.position).pairs) ∧
      ∀ i j, (i, j) ∈ (g.matching pair (s.swallowed g pair) s.position s'.position).pairs →
        ∃! m, MadeBy g run level kind pair eatMore s s' m ∧ s'.log.start m = i ∧
          g.before? (s'.log.stop m) = some j := by
  obtain ⟨made, n, hmade, hnests⟩ := exists_nests hpair hdiffer hadvancer hrun heat hkeeps h
  refine ⟨fun m hm => hnests.whole m ((hmade m).1 hm), fun i j hij => ?_⟩
  obtain ⟨m, hm, hstart, hstop⟩ := hnests.found i j hij
  refine ⟨m, ⟨(hmade m).2 hm, hstart, hstop⟩, ?_⟩
  rintro x ⟨hx, hxstart, hxstop⟩
  exact hnests.apart x ((hmade x).1 hx) m hm (hxstart.trans hstart.symm) (hxstop.trans hstop.symm)

end

/-- Groups all tokens as long as the condition holds. -/
def groupAll (g : Setup) (eatMore : RuleRef) : Option (Bool × Session) :=
  (start default none).groupRun g (Grammar.runRef g (Grammar.eval g 6)) 9 0 .chunk true .advance eatMore

/-- The outer one of two regions, one in the other, has one chunk. -/
theorem groupRun_encloses_nested :
    let g := inBrackets "((a)b)" [8, 8, 3, 9, 3, 9] []
    ∃ s', groupAll g .always = some (true, s') ∧
      ∃! m, MadeBy g (Grammar.runRef g (Grammar.eval g 6)) 0 .chunk ⟨⟨8⟩, ⟨9⟩⟩ .always
        (start default none) s' m ∧ s'.log.start m = 0 ∧ g.before? (s'.log.stop m) = some 5 := by
  intro g
  have heval : (groupAll g .always).map (fun x => (x.1, x.2.position)) = some (true, 6) := by
    decide +kernel
  obtain ⟨⟨b, s'⟩, hs', heq⟩ := Option.map_eq_some_iff.1 heval
  obtain ⟨rfl, hposition⟩ : b = true ∧ s'.position = 6 := by simpa using heq
  have hstandard := Grammar.standard_runRef g (Grammar.eval g 6)
  have hpair : g.language.delimiters.head? = some ⟨⟨8⟩, ⟨9⟩⟩ := rfl
  have hall := groupRun_encloses hpair (by decide) rfl hstandard
    (fun s b s' h => by
      rw [hstandard.always] at h
      cases h
      rfl)
    (fun s b s' h m info _ hi => by
      rw [hstandard.always] at h
      cases h
      exact hi) hs'
  rw [hposition] at hall
  exact ⟨s', hs', hall.2 0 5 (by decide +kernel)⟩

/-- A condition that drops the chunk before it takes the region's chunk away. -/
theorem groupRun_chunk_dropped :
    let g := inBrackets "(a)b" [8, 3, 9, 3]
      [("more", .seq (.prim (.lastCommitted "m")) (.seq (.prim (.drop "m")) (.const true)))]
    (∀ level, (Grammar.runRef g (Grammar.eval g 6)).StaysAt g (.named "more") level) ∧
      ∃ s', groupAll g (.named "more") = some (true, s') ∧
        (0, 2) ∈ (g.matching ⟨⟨8⟩, ⟨9⟩⟩ ((start default none).swallowed g ⟨⟨8⟩, ⟨9⟩⟩) 0
          s'.position).pairs ∧
        ¬∃ m, s'.log.isCommitted m = true ∧ s'.log.start m = 0 ∧
          g.before? (s'.log.stop m) = some 2 := by
  intro g
  refine ⟨fun level s b s' h => ?_, ?_⟩
  · cases hm : s.log.lastCommitted? with
    | none =>
      simp [Grammar.runRef, g, inBrackets, Grammar.eval, Primitive.run, hm] at h
      obtain ⟨-, rfl⟩ := h
      rfl
    | some m =>
      simp [Grammar.runRef, g, inBrackets, Grammar.eval, Primitive.run, hm] at h
      obtain ⟨-, rfl⟩ := h
      rfl
  have heval : (groupAll g (.named "more")).map (fun x => (x.1, x.2.position,
      (List.range x.2.log.markers.size).all fun n => !(x.2.log.isCommitted ⟨n⟩ &&
        x.2.log.start ⟨n⟩ == 0 && g.before? (x.2.log.stop ⟨n⟩) == some 2))) = some (true, 4, true) := by
    decide +kernel
  obtain ⟨⟨b, s'⟩, hs', heq⟩ := Option.map_eq_some_iff.1 heval
  obtain ⟨rfl, hposition, hnone⟩ := Prod.mk.inj heq |>.imp_right Prod.mk.inj
  refine ⟨s', hs', by rw [hposition]; decide +kernel, ?_⟩
  rintro ⟨m, hcommitted, hstart, hstop⟩
  have hlt := MarkerLog.number_lt_of_stage? (MarkerLog.isCommitted_iff_stage?.1 hcommitted)
  have hm := List.all_eq_true.1 hnone m.number (List.mem_range.2 hlt)
  rw [hcommitted, hstart, hstop] at hm
  cases hm

end Session

end Descent
