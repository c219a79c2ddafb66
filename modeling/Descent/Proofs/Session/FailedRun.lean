import Descent.Proofs.MarkerLog.Idle
import Descent.Proofs.Session.Rounds

/-!
# Runs without an item

Delimiters that are minded are no items, so a run may step over some and find no item. Unless it begins with
one of these, a run that finds no item leaves the next significant token and the nodes as they were, if the
item rule does so where it fails and the condition does so whatever it answers (`Session.groupRun_failed`).
-/

namespace Descent

/-- Where the rule gives this answer, it leaves the next significant token and the nodes as they were. -/
structure Runner.Restores (g : Setup) (run : Runner) (rule : RuleRef) (level : Nat) (answer : Bool) :
    Prop where
  position : ∀ s s', run rule level s = some (answer, s') →
    g.significant s'.position = g.significant s.position
  log : ∀ s s', s.log.Sound → run rule level s = some (answer, s') → s.log.Retains s'.log

namespace Session

variable {g : Setup} {run : Runner} {pair? : Option Delimiters} {c c' : Grouping} {s s' : Session}
  {item eatMore : RuleRef} {kind : Kind} {level rounds n : Nat} {minds : Bool}

/-- A run begins with a delimiter if the next significant token is an opening one, or else a closing one
while the region is open whose opening delimiter an error swallowed. -/
def BeginsDelimited (g : Setup) (pair? : Option Delimiters) (s : Session) : Prop :=
  ∃ pair, pair? = some pair ∧
    (g.source.kind? (g.significant s.position) = some pair.opening ∨
      g.source.kind? (g.significant s.position) = some pair.closing ∧
        (s.swallowedRegion g pair).1 ≠ [])

theorem retains_firstRegions (hs : s.log.Sound) (g : Setup) (pair? : Option Delimiters) :
    s.log.Retains (s.firstRegions g pair?).2.log ∧
      ∀ r ∈ (s.firstRegions g pair?).1, s.log.isCommitted r.marker = false := by
  rcases firstRegions_cases g pair? s with h | ⟨_, _, m, -, -, -, -, -, h⟩
  · rw [h]
    exact ⟨.refl hs, fun r hr => nomatch hr⟩
  · rw [h]
    refine ⟨?_, fun r hr => ?_⟩
    · show s.log.Retains (s.wrap m).2.log
      rw [log_wrap]
      exact .wrap hs m
    · rw [List.mem_singleton.1 hr]
      exact MarkerLog.Retains.isCommitted_fresh s.log

/-! ## Failed items -/

section
variable (hitem : run.Restores g item (level + 1) false)
  (heat : ∀ answer, run.Restores g eatMore (level + 1) answer)
include hitem heat

/-- If no item is found, the chunk for it has been opened and nothing else has happened. -/
theorem itemStep_failed (h : s.itemStep g run level item eatMore c = some (false, c', s')) :
    c' = (s.openCurrent g c).1 ∧ g.significant s'.position = g.significant s.position ∧
      (s.log.Sound → (s.openCurrent g c).2.log.Retains s'.log) := by
  have hopened : (s.openCurrent g c).2.log.Sound ∨ ¬s.log.Sound := by
    by_cases hs : s.log.Sound
    · refine .inl ?_
      unfold openCurrent
      split
      · exact hs
      · exact hs.openAt _
    · exact .inr hs
  have hposition : g.significant (s.openCurrent g c).2.position = g.significant s.position := by
    unfold openCurrent
    split
    · rfl
    · exact significant_significant g s.position
  rw [itemStep_eq] at h
  generalize s.openCurrent g c = x at h hopened hposition ⊢
  obtain ⟨⟨more, t⟩, ht, h⟩ := Option.bind_eq_some_iff.1 h
  obtain ⟨⟨parsed, u⟩, hu, h⟩ := Option.bind_eq_some_iff.1 h
  have hmore : g.significant t.position = g.significant x.2.position ∧
      (x.2.log.Sound → x.2.log.Retains t.log) := by
    split at ht
    · exact ⟨(heat more).position _ _ ht, fun hx => (heat more).log _ _ hx ht⟩
    · cases ht
      exact ⟨rfl, fun hx => .refl hx⟩
  cases parsed with
  | true => cases h
  | false =>
    obtain ⟨rfl, rfl⟩ : x.1 = c' ∧ u = s' := by simpa using h
    have hparsed : g.significant u.position = g.significant t.position ∧
        (t.log.Sound → t.log.Retains u.log) := by
      split at hu
      · exact ⟨hitem.position _ _ hu, fun ht => hitem.log _ _ ht hu⟩
      · cases hu
        exact ⟨rfl, fun ht => .refl ht⟩
    refine ⟨rfl, (hparsed.1.trans hmore.1).trans hposition, fun hs => ?_⟩
    have hkept := hmore.2 (hopened.resolve_right fun hnot => hnot hs)
    exact hkept.trans (hparsed.2 hkept.sound)

end

theorem total_closeCurrent (kind : Kind) (c : Grouping) (s : Session) :
    (s.closeCurrent kind c).1.total = c.total := by
  unfold closeCurrent
  split <;> rfl

theorem total_foldFull (g : Setup) (kind : Kind) (c : Grouping) (s : Session) :
    (s.foldFull g kind c).1.total = c.total := by
  obtain ⟨chunks, h, -⟩ := exists_foldFull g kind c s
  rw [h]

theorem total_foldIfFull (g : Setup) (kind : Kind) (c : Grouping) (s : Session) :
    (s.foldIfFull g kind c).1.total = c.total := by
  unfold foldIfFull
  split
  · rw [total_foldFull, total_closeCurrent]
  · rfl

/-- Delimiters do not count. -/
theorem total_delimiterStep {pair : Delimiters}
    (h : s.delimiterStep g run level kind pair c = some (c', s')) : c'.total = c.total := by
  rw [delimiterStep_eq] at h
  obtain ⟨r, -, h⟩ := Option.bind_eq_some_iff.1 h
  have hopened (y : Grouping × Session) (token : Option Kind) :
      (y.2.openRegion g pair token y.1).1.total = y.1.total := by
    unfold openRegion
    split <;> rfl
  have hclosed (y : Grouping) (t : Session) (token : Option Kind) :
      (t.closeRegion g kind pair token y).1.total = y.total := by
    unfold closeRegion
    split
    · split
      · rfl
      · rw [total_foldFull]
    · rfl
  have htotal := congrArg (·.1.total) (Option.some.inj h)
  dsimp only at htotal
  rw [← htotal, hclosed, total_foldFull, hopened, total_closeCurrent]

/-- Dropping what is open leaves the nodes as they are. -/
theorem retains_dropOpen (hs : s.log.Sound)
    (hcurrent : ∀ m, c.current = some m → s.log.isCommitted m = false)
    (hregions : ∀ r ∈ c.regions, s.log.isCommitted r.marker = false) :
    s.log.Retains (s.dropOpen c).log := by
  rw [dropOpen_eq]
  refine .drops hs fun m hm => ?_
  rcases List.mem_append.1 hm with hm | hm
  · exact hcurrent m (Option.mem_toList.1 hm)
  · obtain ⟨r, hr, rfl⟩ := List.mem_map.1 (List.mem_reverse.1 hm)
    exact hregions r hr

/-- A chunk that was opened in the beginning is gone with the regions, and the nodes are as they were. -/
theorem sameNodes_dropOpen (hs : s.log.Sound) (pair? : Option Delimiters) {p : Nat} {t : Session}
    (hlog : ((s.firstRegions g pair?).2.log.openAt p).2.Retains t.log) :
    s.log.sameNodes (t.dropOpen
      { regions := (s.firstRegions g pair?).1
        current := some (s.firstRegions g pair?).2.log.fresh }).log = true := by
  obtain ⟨hfirst, hregions⟩ := retains_firstRegions hs g pair?
  have hrun := (MarkerLog.Retains.openAt hfirst.sound p).trans hlog
  have hnone (m : Marker) (hm : (s.firstRegions g pair?).2.log.isCommitted m = false) :
      t.log.isCommitted m = false :=
    Bool.eq_false_iff.2 fun hc => Bool.eq_false_iff.1 hm (hrun.isCommitted hc)
  refine ((hfirst.trans hrun).trans (retains_dropOpen hrun.sound ?_ ?_)).nodes
  · intro m hm
    obtain rfl : (s.firstRegions g pair?).2.log.fresh = m := Option.some.inj hm
    exact hnone _ (MarkerLog.Retains.isCommitted_fresh _)
  · intro r hr
    refine hnone r.marker (Bool.eq_false_iff.2 fun hc => ?_)
    exact Bool.eq_false_iff.1 (hregions r hr) (hfirst.isCommitted hc)

/-! ## Runs -/

/-- How far a run has come: it is where it began, an item has been found, or it began with a delimiter and
has moved on from there. -/
structure Itemless (g : Setup) (run : Runner) (pair? : Option Delimiters) (s : Session) (n : Nat)
    (x : Grouping × Session) : Prop where
  first : n = 0 → x = ({ regions := (s.firstRegions g pair?).1 }, (s.firstRegions g pair?).2)
  later : n ≠ 0 → 0 < x.1.total ∨ s.BeginsDelimited g pair? ∧
    (g.advancer = .advance → run.Standard g →
      g.significant s.position < g.significant x.2.position)

/-- The regions that are open in the beginning are those of the delimiter that was swallowed. -/
theorem beginsDelimited_iff (g : Setup) (pair? : Option Delimiters) (s : Session) :
    s.BeginsDelimited g pair? ↔ ∃ pair, pair? = some pair ∧
      (((s.firstRegions g pair?).2.toSignificant g).kindHere? g = some pair.opening ∨
        ((s.firstRegions g pair?).2.toSignificant g).kindHere? g = some pair.closing ∧
          (s.firstRegions g pair?).1 ≠ []) := by
  have hkind : ((s.firstRegions g pair?).2.toSignificant g).kindHere? g =
      g.source.kind? (g.significant s.position) :=
    congrArg (fun p => g.source.kind? (g.significant p)) (position_firstRegions g pair? s)
  rw [BeginsDelimited, hkind]
  constructor
  · rintro ⟨pair, rfl, h⟩
    exact ⟨pair, rfl, h⟩
  · rintro ⟨pair, rfl, h⟩
    exact ⟨pair, rfl, h⟩

/-- A round that steps over a delimiter moves on. -/
theorem significant_delimiterStep {pair : Delimiters} (hadvancer : g.advancer = .advance)
    (hrun : run.Standard g)
    (htoken : (s.toSignificant g).kindHere? g = some pair.opening ∨
      (s.toSignificant g).kindHere? g = some pair.closing ∧ c.regions ≠ [])
    (h : (s.toSignificant g).delimiterStep g run level kind pair c = some (c', s')) :
    g.significant s.position < g.significant s'.position := by
  have hsome : ((s.toSignificant g).kindHere? g).isSome = true := by
    rcases htoken with ho | ⟨hc, -⟩
    · rw [ho]
      rfl
    · rw [hc]
      rfl
  rw [delimiterStep_of_token hadvancer hrun (g.significant_spec s.position).1 hsome] at h
  have hposition := congrArg (·.2.position) (Option.some.inj h)
  dsimp only at hposition
  rw [position_closeRegion] at hposition
  rw [← hposition]
  exact g.le_significant _

/-- An item that is found counts. -/
theorem total_itemStep (h : s.itemStep g run level item eatMore c = some (true, c', s')) :
    c'.total = (s.openCurrent g c).1.total + 1 := by
  rw [itemStep_eq] at h
  obtain ⟨y, -, h⟩ := Option.bind_eq_some_iff.1 h
  obtain ⟨⟨parsed, v⟩, -, h⟩ := Option.bind_eq_some_iff.1 h
  cases parsed with
  | false => cases h
  | true =>
    cases h
    rfl

theorem Itemless.on {x y : Grouping × Session} (hx : Itemless g run pair? s n x)
    (h : groupTurn g run level kind pair? item eatMore x = some (.on y)) :
    Itemless g run pair? s (n + 1) y := by
  obtain ⟨c, u⟩ := x
  obtain ⟨b, c₁, s₁, hstep, hr⟩ := groupTurn_cases h
  rcases hr with ⟨-, hr⟩ | ⟨rfl, -, hr⟩ | ⟨-, -, t, hr, -⟩
  · cases hr
  · obtain rfl : y = s₁.foldIfFull g kind c₁ := Turn.on.inj hr
    refine ⟨fun h => absurd h (Nat.succ_ne_zero n), fun _ => ?_⟩
    rw [total_foldIfFull, position_foldIfFull]
    rcases roundStep_cases hstep with ⟨pair, hpair, htoken, -, hdelimiter⟩ | ⟨-, hitem⟩
    · rw [total_delimiterStep hdelimiter]
      rcases Nat.eq_zero_or_pos n with rfl | hn
      · obtain ⟨rfl, rfl⟩ := Prod.mk.inj (hx.first rfl)
        refine .inr ⟨(beginsDelimited_iff g pair? s).2 ⟨pair, hpair, htoken⟩,
          fun hadvancer hrun => ?_⟩
        have hlt := significant_delimiterStep hadvancer hrun htoken hdelimiter
        rwa [position_firstRegions] at hlt
      · exact (hx.later (Nat.ne_of_gt hn)).imp_right fun ⟨hbegins, hmoved⟩ =>
          ⟨hbegins, fun hadvancer hrun => Nat.lt_trans (hmoved hadvancer hrun)
            (significant_delimiterStep hadvancer hrun htoken hdelimiter)⟩
    · rw [total_itemStep hitem]
      exact .inl (Nat.succ_pos _)
  · cases hr

/-- A run that finds no item leaves the next significant token and the nodes as they were, unless it begins
with a delimiter. If it does, it has moved on. -/
theorem groupRun_failed (hs : s.log.Sound) (hitem : run.Restores g item (level + 1) false)
    (heat : ∀ answer, run.Restores g eatMore (level + 1) answer)
    (h : s.groupRun g run rounds level kind minds item eatMore = some (false, s'))
    (hfatal : s'.isAborted = false) :
    (¬s.BeginsDelimited g (if minds then g.language.delimiters.head? else none) →
        g.significant s'.position = g.significant s.position ∧ s.log.sameNodes s'.log = true) ∧
      (s.BeginsDelimited g (if minds then g.language.delimiters.head? else none) →
        g.advancer = .advance → run.Standard g →
          g.significant s.position < g.significant s'.position) := by
  obtain ⟨n, c₀, u, found, c, t, hturns, hstep, hend⟩ := exists_last_round h
  generalize (if minds then g.language.delimiters.head? else none) = pair? at hturns hstep ⊢
  rcases hend with ⟨rfl, htotal, rfl⟩ | ⟨-, -, haborted⟩
  rotate_left
  · exact absurd (hfatal.symm.trans haborted) Bool.false_ne_true
  rcases roundStep_cases hstep with ⟨-, -, -, hfound, -⟩ | ⟨hminds, hfailed⟩
  · cases hfound
  have hcome : Itemless g run pair? s n (c₀, u) :=
    Turns.induction ⟨fun _ => rfl, fun hne => absurd rfl hne⟩ (fun _ _ _ _ hy hz => hy.on hz) hturns
  obtain ⟨rfl, hposition, hlog⟩ := itemStep_failed hitem heat hfailed
  have hsame : g.significant ((t.dropOpen ((u.toSignificant g).openCurrent g c₀).1).note
      (.chunksFinished ((u.toSignificant g).openCurrent g c₀).1.total)).position =
        g.significant u.position := by
    show g.significant (t.dropOpen ((u.toSignificant g).openCurrent g c₀).1).position = _
    rw [position_dropOpen, hposition]
    exact significant_significant g u.position
  have hzero : c₀.total = 0 := by
    have hcount : ((u.toSignificant g).openCurrent g c₀).1.total = c₀.total := by
      unfold openCurrent
      split <;> rfl
    rw [← hcount]
    simpa using htotal.symm
  rw [hsame]
  rcases Nat.eq_zero_or_pos n with rfl | hn
  · obtain ⟨rfl, rfl⟩ := Prod.mk.inj (hcome.first rfl)
    refine ⟨fun _ => ⟨by rw [position_firstRegions], ?_⟩, fun hbegins => ?_⟩
    · have hsound := (retains_firstRegions hs g pair?).1.sound
      exact sameNodes_dropOpen hs pair? (hlog hsound)
    · obtain ⟨pair, hpair, htoken⟩ := (beginsDelimited_iff g pair? s).1 hbegins
      obtain ⟨ho, hc⟩ := hminds pair hpair
      rcases htoken with htoken | ⟨htoken, hregions⟩
      · exact absurd htoken ho
      · exact absurd (hc htoken) hregions
  · rcases hcome.later (Nat.ne_of_gt hn) with hpos | ⟨hbegins, hmoved⟩
    · exact absurd hzero (Nat.ne_of_gt hpos)
    · exact ⟨fun hnot => absurd hbegins hnot, fun _ hadvancer hrun => hmoved hadvancer hrun⟩

/-- The rule takes a number. -/
def numbersIn (text : String) (kinds : List UInt16) : Setup :=
  inBrackets text kinds [("number", .prim (.take ⟨4⟩))]

/-- Groups numbers as long as there are any, from a state on. -/
def groupNumbers (g : Setup) (s : Session) : Option (Bool × Session) :=
  s.groupRun g (Grammar.runRef g (Grammar.eval g 6)) 5 0 .chunk true (.named "number") .always

/-- Where no token of the kind comes next, taking one leads no further than to the next token. -/
theorem take_failed {g : Setup} {kind : Kind} (h : (s.take g kind).1 = false) :
    g.significant (s.take g kind).2.position = g.significant s.position ∧
      (s.take g kind).2.log = s.log := by
  unfold take peek peekAny at h ⊢
  by_cases hs : s.isAborted = true
  · rw [if_pos hs]
    exact ⟨rfl, rfl⟩
  · rw [if_neg hs] at h ⊢
    dsimp only at h ⊢
    generalize (s.toSignificant g).kindHere? g = here at h ⊢
    cases hmatch : here.any [kind].contains with
    | true =>
      rw [hmatch] at h
      cases h
    | false => exact ⟨significant_significant g s.position, rfl⟩

theorem restores_number (text : String) (kinds : List UInt16) (level : Nat) :
    (Grammar.runRef (numbersIn text kinds) (Grammar.eval (numbersIn text kinds) 6)).Restores
      (numbersIn text kinds) (.named "number") level false := by
  refine ⟨fun s s' h => ?_, fun s s' hs h => ?_⟩
  · obtain ⟨hfailed, rfl⟩ := Prod.mk.inj (Option.some.inj h)
    exact (take_failed hfailed).1
  · obtain ⟨hfailed, rfl⟩ := Prod.mk.inj (Option.some.inj h)
    have hlog := (take_failed hfailed).2
    show s.log.Retains (s.take (numbersIn text kinds) ⟨4⟩).2.log
    rw [hlog]
    exact .refl hs

theorem restores_always {g : Setup} {run : Runner} (h : run.Standard g) (level : Nat) (answer : Bool) :
    run.Restores g .always level answer := by
  refine ⟨fun s s' hs => ?_, fun s s' hsound hs => ?_⟩
  · rw [h.always] at hs
    rw [(Prod.mk.inj (Option.some.inj hs)).2]
  · rw [h.always] at hs
    obtain ⟨-, rfl⟩ := Prod.mk.inj (Option.some.inj hs)
    exact .refl hsound

/-- The state after an error has swallowed the first token. -/
def swallowedFirst : Session :=
  { start default none with
    log := (({} : MarkerLog).openAt 0).2.commit ⟨0⟩ .error none 1
    position := 1 }

/-- Behind an error that has swallowed an opening delimiter, a word is no number, and the region that was
opened for the delimiter is gone. -/
theorem groupRun_failed_swallowed :
    let g := numbersIn "(a" [8, 3]
    (swallowedFirst.swallowedRegion g ⟨⟨8⟩, ⟨9⟩⟩).1 ≠ [] ∧
      ∃ s', groupNumbers g swallowedFirst = some (false, s') ∧ g.significant s'.position = 1 ∧
        swallowedFirst.log.sameNodes s'.log = true := by
  intro g
  have hregion : (swallowedFirst.swallowedRegion g ⟨⟨8⟩, ⟨9⟩⟩).1 ≠ [] := by decide +kernel
  have heval : (groupNumbers g swallowedFirst).map (fun x => (x.1, x.2.isAborted)) =
      some (false, false) := by decide +kernel
  obtain ⟨⟨b, s'⟩, hs', heq⟩ := Option.map_eq_some_iff.1 heval
  obtain ⟨rfl, hfatal⟩ : b = false ∧ s'.isAborted = false := by simpa using heq
  have hbegins : ¬swallowedFirst.BeginsDelimited g
      (if true then g.language.delimiters.head? else none) := by
    rintro ⟨pair, hpair, htoken⟩
    obtain rfl : ⟨⟨8⟩, ⟨9⟩⟩ = pair := Option.some.inj hpair
    rcases htoken with ho | ⟨hc, -⟩
    · exact absurd ho (by decide +kernel)
    · exact absurd hc (by decide +kernel)
  have hsound : swallowedFirst.log.Sound :=
    MarkerLog.Sound.commit (MarkerLog.Sound.openAt .empty 0) ⟨0⟩ .error none 1
  have hall := groupRun_failed hsound (restores_number _ _ 1)
    (restores_always (Grammar.standard_runRef ..) 1) hs' hfatal
  obtain ⟨hposition, hnodes⟩ := hall.1 hbegins
  exact ⟨hregion, s', hs', hposition, hnodes⟩

/-- Brackets with nothing in between are stepped over and made a chunk, although no number was found. -/
theorem groupRun_steps_over_brackets :
    let g := numbersIn "()" [8, 9]
    ∃ s', groupNumbers g (start default none) = some (false, s') ∧ s'.isAborted = false ∧
      g.significant (start default none).position = 0 ∧ g.significant s'.position = 2 ∧
      (start default none).log.committedNodes = [] ∧ s'.log.committedNodes.length = 1 := by
  intro g
  have heval : (groupNumbers g (start default none)).map (fun x => (x.1, x.2.isAborted,
      g.significant x.2.position, x.2.log.committedNodes.length)) = some (false, false, 2, 1) := by
    decide +kernel
  obtain ⟨⟨b, s'⟩, hs', heq⟩ := Option.map_eq_some_iff.1 heval
  obtain ⟨rfl, hfatal, hposition, hnodes⟩ : b = false ∧ s'.isAborted = false ∧
      g.significant s'.position = 2 ∧ s'.log.committedNodes.length = 1 := by simpa using heq
  exact ⟨s', hs', hfatal, by decide +kernel, hposition, rfl, hnodes⟩

end Session

end Descent
