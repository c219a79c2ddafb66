import Descent.Proofs.Session.SkipDepth

/-!
# Rounds of grouping

A round of grouping steps over a delimiter or runs the item rule (`Session.roundStep_cases`), then closes
the chunk that is full, and goes on if it has moved (`Session.groupTurn_cases`). Full runs are folded one
at a time (`Session.foldFull_induction`), and never across the start of an open region: the chunks are
layered by the regions they came in (`Grouping.Layered`), and only those of the innermost one are within
reach.
-/

namespace Descent

/-! ## Loops, from behind -/

section
variable {α β : Type} {turn : α → Option (Turn α β)} {n k : Nat} {x y z : α}

theorem Turns.snoc (h : Turns turn n x y) (hy : turn y = some (.on z)) : Turns turn (n + 1) x z := by
  induction h with
  | none y => exact .on hy (.none z)
  | on hx _ ih => exact .on hx (ih hy)

/-- What holds in the beginning and is kept by each round that goes on holds in each round. -/
theorem Turns.induction {motive : Nat → α → Prop} (begin : motive 0 x)
    (step : ∀ n y z, Turns turn n x y → motive n y → turn y = some (.on z) → motive (n + 1) z)
    (h : Turns turn n x y) : motive n y := by
  suffices hfrom : ∀ k w, Turns turn k x w → motive k w → Turns turn n w y → motive (k + n) y by
    have hall := hfrom 0 x (.none x) begin h
    rwa [Nat.zero_add] at hall
  clear h
  intro k w hk hw hn
  induction hn generalizing k with
  | none w => exact hw
  | @on n w v y hwv _ ih =>
    have hnext := ih (k + 1) (hk.snoc hwv) (step k w v hk hw hwv)
    rwa [Nat.add_assoc, Nat.add_comm 1 n] at hnext

/-- The rounds are determined by where they begin. -/
theorem Turns.sub (h : Turns turn n x y) (h' : Turns turn (n + k) x z) : Turns turn k y z := by
  induction h with
  | none x => rwa [Nat.zero_add] at h'
  | @on n x v y hxv _ ih =>
    rw [Nat.add_right_comm] at h'
    cases h' with
    | on hxw h' =>
      obtain rfl : v = _ := by simpa using hxv.symm.trans hxw
      exact ih h'

/-- No more rounds go on than up to the last one. -/
theorem Turns.le_of_last (h : Turns turn n x y) (hlast : ∀ w, turn y ≠ some (.on w))
    (h' : Turns turn k x z) : k ≤ n := by
  by_contra hlt
  obtain ⟨j, rfl⟩ := Nat.exists_eq_add_of_le (Nat.le_of_not_le hlt)
  cases h.sub h' with
  | none => exact hlt (Nat.le_refl n)
  | on hy _ => exact hlast _ hy

/-- Goes so many rounds, all of which go on. -/
def afterRounds (turn : α → Option (Turn α β)) : (rounds : Nat) → α → Option α
  | 0, x => some x
  | rounds + 1, x => (turn x).bind fun
    | .on y => afterRounds turn rounds y
    | _ => none

theorem turns_iff_afterRounds : Turns turn n x y ↔ afterRounds turn n x = some y := by
  constructor
  · intro h
    induction h with
    | none x => rfl
    | on hx _ ih =>
      rw [afterRounds, hx]
      exact ih
  · intro h
    induction n generalizing x with
    | zero =>
      obtain rfl := Option.some.inj h
      exact .none x
    | succ n ih =>
      obtain ⟨r, hr, h⟩ := Option.bind_eq_some_iff.1 h
      cases r with
      | on z => exact .on hr (ih h)
      | ended z => cases h
      | stuck z => cases h

/-- A loop that is over has gone some rounds, and the last one ended it. -/
theorem exists_turns_of_goRound {z : β} (h : goRound turn n x = some z) :
    ∃ k y, Turns turn k x y ∧ (turn y = some (.ended z) ∨ turn y = some (.stuck z)) := by
  induction n generalizing x with
  | zero => cases h
  | succ n ih =>
    obtain ⟨r, hr, h⟩ := Option.bind_eq_some_iff.1 h
    cases r with
    | on y =>
      obtain ⟨k, w, hk, hw⟩ := ih h
      exact ⟨k + 1, w, .on hr hk, hw⟩
    | ended w =>
      obtain rfl := Option.some.inj h
      exact ⟨0, x, .none x, .inl hr⟩
    | stuck w =>
      obtain rfl := Option.some.inj h
      exact ⟨0, x, .none x, .inr hr⟩

end

/-! ## Layers of chunks -/

namespace Grouping

/-- Chunks and open regions in the order in which they came, the latest first. Each region remembers the
chunk before it, and `P` holds of the chunks before the outermost one. -/
inductive Layered (P : List Chunk → Prop) : List Region → List Chunk → List Marker → Prop
  | nothing : Layered P [] [] []
  | chunk {regions : List Region} {chunks : List Chunk} {stack : List Marker} (x : Chunk)
    (h : Layered P regions chunks stack) : Layered P regions (x :: chunks) (x.marker :: stack)
  | region {regions : List Region} {chunks : List Chunk} {stack : List Marker} (m : Marker)
    (h : Layered P regions chunks stack) (hP : regions = [] → P chunks) :
    Layered P (⟨m, chunks.head?.map (·.marker)⟩ :: regions) chunks (m :: stack)

namespace Layered

variable {P : List Chunk → Prop} {regions : List Region} {region : Region} {chunks later rest : List Chunk}
  {stack : List Marker} {x : Chunk} {xs : List Chunk} {c : Grouping}

theorem append (h : Layered P regions chunks stack) (later : List Chunk) :
    Layered P regions (later ++ chunks) (later.map (·.marker) ++ stack) := by
  induction later with
  | nil => exact h
  | cons x later ih => exact .chunk x ih

/-- With no region open the chunks are all there is. -/
theorem flat (h : Layered P [] chunks stack) : stack = chunks.map (·.marker) := by
  generalize hregions : ([] : List Region) = regions at h
  induction h with
  | nothing => rfl
  | chunk x _ ih => rw [List.map_cons, ih hregions]
  | region => cases hregions

theorem mem_of_region (h : Layered P regions chunks stack) (hr : region ∈ regions) :
    region.marker ∈ stack := by
  induction h with
  | nothing => cases hr
  | chunk x _ ih => exact List.mem_cons_of_mem _ (ih hr)
  | region m _ _ ih =>
    rcases List.mem_cons.1 hr with rfl | hr
    · exact List.mem_cons_self
    · exact List.mem_cons_of_mem _ (ih hr)

theorem mem_of_chunk (h : Layered P regions chunks stack) (hx : x ∈ chunks) : x.marker ∈ stack := by
  induction h with
  | nothing => cases hx
  | chunk y _ ih =>
    rcases List.mem_cons.1 hx with rfl | hx
    · exact List.mem_cons_self
    · exact List.mem_cons_of_mem _ (ih hx)
  | region m _ _ ih => exact List.mem_cons_of_mem _ (ih hx)

/-- Nothing but chunks and open regions is in the layers. -/
theorem exists_of_mem (h : Layered P regions chunks stack) {m : Marker} (hm : m ∈ stack) :
    (∃ x ∈ chunks, x.marker = m) ∨ ∃ r ∈ regions, r.marker = m := by
  induction h with
  | nothing => cases hm
  | chunk x _ ih =>
    rcases List.mem_cons.1 hm with rfl | hm
    · exact .inl ⟨x, List.mem_cons_self, rfl⟩
    · exact (ih hm).imp_left fun ⟨y, hy, heq⟩ => ⟨y, List.mem_cons_of_mem x hy, heq⟩
  | region o _ _ ih =>
    rcases List.mem_cons.1 hm with rfl | hm
    · exact .inr ⟨_, List.mem_cons_self, rfl⟩
    · exact (ih hm).imp_right fun ⟨r, hr, heq⟩ => ⟨r, List.mem_cons_of_mem _ hr, heq⟩

/-- The chunks that came in the innermost region are in front of those that were there before. -/
theorem split (h : Layered P (region :: regions) chunks stack) :
    ∃ later base stack', chunks = later ++ base ∧ region.before = base.head?.map (·.marker) ∧
      stack = later.map (·.marker) ++ region.marker :: stack' ∧ Layered P regions base stack' ∧
      (regions = [] → P base) := by
  generalize hall : region :: regions = all at h
  induction h with
  | nothing => cases hall
  | chunk x _ ih =>
    obtain ⟨later, base, stack', rfl, hbefore, rfl, hbase, hP⟩ := ih hall
    exact ⟨x :: later, base, stack', rfl, hbefore, rfl, hbase, hP⟩
  | region m h hP _ =>
    obtain ⟨rfl, rfl⟩ := List.cons.inj hall
    exact ⟨[], _, _, rfl, rfl, rfl, h, hP⟩

theorem takeWhile_prefix_of_stop {α : Type} {p : α → Bool} {a : α} (ha : p a = false) (l l' : List α) :
    (l ++ a :: l').takeWhile p <+: l := by
  induction l with
  | nil =>
    have hnone : ([] ++ a :: l').takeWhile p = [] :=
      List.takeWhile_cons_of_neg (by rw [ha]; exact Bool.false_ne_true)
    exact hnone.symm ▸ List.nil_prefix
  | cons b l ih =>
    rw [List.cons_append, List.takeWhile_cons]
    split
    · exact (List.prefix_cons_inj b).2 ih
    · exact List.nil_prefix

/-- The latest run is among the chunks that came in the innermost region. -/
theorem exists_reach (h : Layered P c.regions c.chunks stack) :
    ∃ later base stack', c.chunks = later ++ base ∧ stack = later.map (·.marker) ++ stack' ∧
      c.latestRun <+: later ∧ (∀ r ∈ c.regions, r.marker ∈ stack') ∧
      Layered P c.regions base stack' := by
  have hprefix : c.latestRun <+: c.chunks := by
    unfold latestRun
    split
    · exact List.nil_prefix
    · exact List.takeWhile_prefix _
  cases hregions : c.regions with
  | nil =>
    rw [hregions] at h
    refine ⟨c.chunks, [], [], (List.append_nil _).symm, ?_, hprefix, by simp, .nothing⟩
    rw [List.append_nil, h.flat]
  | cons region regions =>
    rw [hregions] at h
    obtain ⟨later, base, stack', hchunks, hbefore, hstack, hbase, hP⟩ := h.split
    have hlayer : Layered P (region :: regions) base (region.marker :: stack') := by
      have hopen := hbase.region region.marker hP
      rwa [← hbefore] at hopen
    refine ⟨later, base, region.marker :: stack', hchunks, hstack, ?_,
      fun r hr => hlayer.mem_of_region hr, hlayer⟩
    cases base with
    | nil => rwa [hchunks, List.append_nil] at hprefix
    | cons y base =>
      have hboundary : c.boundary = some y.marker := by
        rw [boundary, hregions]
        exact hbefore
      unfold latestRun
      split
      · exact List.nil_prefix
      · rw [hchunks, hboundary]
        exact takeWhile_prefix_of_stop (by simp) later base

/-- Wrapping the latest chunks of a run leaves the others in their layers. -/
theorem fold (h : Layered P c.regions c.chunks stack) (hchunks : c.chunks = xs ++ x :: rest)
    (hrun : xs ++ [x] <+: c.latestRun) (y : Chunk) :
    ∃ stack', stack = xs.map (·.marker) ++ x.marker :: stack' ∧
      Layered P c.regions (y :: rest) (y.marker :: stack') ∧ ∀ r ∈ c.regions, r.marker ∈ stack' := by
  obtain ⟨later, base, stack', hlater, hstack, hreach, hregions, hbase⟩ := h.exists_reach
  obtain ⟨rest', rfl⟩ := hrun.trans hreach
  have hrest : rest = rest' ++ base := by
    rw [hlater, List.append_assoc, List.append_assoc, List.singleton_append] at hchunks
    exact (List.cons.inj (List.append_cancel_left hchunks)).2.symm
  refine ⟨rest'.map (·.marker) ++ stack', by rw [hstack]; simp, ?_, fun r hr =>
    List.mem_append_right _ (hregions r hr)⟩
  rw [hrest]
  exact .chunk y (hbase.append rest')

/-- When the innermost region is closed, what came in it is left out, and it is a chunk itself. -/
theorem close (h : Layered P (region :: regions) chunks stack) (hstack : stack.Nodup) :
    ∃ later stack', stack = later.map (·.marker) ++ region.marker :: stack' ∧
      chunks = later ++ chunks.dropWhile (fun x => some x.marker != region.before) ∧
      Layered P regions (chunks.dropWhile fun x => some x.marker != region.before) stack' ∧
      (regions = [] → P (chunks.dropWhile fun x => some x.marker != region.before)) := by
  obtain ⟨later, base, stack', rfl, hbefore, rfl, hbase, hP⟩ := h.split
  have hothers : ∀ x ∈ later, (some x.marker != region.before) = true := by
    intro x hx
    rw [hbefore]
    cases base with
    | nil => rfl
    | cons y base =>
      have hne : x.marker ≠ y.marker := by
        refine (List.nodup_append.1 hstack).2.2 _ (List.mem_map_of_mem hx) _ ?_
        exact List.mem_cons_of_mem _ (hbase.mem_of_chunk List.mem_cons_self)
      simpa using hne
  have hdrop : (later ++ base).dropWhile (fun x => some x.marker != region.before) = base := by
    rw [List.dropWhile_append_of_pos hothers, hbefore]
    cases base with
    | nil => rfl
    | cons y base => simp
  rw [hdrop]
  exact ⟨later, stack', rfl, rfl, hbase, hP⟩

end Layered

end Grouping

namespace Session

variable {g : Setup} {run : Runner} {pair : Delimiters} {pair? : Option Delimiters} {c c' : Grouping}
  {s s' : Session} {item eatMore : RuleRef} {kind : Kind} {level p : Nat} {b : Bool}

/-! ## Folding -/

theorem position_enclose (m : Marker) (kind : Kind) (error : Option SyntaxError) (s : Session) :
    (s.enclose m kind error).position = s.position := by
  rw [enclose, position_commit, position_wrap]

/-- If the latest chunks of one generation are enough, the latest of them are wrapped, and it goes on from
there. -/
theorem foldRounds_of_run {x : Chunk} {xs rest : List Chunk} (hrun : xs ++ [x] <+: c.latestRun)
    (hlength : xs.length + 1 = g.limits.fanOut) (hchunks : c.chunks = xs ++ x :: rest) (kind : Kind)
    (rounds : Nat) (s : Session) : s.foldRounds g kind (rounds + 1) c = foldRounds g kind rounds
      { c with chunks := ⟨s.log.fresh, x.generation + 1⟩ :: rest }
      ((s.enclose x.marker kind none).note (.chunkFolded (x.generation + 1))) := by
  have hsize : (xs ++ [x]).length = g.limits.fanOut := by rw [← hlength, List.length_append]; rfl
  have htake : c.latestRun.take g.limits.fanOut = xs ++ [x] := by
    rw [← hsize]
    exact (List.prefix_iff_eq_take.1 hrun).symm
  have hdrop : c.chunks.drop g.limits.fanOut = rest := by
    rw [hchunks, ← List.singleton_append, ← List.append_assoc, ← hsize, List.drop_left]
  have hfull : ¬c.latestRun.length < g.limits.fanOut := Nat.not_lt.2 (hsize ▸ hrun.length_le)
  rw [foldRounds]
  dsimp only
  rw [htake, List.getLast?_concat]
  dsimp only
  rw [if_neg hfull, hdrop, fst_wrap, enclose, fst_wrap]
  rfl

theorem exists_fold (h : g.limits.fanOut ≤ c.latestRun.length) : ∃ xs x rest,
    c.chunks = xs ++ x :: rest ∧ xs.length + 1 = g.limits.fanOut ∧ xs ++ [x] <+: c.latestRun := by
  have hsize := g.limits.fanOut_ge
  have hlength : (c.latestRun.take g.limits.fanOut).length = g.limits.fanOut :=
    List.length_take_of_le h
  obtain ⟨xs, x, htake⟩ : ∃ xs x, c.latestRun.take g.limits.fanOut = xs ++ [x] := by
    have hne : c.latestRun.take g.limits.fanOut ≠ [] := by
      intro hnil
      rw [hnil, List.length_nil] at hlength
      omega
    exact ⟨_, _, (List.dropLast_concat_getLast hne).symm⟩
  have hprefix : xs ++ [x] <+: c.latestRun := htake ▸ List.take_prefix ..
  obtain ⟨rest, hrest⟩ : xs ++ [x] <+: c.chunks := by
    refine hprefix.trans ?_
    unfold Grouping.latestRun
    split
    · exact List.nil_prefix
    · exact List.takeWhile_prefix _
  rw [htake, List.length_append, List.length_singleton] at hlength
  exact ⟨xs, x, rest, by rw [← hrest, List.append_assoc, List.singleton_append], hlength, hprefix⟩

/-- What each fold keeps holds when no run is full any more. -/
theorem foldFull_induction (kind : Kind) {motive : Grouping → Session → Prop}
    (step : ∀ c s xs x rest, motive c s → c.chunks = xs ++ x :: rest →
      xs.length + 1 = g.limits.fanOut → xs ++ [x] <+: c.latestRun →
      motive { c with chunks := ⟨s.log.fresh, x.generation + 1⟩ :: rest }
        ((s.enclose x.marker kind none).note (.chunkFolded (x.generation + 1))))
    (h : motive c s) : motive (s.foldFull g kind c).1 (s.foldFull g kind c).2 := by
  rw [foldFull]
  generalize c.chunks.length = rounds
  induction rounds generalizing c s with
  | zero => exact h
  | succ rounds ih =>
    rcases Nat.lt_or_ge c.latestRun.length g.limits.fanOut with hlt | hge
    · rwa [foldRounds_of_lt hlt]
    · obtain ⟨xs, x, rest, hchunks, hlength, hprefix⟩ := exists_fold hge
      rw [foldRounds_of_run hprefix hlength hchunks]
      exact ih (step c s xs x rest h hchunks hlength hprefix)

/-- Folding is about the chunks only. -/
theorem exists_foldFull (g : Setup) (kind : Kind) (c : Grouping) (s : Session) :
    ∃ chunks, (s.foldFull g kind c).1 = { c with chunks } ∧
      (s.foldFull g kind c).2.position = s.position := by
  refine foldFull_induction kind (motive := fun c' s' => ∃ chunks, c' = { c with chunks } ∧
    s'.position = s.position) ?_ ⟨c.chunks, rfl, rfl⟩
  rintro _ s' xs x rest ⟨chunks, rfl, hposition⟩ - - -
  refine ⟨_, rfl, ?_⟩
  show (s'.enclose x.marker kind none).position = s.position
  rw [position_enclose, hposition]

theorem position_foldFull (g : Setup) (kind : Kind) (c : Grouping) (s : Session) :
    (s.foldFull g kind c).2.position = s.position := by
  obtain ⟨-, -, h⟩ := exists_foldFull g kind c s
  exact h

theorem position_closeCurrent (kind : Kind) (c : Grouping) (s : Session) :
    (s.closeCurrent kind c).2.position = s.position := by
  unfold closeCurrent
  split
  · rfl
  · exact position_commit ..

theorem regions_closeCurrent (kind : Kind) (c : Grouping) (s : Session) :
    (s.closeCurrent kind c).1.regions = c.regions := by
  unfold closeCurrent
  split <;> rfl

theorem current_closeCurrent (kind : Kind) (c : Grouping) (s : Session) :
    (s.closeCurrent kind c).1.current = none := by
  unfold closeCurrent
  split
  · next hnone => exact hnone
  · rfl

theorem size_closeCurrent (kind : Kind) (c : Grouping) (s : Session) :
    (s.closeCurrent kind c).2.log.markers.size = s.log.markers.size := by
  unfold closeCurrent
  split
  · rfl
  · rw [commitAs, log_commit, MarkerLog.size_commit]

theorem position_foldIfFull (g : Setup) (kind : Kind) (c : Grouping) (s : Session) :
    (s.foldIfFull g kind c).2.position = s.position := by
  unfold foldIfFull
  split
  · rw [position_foldFull, position_closeCurrent]
  · rfl

theorem position_closeRegion (g : Setup) (kind : Kind) (pair : Delimiters) (token : Option Kind)
    (c : Grouping) (s : Session) : (s.closeRegion g kind pair token c).2.position = s.position := by
  unfold closeRegion
  split
  · split
    · rfl
    · rw [position_foldFull, commitAs, position_commit]
  · rfl

/-- Nothing is within reach right after a region was opened. -/
theorem foldFull_of_reach (h : c.boundary = c.chunks.head?.map (·.marker)) (s : Session) :
    s.foldFull g kind c = (c, s) := by
  have hsize := g.limits.fanOut_ge
  have hrun : c.latestRun = [] := by
    unfold Grouping.latestRun
    split
    · rfl
    · next x rest heq =>
      rw [heq] at h ⊢
      rw [List.takeWhile_cons_of_neg]
      rw [h]
      simp
  refine foldRounds_of_lt ?_ _ s
  rw [hrun, List.length_nil]
  omega

/-! ## Rounds -/

/-- A round steps over a delimiter if there is one to be minded. Else it runs the item rule. -/
theorem roundStep_cases (h : s.roundStep g run level kind pair? item eatMore c = some (b, c', s')) :
    (∃ pair, pair? = some pair ∧ (s.kindHere? g = some pair.opening ∨
        s.kindHere? g = some pair.closing ∧ c.regions ≠ []) ∧ b = true ∧
        s.delimiterStep g run level kind pair c = some (c', s')) ∨
      ((∀ pair, pair? = some pair → s.kindHere? g ≠ some pair.opening ∧
        (s.kindHere? g = some pair.closing → c.regions = [])) ∧
        s.itemStep g run level item eatMore c = some (b, c', s')) := by
  have hminds (pair : Delimiters) : (s.kindHere? g == some pair.opening ||
      (s.kindHere? g == some pair.closing && !c.regions.isEmpty)) = true ↔
        s.kindHere? g = some pair.opening ∨ s.kindHere? g = some pair.closing ∧ c.regions ≠ [] := by
    simp
  unfold roundStep at h
  split at h
  · next pair hpair =>
    obtain ⟨⟨c₁, s₁⟩, hstep, heq⟩ := Option.map_eq_some_iff.1 h
    cases heq
    obtain ⟨hsome, htoken⟩ := Option.filter_eq_some_iff.1 hpair
    exact .inl ⟨pair, hsome, (hminds pair).1 htoken, rfl, hstep⟩
  · next hnone =>
    refine .inr ⟨fun pair hsome => ?_, h⟩
    have hnot := (Option.filter_eq_none_iff.1 hnone) pair hsome
    rw [hminds] at hnot
    exact ⟨fun ho => hnot (.inl ho), fun hc => not_not.1 fun hne => hnot (.inr ⟨hc, hne⟩)⟩

/-- The loop is over when nothing was parsed. Else the chunk that is full is closed, and the loop goes on
if that has moved it. -/
theorem groupTurn_cases {r : Turn (Grouping × Session) (Grouping × Session)}
    (h : groupTurn g run level kind pair? item eatMore (c, s) = some r) :
    ∃ b c₁ s₁, (s.toSignificant g).roundStep g run level kind pair? item eatMore c =
        some (b, c₁, s₁) ∧
      ((b = false ∧ r = .ended (c₁, s₁)) ∨
        (b = true ∧ s.position ≠ s₁.position ∧ r = .on (s₁.foldIfFull g kind c₁)) ∨
        (b = true ∧ s.position = s₁.position ∧
          ∃ t, r = .stuck ((s₁.foldIfFull g kind c₁).1, t) ∧ t.isAborted = true)) := by
  obtain ⟨⟨b, c₁, s₁⟩, hstep, h⟩ := Option.bind_eq_some_iff.1 h
  refine ⟨b, c₁, s₁, hstep, ?_⟩
  have hposition := position_foldIfFull g kind c₁ s₁
  cases b with
  | false => exact .inl ⟨rfl, (Option.some.inj h).symm⟩
  | true =>
    dsimp only at h
    rw [if_neg (by decide), guardProgress] at h
    by_cases hmoved : s.position = s₁.position
    · rw [if_neg (by rw [hposition]; exact fun hne => hne hmoved)] at h
      exact .inr (.inr ⟨rfl, hmoved, _, (Option.some.inj h).symm, isAborted_abort ..⟩)
    · rw [if_pos (by rw [hposition]; exact hmoved)] at h
      exact .inr (.inl ⟨rfl, hmoved, (Option.some.inj h).symm⟩)

/-! ## Delimiters -/

theorem stepOver_of_token (hs : g.isTriviaAt s.position = false) (ht : (s.kindHere? g).isSome = true) :
    s.stepOver g = (true, { s with position := s.position + 1 }) := by
  have hseek : s.toSignificant g = s := by rw [toSignificant, Setup.significant_of_token hs]
  have hend : s.isAtEnd g = false := by
    rw [isAtEnd, Option.isNone_eq_false_iff]
    exact ht
  rw [stepOver, hseek, if_neg (by rw [hend]; exact Bool.false_ne_true)]

theorem position_openRegion (hs : g.isTriviaAt s.position = false) (pair : Delimiters)
    (token : Option Kind) (c : Grouping) :
    (s.openRegion g pair token c).2.position = s.position := by
  unfold openRegion
  split
  · exact Setup.significant_of_token hs
  · rfl

/-- A delimiter ends the chunk before it and opens or closes a region. -/
theorem delimiterStep_of_token (hadvancer : g.advancer = .advance) (hrun : run.Standard g)
    (hs : g.isTriviaAt s.position = false) (ht : (s.kindHere? g).isSome = true) (kind : Kind)
    (c : Grouping) :
    s.delimiterStep g run level kind pair c =
      let x := s.closeCurrent kind c
      let y := x.2.openRegion g pair (s.kindHere? g) x.1
      let z := y.2.foldFull g kind y.1
      some ({ z.2 with position := s.position + 1 }.closeRegion g kind pair (s.kindHere? g) z.1) := by
  rw [delimiterStep_eq]
  dsimp only
  have hclosed := position_closeCurrent kind c s
  have hopened := position_openRegion (s := (s.closeCurrent kind c).2) (hclosed ▸ hs) pair
    (s.kindHere? g) (s.closeCurrent kind c).1
  generalize (s.closeCurrent kind c).2.openRegion g pair (s.kindHere? g) (s.closeCurrent kind c).1 = y
    at hopened ⊢
  have hposition := (position_foldFull g kind y.1 y.2).trans (hopened.trans hclosed)
  generalize y.2.foldFull g kind y.1 = z at hposition ⊢
  have hkind : z.2.kindHere? g = s.kindHere? g := congrArg g.source.kind? hposition
  rw [hadvancer, hrun.advance, stepOver_of_token (hposition ▸ hs) (hkind ▸ ht), hposition]
  rfl

/-! ## Whole runs -/

/-- In the beginning a region is open if the token before is an opening delimiter and an error that starts
there was committed last. It reaches from that delimiter on. -/
theorem firstRegions_cases (g : Setup) (pair? : Option Delimiters) (s : Session) :
    s.firstRegions g pair? = ([], s) ∨
      ∃ pair i m, pair? = some pair ∧ g.before? s.position = some i ∧
        g.source.kind? i = some pair.opening ∧ s.log.lastCommitted? = some m ∧ s.log.start m = i ∧
        s.firstRegions g pair? = ([⟨s.log.fresh, none⟩], (s.wrap m).2) := by
  cases pair? with
  | none => exact .inl rfl
  | some pair =>
    rw [firstRegions, swallowedRegion_eq]
    split
    · next i m hi hm =>
      split
      · next hswallowed =>
        rw [fst_wrap]
        exact .inr ⟨pair, i, m, rfl, hi, hswallowed.1, hm, hswallowed.2.2, rfl⟩
      · exact .inl rfl
    · exact .inl rfl

theorem position_firstRegions (g : Setup) (pair? : Option Delimiters) (s : Session) :
    (s.firstRegions g pair?).2.position = s.position := by
  rcases firstRegions_cases g pair? s with h | ⟨_, _, m, -, -, -, -, -, h⟩
  · rw [h]
  · rw [h]
    exact position_wrap m s

/-- What is open is dropped, and that is all. -/
theorem dropOpen_eq (c : Grouping) (s : Session) : s.dropOpen c = { s with
    log := (c.current.toList ++ (c.regions.map (·.marker)).reverse).foldl MarkerLog.drop s.log } := by
  have hregions (regions : List Region) (t : Session) :
      regions.foldl (fun s region => s.drop region.marker) t =
        { t with log := (regions.map (·.marker)).foldl MarkerLog.drop t.log } := by
    induction regions generalizing t with
    | nil => rfl
    | cons r regions ih => exact ih (t.drop r.marker)
  rw [dropOpen, hregions, List.foldl_append, List.map_reverse]
  cases c.current <;> rfl

theorem isAborted_dropOpen (c : Grouping) (s : Session) : (s.dropOpen c).isAborted = s.isAborted := by
  rw [dropOpen_eq]
  rfl

theorem position_dropOpen (c : Grouping) (s : Session) : (s.dropOpen c).position = s.position := by
  rw [dropOpen_eq]

/-- The last round of a run finds no item, or it has not moved and the run fails. -/
theorem exists_last_round {rounds : Nat} {minds : Bool}
    (h : s.groupRun g run rounds level kind minds item eatMore = some (b, s')) :
    let pair? := if minds then g.language.delimiters.head? else none
    ∃ n c u found c' t, Turns (groupTurn g run level kind pair? item eatMore) n
        ({ regions := (s.firstRegions g pair?).1 }, (s.firstRegions g pair?).2) (c, u) ∧
      (u.toSignificant g).roundStep g run level kind pair? item eatMore c = some (found, c', t) ∧
      ((found = false ∧ b = (c'.total != 0) ∧
          s' = (t.dropOpen c').note (.chunksFinished c'.total)) ∨
        (found = true ∧ u.position = t.position ∧ s'.isAborted = true)) := by
  rw [groupRun_eq] at h
  generalize (if minds then g.language.delimiters.head? else none) = pair? at h ⊢
  obtain ⟨⟨c, t⟩, ht, h⟩ := Option.bind_eq_some_iff.1 h
  obtain ⟨rfl, rfl⟩ := Prod.mk.inj (Option.some.inj h)
  rw [groupItems_eq_goRound] at ht
  obtain ⟨n, ⟨c₀, u⟩, hturns, hlast⟩ := exists_turns_of_goRound ht
  rcases hlast with hended | hstuck
  · obtain ⟨found, c₁, t₁, hstep, ⟨hfound, hr⟩ | ⟨-, -, hr⟩ | ⟨-, -, v, hr, -⟩⟩ := groupTurn_cases hended
    · obtain ⟨rfl, rfl⟩ := Prod.mk.inj (Turn.ended.inj hr)
      exact ⟨n, c₀, u, found, c, t, hturns, hstep, .inl ⟨hfound, rfl, rfl⟩⟩
    · cases hr
    · cases hr
  · obtain ⟨found, c₁, t₁, hstep, ⟨-, hr⟩ | ⟨-, -, hr⟩ | ⟨hfound, hstays, v, hr, hv⟩⟩ :=
      groupTurn_cases hstuck
    · cases hr
    · cases hr
    · obtain ⟨-, rfl⟩ := Prod.mk.inj (Turn.stuck.inj hr)
      exact ⟨n, c₀, u, found, c₁, t₁, hturns, hstep,
        .inr ⟨hfound, hstays, (isAborted_dropOpen c t).trans hv⟩⟩

end Session

end Descent
