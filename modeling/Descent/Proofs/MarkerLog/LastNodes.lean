import Descent.Proofs.MarkerLog.Ascending
import Descent.Proofs.MarkerLog.Idle

/-!
# The nodes that came last

The node committed last is the one whose brackets close last (`MarkerLog.lastCommitted?_of_brackets`).
While a marker is open, all nodes behind its start are those that came since (`MarkerLog.bracketsSince`).
If they are one node with what it has inside, the marker can take its place: the node is dropped and the
marker committed, and no other node is touched (`MarkerLog.brackets_takeOver`).
-/

namespace Descent

namespace MarkerLog

variable {log : MarkerLog} {m x y : Marker} {es inside later older : List Entry}

theorem lastCommitted?_of_brackets (h : log.brackets = es ++ [.commit x]) :
    log.lastCommitted? = some x := by
  have hreverse : log.entries.filter log.shapes = .commit x :: es.reverse := by
    have hfilter := congrArg List.reverse h
    rwa [brackets, List.filter_reverse, List.reverse_reverse, List.reverse_append] at hfilter
  obtain ⟨later, older, hentries, hlater, hshapes, -⟩ := List.filter_eq_cons_iff.1 hreverse
  rw [lastCommitted?, hentries, List.findSome?_append, List.findSome?_eq_none_iff.2, Option.none_or,
    List.findSome?_cons]
  · simp only [show log.isCommitted x = true from hshapes, if_true]
  · intro e he
    cases e with
    | start z => rfl
    | commit z => exact if_neg (hlater _ he)
    | drop z prior => rfl

theorem lastCommitted?_of_bracketed {before : List Entry}
    (h : log.brackets = before ++ bracketed x inside) : log.lastCommitted? = some x :=
  lastCommitted?_of_brackets (h.trans (List.append_assoc before (.start x :: inside) _).symm)

/-! ## What came since a marker was opened -/

/-- The brackets of the nodes that came since a marker was opened. -/
def bracketsSince (log : MarkerLog) (m : Marker) : List Entry :=
  (log.entries.takeWhile (· != .start m)).reverse.filter log.shapes

/-- An open marker parts the entries into those since it was opened and those from before. -/
theorem exists_since (h : log.Sound) (hm : log.stage? m = some .opened) :
    ∃ later older, log.entries = later ++ .start m :: older ∧ .start m ∉ later ∧ .start m ∉ older ∧
      log.bracketsSince m = later.reverse.filter log.shapes := by
  obtain ⟨later, older, hentries⟩ := List.append_of_mem (h.start_mem_of_opened hm)
  obtain ⟨hlater, holder⟩ := h.notMem_of_entries hentries
  refine ⟨later, older, hentries, hlater, holder, ?_⟩
  have htake : log.entries.takeWhile (· != .start m) = later := by
    have hall (e : Entry) (he : e ∈ later) : (e != .start m) = true := by
      refine bne_iff_ne.2 ?_
      rintro rfl
      exact hlater he
    rw [hentries, List.takeWhile_append_of_pos hall, List.takeWhile_cons_of_neg (by simp),
      List.append_nil]
  rw [bracketsSince, htake]

theorem shapes_start_of_opened (hm : log.stage? m = some .opened) :
    log.shapes (.start m) = false := by
  rw [shapes, isCommitted, hm]
  rfl

/-- The brackets since a marker was opened are the last ones. -/
theorem brackets_of_opened (hm : log.stage? m = some .opened)
    (hentries : log.entries = later ++ .start m :: older) :
    log.brackets = older.reverse.filter log.shapes ++ later.reverse.filter log.shapes := by
  rw [brackets, hentries, List.reverse_append, List.reverse_cons, List.filter_append,
    List.filter_append, List.filter_singleton, shapes_start_of_opened hm, cond_false, List.append_nil]

theorem exists_before (h : log.Sound) (hm : log.stage? m = some .opened) :
    ∃ before, log.brackets = before ++ log.bracketsSince m := by
  obtain ⟨later, older, hentries, -, -, hfilter⟩ := exists_since h hm
  exact ⟨_, hfilter ▸ brackets_of_opened hm hentries⟩

/-- Of an open marker the log has the start only. -/
theorem eq_start_of_opened (h : log.Sound) (hm : log.stage? m = some .opened) {e : Entry}
    (he : e ∈ log.entries) (hem : e.marker = m) : e = .start m := by
  have hmem := mem_history.2 ⟨he, hem⟩
  obtain ⟨info, hi, hs⟩ := Option.map_eq_some_iff.1 hm
  rw [((h.life hi).of_opened hs).1] at hmem
  exact List.mem_singleton.1 hmem

namespace Ascends

/-- An entry further back in the log does not stand for a later position. -/
theorem le_of_sublist {q a b : Nat} {e e' : Entry} (h : log.Ascends q)
    (hsub : List.Sublist [e', e] log.entries) (ha : log.place? e = some a)
    (hb : log.place? e' = some b) : a ≤ b := by
  have hplaces := hsub.filterMap log.place?
  rw [List.filterMap_cons_some hb, List.filterMap_cons_some ha, List.filterMap_nil] at hplaces
  exact List.rel_of_pairwise_cons ((List.pairwise_cons.1 h).2.sublist hplaces) List.mem_cons_self

/-- A node does not end before it starts. -/
theorem start_le_stop {q : Nat} (h : log.Ascends q) (hs : log.Sound) (hx : log.isCommitted x = true) :
    log.start x ≤ log.stop x := by
  have hboth : List.Sublist [.commit x, .start x] log.entries := by
    rw [← hs.isCommitted_iff.1 hx]
    exact List.filter_sublist
  exact h.le_of_sublist hboth rfl rfl

/-- What came since a marker was opened does not start before it. -/
theorem start_le_start {q : Nat} (h : log.Ascends q) (hs : log.Sound)
    (hm : log.stage? m = some .opened) (hx : .start x ∈ log.bracketsSince m) :
    log.start m ≤ log.start x := by
  obtain ⟨later, older, hentries, -, -, hsince⟩ := exists_since hs hm
  rw [hsince] at hx
  have hmem := List.mem_reverse.1 (List.mem_filter.1 hx).1
  have hboth : List.Sublist [.start x, .start m] log.entries := by
    rw [hentries]
    exact (List.singleton_sublist.2 hmem).append (List.singleton_sublist.2 List.mem_cons_self)
  exact h.le_of_sublist hboth rfl rfl

end Ascends

/-! ## Nodes that are dropped, and open markers that are committed -/

theorem shapes_drop (log : MarkerLog) (x : Marker) (e : Entry) :
    (log.drop x).shapes e = (decide (e.marker ≠ x) && log.shapes e) := by
  have hcommitted (y : Marker) : (log.drop x).isCommitted y =
      (decide (y ≠ x) && log.isCommitted y) := by
    by_cases hy : y = x
    · rw [hy, isCommitted_drop_self, decide_eq_false fun h => h rfl, Bool.false_and]
    · rw [isCommitted, stage?_drop_of_ne (Ne.symm hy), decide_eq_true hy, Bool.true_and, isCommitted]
  cases e with
  | start y | commit y => exact hcommitted y
  | drop y prior => exact (Bool.and_false _).symm

theorem entries_drop_of_committed (hx : log.isCommitted x = true) :
    (log.drop x).entries = .drop x .committed :: log.entries := by
  rw [drop, isCommitted_iff_stage?.1 hx]

/-- Without a node, the entries are those of the others. -/
theorem filter_ne (h : log.Sound) (hx : log.isCommitted x = true) {es₁ es₂ es₃ : List Entry}
    (hsub : List.Sublist (es₁ ++ .start x :: (es₂ ++ .commit x :: es₃)) log.brackets) :
    (es₁ ++ .start x :: (es₂ ++ .commit x :: es₃)).filter (fun e => decide (e.marker ≠ x)) =
      es₁ ++ (es₂ ++ es₃) := by
  have hnodup := hsub.nodup h.nodup_brackets
  have hother (es : List Entry) (hes : es ⊆ es₁ ++ .start x :: (es₂ ++ .commit x :: es₃))
      (hstart : .start x ∉ es) (hcommit : .commit x ∉ es) :
      es.filter (fun e => decide (e.marker ≠ x)) = es := by
    refine List.filter_eq_self.2 fun e he => decide_eq_true fun hex => ?_
    rcases h.eq_of_marker hx (mem_brackets.1 (hsub.subset (hes he))).1 hex with rfl | rfl
    · exact hcommit he
    · exact hstart he
  have hstart : decide ((Entry.start x).marker ≠ x) = false := decide_eq_false fun h => h rfl
  have hcommit : decide ((Entry.commit x).marker ≠ x) = false := decide_eq_false fun h => h rfl
  rw [List.filter_append, List.filter_cons, hstart, List.filter_append, List.filter_cons, hcommit,
    hother es₁, hother es₂, hother es₃]
  · rfl
  all_goals grind [List.nodup_append, List.nodup_cons]

theorem brackets_drop_eq_filter (hx : log.isCommitted x = true) :
    (log.drop x).brackets = log.brackets.filter (fun e => decide (e.marker ≠ x)) := by
  have hshapes : (log.drop x).shapes = fun e => decide (e.marker ≠ x) && log.shapes e :=
    funext (shapes_drop log x)
  rw [brackets, brackets, List.filter_filter, entries_drop_of_committed hx, List.reverse_cons,
    List.filter_append, hshapes]
  simp [shapes]

/-- A node that is dropped leaves what was inside. -/
theorem brackets_drop_of_committed (h : log.Sound) (hx : log.isCommitted x = true)
    {es₁ es₂ es₃ : List Entry} (hb : log.brackets = es₁ ++ .start x :: (es₂ ++ .commit x :: es₃)) :
    (log.drop x).brackets = es₁ ++ (es₂ ++ es₃) := by
  rw [← filter_ne h hx (hb ▸ List.Sublist.refl _), ← hb, brackets_drop_eq_filter hx]

theorem bracketsSince_drop_of_committed (hx : log.isCommitted x = true) (m : Marker) :
    (log.drop x).bracketsSince m =
      (log.bracketsSince m).filter (fun e => decide (e.marker ≠ x)) := by
  have hshapes : (log.drop x).shapes = fun e => decide (e.marker ≠ x) && log.shapes e :=
    funext (shapes_drop log x)
  rw [bracketsSince, bracketsSince, entries_drop_of_committed hx,
    List.takeWhile_cons_of_pos (by simp), List.reverse_cons, List.filter_append, List.filter_filter,
    hshapes]
  simp [shapes]

/-- An open marker that is committed has inside what came since it was opened. -/
theorem brackets_commit_of_opened (h : log.Sound) (hm : log.stage? m = some .opened)
    {before : List Entry} (hbefore : log.brackets = before ++ log.bracketsSince m) (kind : Kind)
    (error : Option SyntaxError) (p : Nat) :
    (log.commit m kind error p).brackets = before ++ bracketed m (log.bracketsSince m) := by
  obtain ⟨later, older, hentries, hlater, holder, hfilter⟩ := exists_since h hm
  obtain rfl : older.reverse.filter log.shapes = before := by
    have hsplit := brackets_of_opened hm hentries
    rw [← hfilter] at hsplit
    exact List.append_cancel_right (hsplit.symm.trans hbefore)
  have hself : (log.commit m kind error p).isCommitted m = true := by
    rw [isCommitted, stage?_commit hm, if_pos rfl]
    rfl
  -- all other entries shape the tree if they did before
  have hsame (es : List Entry) (hes : es ⊆ log.entries) (hstart : .start m ∉ es) :
      es.reverse.filter (log.commit m kind error p).shapes = es.reverse.filter log.shapes := by
    refine List.filter_congr fun e he => shapes_congr ?_
    have he := List.mem_reverse.1 he
    have hne : e.marker ≠ m := fun hem => hstart (eq_start_of_opened h hm (hes he) hem ▸ he)
    rw [isCommitted, stage?_commit hm, if_neg hne, isCommitted]
  have hnew := hsame later (by simp [hentries]) hlater
  have hold := hsame older (fun e he => by simp [hentries, he]) holder
  have hall : (log.commit m kind error p).entries = .commit m :: (later ++ .start m :: older) := by
    rw [commit, if_pos hm, hentries]
  rw [brackets, hall, hfilter]
  simp [hnew, hold, shapes, hself, bracketed]

/-- A node that is widened has inside what it had and all that came behind it. -/
theorem brackets_renew_eq (h : log.Sound) (hx : log.isCommitted x = true)
    {before inside after : List Entry} (hb : log.brackets = before ++ (bracketed x inside ++ after))
    (kind : Kind) (error : Option SyntaxError) (p : Nat) :
    (log.renew x kind error p).brackets = before ++ bracketed log.fresh (inside ++ after) := by
  have hb' : log.brackets = before ++ .start x :: (inside ++ .commit x :: after) := by
    rw [hb, bracketed]
    simp
  have henclose := brackets_enclose h hb' kind error p
  have hsound : (log.enclose x kind error p).Sound := (h.wrap x).commit ..
  have hfresh : log.fresh ≠ x := by
    rintro rfl
    rw [Retains.isCommitted_fresh] at hx
    cases hx
  have hx' : (log.enclose x kind error p).isCommitted x = true := by
    rw [isCommitted, stage?_enclose, if_neg (Ne.symm hfresh)]
    exact hx
  have hsplit : before ++ bracketed log.fresh (.start x :: (inside ++ .commit x :: after)) =
      (before ++ [.start log.fresh]) ++
        .start x :: (inside ++ .commit x :: (after ++ [.commit log.fresh])) := by
    simp [bracketed]
  rw [renew, ← enclose, brackets_drop_of_committed hsound hx' (henclose.trans hsplit)]
  simp [bracketed]

/-! ## A marker that takes the place of a node -/

/-- The node `y` is dropped, and the open marker `m` is committed in its place. -/
def takeOver (log : MarkerLog) (m y : Marker) (kind : Kind) (position : Nat) : MarkerLog :=
  (log.drop y).commit m kind none position

section
variable {kind : Kind} {p : Nat} (hm : log.stage? m = some .opened) (hy : log.isCommitted y = true)
include hm hy

theorem ne_of_opened_of_isCommitted : y ≠ m := by
  rintro rfl
  rw [isCommitted, hm] at hy
  cases hy

theorem stage?_takeOver_drop : (log.drop y).stage? m = some .opened := by
  rw [stage?_drop_of_ne (ne_of_opened_of_isCommitted hm hy), hm]

omit hm hy in
theorem info?_takeOver_of_ne (hxm : x ≠ m) (hxy : x ≠ y) :
    (log.takeOver m y kind p).info? x = log.info? x := by
  rw [takeOver, info?_commit_of_ne (Ne.symm hxm), info?_drop_of_ne (Ne.symm hxy)]

/-- The marker becomes a node from where it was opened. -/
theorem info?_takeOver_self (hp : log.start m ≤ p) : (log.takeOver m y kind p).info? m =
    some { start := log.start m, stop := p, kind := some kind, stage := .committed } := by
  obtain ⟨info, hi, hopen⟩ := Option.map_eq_some_iff.1 (stage?_takeOver_drop hm hy)
  have hstart : log.start m = info.start := by
    rw [start, ← info?_drop_of_ne (ne_of_opened_of_isCommitted hm hy), hi]
    rfl
  rw [takeOver, info?_commit_self hi hopen, ← hstart, Nat.max_eq_left hp]

/-- The brackets of the marker come where those of the node were, and what was inside stays. -/
theorem brackets_takeOver (h : log.Sound) {before : List Entry}
    (hsince : log.bracketsSince m = bracketed y inside)
    (hbefore : log.brackets = before ++ bracketed y inside) :
    (log.takeOver m y kind p).brackets = before ++ bracketed m inside := by
  have hdropped : (log.drop y).bracketsSince m = inside := by
    have hsub : List.Sublist (bracketed y inside) log.brackets := by
      rw [hbefore]
      exact List.sublist_append_right ..
    have hfilter := @filter_ne log y h hy [] inside [] hsub
    rw [List.nil_append, List.nil_append, List.append_nil] at hfilter
    rw [bracketsSince_drop_of_committed hy, hsince, bracketed, hfilter]
  have hbrackets : (log.drop y).brackets = before ++ (log.drop y).bracketsSince m := by
    rw [hdropped, brackets_drop_of_committed h hy hbefore, List.append_nil]
  have hcommit := brackets_commit_of_opened (h.drop y) (stage?_takeOver_drop hm hy) hbrackets kind
    none p
  rwa [hdropped] at hcommit

end

end MarkerLog

end Descent
