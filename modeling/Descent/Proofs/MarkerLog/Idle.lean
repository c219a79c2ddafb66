import Descent.Proofs.MarkerLog.Gains
import Descent.Proofs.MarkerLog.Laminar
import Descent.Proofs.Session.GivenBack

/-!
# Where nodes go in a log

What is done to a log without committing anything leaves its nodes and its open markers as they are
(`MarkerLog.Idle`). When a marker is committed behind it, its brackets are the last two
(`MarkerLog.brackets_commit`), and when a node is put around another one, its start comes right before the
start of that one and its end comes last (`MarkerLog.brackets_enclose`).
-/

namespace Descent

namespace MarkerLog

variable {log log₁ log' : MarkerLog} {m x : Marker}

/-- Nothing was committed or dropped that is there now or was there before, and what was open still is. -/
structure Idle (log log' : MarkerLog) : Prop where
  continues : log.Continues log'
  nodes : log.sameNodes log' = true
  opened : ∀ m, log.stage? m = some .opened → log'.stage? m = some .opened

namespace Idle

theorem refl (h : log.Sound) : log.Idle log where
  continues := .refl h
  nodes := sameNodes_refl log
  opened _ ho := ho

theorem trans (h : log.Idle log₁) (h' : log₁.Idle log') : log.Idle log' where
  continues := h.continues.trans h'.continues
  nodes := sameNodes_trans h.nodes h'.nodes
  opened m ho := h'.opened m (h.opened m ho)

theorem openAt (h : log.Sound) (p : Nat) : log.Idle (log.openAt p).2 where
  continues := .openAt h p
  nodes := by
    rw [sameNodes, brackets_openAt h, beq_self_eq_true, Bool.true_and, List.all_eq_true]
    intro e he
    have hknown := h.known e (List.mem_reverse.1 (List.mem_filter.1 he).1)
    rw [info?_openAt_of_lt hknown, beq_self_eq_true]
  opened m ho := by
    obtain ⟨info, hi, hs⟩ := Option.map_eq_some_iff.1 ho
    rw [stage?, info?_openAt hi, Option.map_some, hs]

theorem sound (h : log.Idle log') : log'.Sound := h.continues.sound

theorem brackets (h : log.Idle log') : log'.brackets = log.brackets :=
  brackets_eq_of_sameNodes h.nodes

theorem info? (h : log.Idle log') (hs : log.Sound) (hm : log.isCommitted m = true) :
    log'.info? m = log.info? m :=
  info?_of_sameNodes hs h.nodes hm

end Idle

theorem shapes_congr {e : Entry} (h : log'.isCommitted e.marker = log.isCommitted e.marker) :
    log'.shapes e = log.shapes e := by
  cases e with
  | start m | commit m => exact h
  | drop m prior => rfl

theorem mem_brackets {e : Entry} : e ∈ log.brackets ↔ e ∈ log.entries ∧ log.shapes e = true := by
  rw [brackets, List.mem_filter, List.mem_reverse]

/-- The brackets are known by what they are and by the order of the entries. -/
theorem brackets_eq_of_sublist (h : log.Sound) {es : List Entry}
    (hes : es.Sublist log.entries.reverse) (hmem : ∀ e, e ∈ log.brackets ↔ e ∈ es) :
    log.brackets = es := by
  have hsub : es.Sublist log.brackets := by
    have hfilter := hes.filter log.shapes
    rwa [List.filter_eq_self.2 fun e he => (mem_brackets.1 ((hmem e).2 he)).2] at hfilter
  have hnodup := h.nodup_brackets
  have hperm := (List.perm_ext_iff_of_nodup hnodup (hnodup.sublist hsub)).2 hmem
  exact (hsub.eq_of_length hperm.length_eq.symm).symm

/-- A marker that is open is no node, and neither is it when it was dropped. -/
theorem brackets_drop (hm : log.stage? m = some .opened) :
    (log.drop m).brackets = log.brackets := by
  have hcommitted (x : Marker) : (log.drop m).isCommitted x = log.isCommitted x := by
    by_cases hx : m = x
    · rw [← hx, isCommitted, isCommitted, stage?_drop_self (.inl hm), hm]
      rfl
    · rw [isCommitted, stage?_drop_of_ne hx, isCommitted]
  have hshapes : (log.drop m).shapes = log.shapes := funext fun e => shapes_congr (hcommitted _)
  rw [brackets, hshapes]
  rcases entries_drop log m with hentries | ⟨prior, hentries⟩
  · rw [hentries, brackets]
  · rw [hentries, List.reverse_cons, List.filter_append, List.filter_singleton, brackets]
    exact List.append_nil _

/-! ## The nodes stay -/

/-- The log is sound, and the nodes are those of the older log. -/
structure Retains (log log' : MarkerLog) : Prop where
  sound : log'.Sound
  nodes : log.sameNodes log' = true

namespace Retains

theorem refl (h : log.Sound) : log.Retains log := ⟨h, sameNodes_refl log⟩

theorem trans (h : log.Retains log₁) (h' : log₁.Retains log') : log.Retains log' :=
  ⟨h'.sound, sameNodes_trans h.nodes h'.nodes⟩

/-- There is no node that was not there before. -/
theorem isCommitted (h : log.Retains log') (hx : log'.isCommitted x = true) :
    log.isCommitted x = true := by
  have hmem := start_mem_brackets h.sound hx
  rw [brackets_eq_of_sameNodes h.nodes] at hmem
  exact isCommitted_of_start_mem hmem

/-- Where entries are only added, and only one marker changes, which is no node and does not become one,
the nodes stay. -/
theorem of_change (h : log.Sound) (hc : log.Continues log') (hm : log.isCommitted m = false)
    (hm' : log'.isCommitted m = false) (hother : ∀ x, m ≠ x → log'.info? x = log.info? x) :
    log.Retains log' := by
  have hcommitted (x : Marker) : log'.isCommitted x = log.isCommitted x := by
    by_cases hx : m = x
    · rw [← hx, hm, hm']
    · exact isCommitted_congr (hother x hx)
  have hshapes : log'.shapes = log.shapes := funext fun e => shapes_congr (hcommitted e.marker)
  have hbrackets : log'.brackets = log.brackets := by
    refine brackets_eq_of_sublist hc.sound (List.filter_sublist.trans hc.entries.reverse) fun e => ?_
    rw [mem_brackets, mem_brackets, hshapes]
    refine ⟨fun he => ⟨?_, he.2⟩, fun he => ⟨hc.entries.subset he.1, he.2⟩⟩
    cases e with
    | start x => exact h.start_mem_of_committed (isCommitted_iff_stage?.1 he.2)
    | commit x => exact h.commit_mem_of_committed (isCommitted_iff_stage?.1 he.2)
    | drop x prior => cases he.2
  refine ⟨hc.sound, Bool.and_eq_true_iff.2 ⟨beq_iff_eq.2 hbrackets, List.all_eq_true.2 fun e he => ?_⟩⟩
  refine beq_iff_eq.2 (hother e.marker ?_)
  rintro rfl
  rw [isCommitted_of_shapes (mem_brackets.1 he).2] at hm
  cases hm

theorem isCommitted_fresh (log : MarkerLog) : log.isCommitted log.fresh = false := by
  have hnone : log.info? log.fresh = none := info?_eq_none_iff.2 (Nat.le_refl log.markers.size)
  rw [MarkerLog.isCommitted, stage?, hnone]
  rfl

theorem openAt (h : log.Sound) (p : Nat) : log.Retains (log.openAt p).2 := by
  refine .of_change h (.openAt h p) (isCommitted_fresh log) ?_ fun x hx => info?_openAt_of_ne hx p
  simp [MarkerLog.isCommitted, stage?, MarkerLog.info?, MarkerLog.openAt, fresh]

theorem wrap (h : log.Sound) (m : Marker) : log.Retains (log.wrap m).2 := by
  refine .of_change h (.wrap h m) (isCommitted_fresh log) ?_ fun x hx => info?_wrap_of_ne hx m
  simp [MarkerLog.isCommitted, stage?, MarkerLog.info?, MarkerLog.wrap, fresh]

theorem drop (h : log.Sound) (hm : log.isCommitted m = false) : log.Retains (log.drop m) :=
  .of_change h (.drop h m) hm (isCommitted_drop_self log m) fun _ hx => info?_drop_of_ne hx

theorem drops {ms : List Marker} (h : log.Sound) (hms : ∀ m ∈ ms, log.isCommitted m = false) :
    log.Retains (ms.foldl MarkerLog.drop log) := by
  induction ms generalizing log with
  | nil => exact .refl h
  | cons m ms ih =>
    obtain ⟨hm, hms⟩ := List.forall_mem_cons.1 hms
    have hdrop : log.Retains (log.drop m) := .drop h hm
    refine hdrop.trans (ih hdrop.sound fun x hx => Bool.eq_false_iff.2 fun hc => ?_)
    exact Bool.eq_false_iff.1 (hms x hx) (hdrop.isCommitted hc)

end Retains

/-- Nodes may have come behind those that are there, none of them from before a position, and what was
open still is. -/
structure Adds (log : MarkerLog) (p : Nat) (log' : MarkerLog) : Prop where
  sound : log'.Sound
  infos : ∀ m, log.isCommitted m = true → log'.info? m = log.info? m
  nodes : ∃ fs, log'.brackets = log.brackets ++ fs ∧ ∀ m, .start m ∈ fs → p ≤ log'.start m
  opened : ∀ m, log.stage? m = some .opened → log'.stage? m = some .opened

theorem Idle.adds (h : log.Idle log') (hs : log.Sound) (p : Nat) : log.Adds p log' where
  sound := h.sound
  infos _ hm := h.info? hs hm
  nodes := ⟨[], by rw [h.brackets, List.append_nil], fun _ hm => (List.not_mem_nil hm).elim⟩
  opened := h.opened

/-- A node that is committed with nothing since it was opened comes last. -/
theorem brackets_commit (h : log.Sound) {p : Nat} (hidle : (log.openAt p).2.Idle log₁)
    (kind : Kind) (error : Option SyntaxError) (q : Nat) :
    (log₁.commit log.fresh kind error q).brackets =
      log.brackets ++ bracketed log.fresh [] := by
  have hopen : log₁.stage? log.fresh = some .opened :=
    hidle.opened _ (by rw [stage?_openAt, if_pos rfl])
  have hbrackets : log₁.brackets = log.brackets := hidle.brackets.trans (brackets_openAt h p)
  have hentries : (log₁.commit log.fresh kind error q).entries = .commit log.fresh :: log₁.entries := by
    rw [commit, if_pos hopen]
  generalize hlog' : log₁.commit log.fresh kind error q = log' at hentries
  have hsound : log'.Sound := hlog' ▸ hidle.sound.commit ..
  have hstage (x : Marker) : log'.isCommitted x = (decide (x = log.fresh) || log₁.isCommitted x) := by
    rw [isCommitted, ← hlog', stage?_commit hopen]
    by_cases hx : x = log.fresh
    · simp [hx]
    · simp [hx, isCommitted]
  have hnot : .commit log.fresh ∉ log₁.entries :=
    (hsound.notMem_of_entries (hentries.trans (List.nil_append _).symm)).2
  -- the start is behind all brackets, and but for it they are as before
  have hmem (e : Entry) : e ∈ log'.brackets ↔ e ∈ log.brackets ++ bracketed log.fresh [] := by
    have hfresh : .start log.fresh ∈ log₁.entries := hidle.sound.start_mem_of_opened hopen
    simp only [mem_brackets, hentries, bracketed, List.nil_append, List.mem_append, List.mem_cons,
      List.not_mem_nil, or_false, ← hbrackets]
    cases e with
    | start x =>
      simp only [shapes, hstage, Entry.start.injEq, reduceCtorEq, false_or, or_false]
      by_cases hx : x = log.fresh
      · simp [hx, hfresh]
      · simp [hx]
    | commit x =>
      simp only [shapes, hstage, Entry.commit.injEq, reduceCtorEq, false_or]
      by_cases hx : x = log.fresh
      · simp [hx]
      · simp [hx]
    | drop x prior => simp [shapes]
  refine brackets_eq_of_sublist hsound ?_ hmem
  have hstart : List.Sublist (.start log.fresh :: log.entries) log₁.entries :=
    hidle.continues.entries
  have hbefore := hstart.reverse
  rw [List.reverse_cons] at hbefore
  have hsub : List.Sublist (log.brackets ++ [.start log.fresh]) log₁.entries.reverse :=
    (List.filter_sublist.append (List.Sublist.refl _)).trans hbefore
  rw [hentries, List.reverse_cons]
  have hall := hsub.append (List.Sublist.refl [Entry.commit log.fresh])
  rwa [List.append_assoc] at hall

/-- A marker that is open when nothing else was done is committed as a node from where it was opened. -/
theorem info?_commit_fresh {p q : Nat} (hidle : (log.openAt p).2.Idle log₁) (hq : p ≤ q) (kind : Kind)
    (error : Option SyntaxError) :
    (log₁.commit log.fresh kind error q).info? log.fresh =
      some { start := p, stop := q, kind := some kind, error, stage := .committed } := by
  have hfresh : (log.openAt p).2.info? log.fresh = some { start := p, stop := p } := by
    simp [MarkerLog.openAt, info?, fresh]
  obtain ⟨info, hi, hstart, -⟩ := hidle.continues.infos _ _ hfresh
  have hstage := hidle.opened log.fresh (by rw [stage?_openAt, if_pos rfl])
  rw [stage?, hi, Option.map_some, Option.some.injEq] at hstage
  rw [info?_commit_self hi hstage, hstart, Nat.max_eq_left hq]

/-- What was committed before is as it was. -/
theorem info?_commit_of_idle {p q : Nat} (h : log.Sound) (hidle : (log.openAt p).2.Idle log₁)
    (hm : log.isCommitted m = true) (kind : Kind) (error : Option SyntaxError) :
    (log₁.commit log.fresh kind error q).info? m = log.info? m := by
  obtain ⟨info, hi, -⟩ := isCommitted_iff.1 hm
  have hlt := lt_size_of_info? hi
  have hne : log.fresh ≠ m := fun he => Nat.ne_of_gt hlt (congrArg Marker.number he)
  have hopen := info?_openAt_of_lt hlt p
  rw [info?_commit_of_ne hne, hidle.info? (h.openAt p) ((isCommitted_congr hopen).trans hm), hopen]

/-- A node that is put around another one begins where that does. -/
theorem info?_enclose_fresh {p : Nat} (hp : log.start x ≤ p) (kind : Kind)
    (error : Option SyntaxError) :
    (log.enclose x kind error p).info? log.fresh =
      some { start := log.start x, stop := p, kind := some kind, error, stage := .committed } := by
  have hfresh : (log.wrap x).2.info? log.fresh =
      some { start := log.start x, stop := log.start x } := by
    simp [MarkerLog.wrap, info?, fresh]
  rw [enclose, info?_commit_self hfresh rfl, Nat.max_eq_left hp]

theorem info?_enclose_of_committed (hm : log.isCommitted m = true) (kind : Kind)
    (error : Option SyntaxError) (p : Nat) :
    (log.enclose x kind error p).info? m = log.info? m := by
  obtain ⟨info, hi, -⟩ := isCommitted_iff.1 hm
  have hne : log.fresh ≠ m := fun he => Nat.ne_of_gt (lt_size_of_info? hi) (congrArg Marker.number he)
  rw [enclose, info?_commit_of_ne hne, info?_wrap_of_ne hne]

/-- A node that is put around another one begins right before it and ends behind everything. -/
theorem brackets_enclose (h : log.Sound) {before after : List Entry}
    (hx : log.brackets = before ++ .start x :: after) (kind : Kind) (error : Option SyntaxError)
    (p : Nat) :
    (log.enclose x kind error p).brackets =
      before ++ bracketed log.fresh (.start x :: after) := by
  have hmem : .start x ∈ log.brackets := by simp [hx]
  have hcommitted (y : Marker) : (log.enclose x kind error p).isCommitted y =
      (decide (y = log.fresh) || log.isCommitted y) := by
    rw [isCommitted, stage?_enclose]
    by_cases hy : y = log.fresh
    · simp [hy]
    · simp [hy, isCommitted]
  have hold : ∀ e ∈ log.entries, (log.enclose x kind error p).shapes e = log.shapes e := by
    intro e he
    have hne : e.marker ≠ log.fresh := fun heq => Nat.lt_irrefl _ (heq ▸ h.known e he)
    exact shapes_congr (by rw [hcommitted, decide_eq_false hne, Bool.false_or])
  have hnew : (log.enclose x kind error p).isCommitted log.fresh = true := by
    rw [hcommitted, decide_eq_true rfl, Bool.true_or]
  obtain ⟨later, older, hlater, hentries, hinsert⟩ :=
    (insertStart_cases x log.fresh log.entries).resolve_left fun h => h.1 (mem_brackets.1 hmem).1
  have hsplit : before ++ .start x :: after =
      older.reverse.filter log.shapes ++ .start x :: later.reverse.filter log.shapes := by
    rw [← hx, brackets, hentries, List.reverse_append, List.reverse_cons, List.append_assoc,
      List.filter_append, List.filter_append, List.filter_singleton, (mem_brackets.1 hmem).2]
    rfl
  have hapart : .start x ∉ before ∧ .start x ∉ after := by
    have hnodup := h.nodup_brackets
    rw [hx, List.nodup_append, List.nodup_cons] at hnodup
    exact ⟨fun hb => hnodup.2.2 _ hb _ List.mem_cons_self rfl, hnodup.2.1.1⟩
  obtain ⟨rfl, -, rfl⟩ := (List.append_cons_inj_of_notMem hapart.1 hapart.2).1 hsplit
  have hreverse : (log.enclose x kind error p).entries.reverse =
      older.reverse ++ ([.start log.fresh, .start x] ++ (later.reverse ++ [.commit log.fresh])) := by
    rw [entries_enclose, hinsert]
    simp
  have hfilter (es : List Entry) (hes : ∀ e ∈ es, e ∈ log.entries) :
      es.reverse.filter (log.enclose x kind error p).shapes = es.reverse.filter log.shapes :=
    List.filter_congr fun e he => hold e (hes e (List.mem_reverse.1 he))
  have holder := hfilter older fun e he => by simp [hentries, he]
  have hlater := hfilter later fun e he => by simp [hentries, he]
  have hstarts : (log.enclose x kind error p).shapes (.start x) = true :=
    (hold _ (mem_brackets.1 hmem).1).trans (mem_brackets.1 hmem).2
  have hfirst : (log.enclose x kind error p).shapes (.start log.fresh) = true := hnew
  have hlast : (log.enclose x kind error p).shapes (.commit log.fresh) = true := hnew
  rw [brackets, hreverse]
  simp [holder, hlater, hstarts, hfirst, hlast, bracketed]

end MarkerLog

end Descent
