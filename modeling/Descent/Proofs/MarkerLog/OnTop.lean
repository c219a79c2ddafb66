import Descent.Proofs.MarkerLog.Laminar

/-!
# What happens above the open markers

While nothing reaches below the latest open marker, a log grows like a stack. `OnTop log log'` says
that `log'` came about in this way: what the log has up to the start of an open marker is as it was,
markers that were opened meanwhile are no longer open, of the old ones at most nodes were dropped, and
a node that was exposed still is. `Behind m log log'` says that all of it is behind the start of the
marker `m`, which then is exposed. Rolling back to a marker leaves the very entries and stages from
before it was opened (`OnTop.rollback`).
-/

namespace Descent

namespace MarkerLog

variable {log log' log₁ log₂ : MarkerLog} {m m' x y : Marker} {p q : Nat}

/-- The log is laminar, markers that are new are not open, and of the old ones at most nodes were
dropped. -/
structure Settled (log log' : MarkerLog) : Prop where
  laminar : log'.Laminar
  stage : ∀ x, x.number < log.markers.size → log'.stage? x = log.stage? x ∨
    log.stage? x = some .committed ∧ log'.stage? x = some .dropped
  closed : ∀ x, log.markers.size ≤ x.number → log'.stage? x ≠ some .opened

/-- Nothing has changed below the open markers, nor for nodes that were exposed and still are there. -/
structure OnTop (log log' : MarkerLog) : Prop extends Settled log log' where
  below : ∀ o later older, log.stage? o = some .opened →
    log.entries = later ++ .start o :: older → ∃ later', log'.entries = later' ++ .start o :: older
  exposed : ∀ x, log.stage? x = some .committed → log.Exposed x →
    log'.stage? x = some .committed → log'.Exposed x

/-- All that is new is behind the start of `m`, which is new itself. -/
structure Behind (m : Marker) (log log' : MarkerLog) : Prop extends Settled log log' where
  fresh : log.markers.size ≤ m.number
  behind : ∃ later, log'.entries = later ++ .start m :: log.entries

/-! ## Stages of old markers -/

namespace Settled

/-- An old marker is open exactly if it was. -/
theorem opened_iff (h : Settled log log') (hx : x.number < log.markers.size) :
    log'.stage? x = some .opened ↔ log.stage? x = some .opened := by
  rcases h.stage x hx with he | ⟨hc, hd⟩
  · rw [he]
  · simp [hc, hd]

theorem opened_of_opened (h : Settled log log') (hx : log'.stage? x = some .opened) :
    log.stage? x = some .opened := by
  by_cases hlt : x.number < log.markers.size
  · exact (h.opened_iff hlt).1 hx
  · exact absurd hx (h.closed x (Nat.not_lt.1 hlt))

theorem committed_of_committed (h : Settled log log') (hlt : x.number < log.markers.size)
    (hx : log'.stage? x = some .committed) : log.stage? x = some .committed := by
  rcases h.stage x hlt with he | ⟨-, hd⟩
  · exact he ▸ hx
  · rw [hd] at hx
    cases hx

theorem trans (h : Settled log log₁) (h' : Settled log₁ log')
    (hsize : log.markers.size ≤ log₁.markers.size) : Settled log log' where
  laminar := h'.laminar
  stage x hx := by
    rcases h.stage x hx with he | ⟨hc, hd⟩
    · rw [← he]
      exact h'.stage x (Nat.lt_of_lt_of_le hx hsize)
    · rcases h'.stage x (Nat.lt_of_lt_of_le hx hsize) with he' | ⟨hc', -⟩
      · exact .inr ⟨hc, he'.trans hd⟩
      · rw [hd] at hc'
        cases hc'
  closed x hx ho := h.closed x hx (h'.opened_of_opened ho)

end Settled

/-! ## The order of old entries -/

namespace Continues

/-- Old entries are in the same order. -/
theorem rank_lt_iff (h : log.Continues log') {e e' : Entry} (he : e ∈ log.entries)
    (he' : e' ∈ log.entries) :
    rank log'.entries e < rank log'.entries e' ↔ rank log.entries e < rank log.entries e' := by
  have hkeep {e e' : Entry} (he : e ∈ log.entries) :
      rank log.entries e < rank log.entries e' → rank log'.entries e < rank log'.entries e' :=
    rank_lt_of_sublist h.entries (h.sound.count_le_one e) he
  refine ⟨fun hlt => ?_, hkeep he⟩
  rcases Nat.lt_trichotomy (rank log.entries e) (rank log.entries e') with hlt' | heq | hlt'
  · exact hlt'
  · rw [rank_inj he heq] at hlt
    exact absurd hlt (Nat.lt_irrefl _)
  · have := hkeep he' hlt'
    omega

end Continues

/-! ## What is behind a marker -/

/-- What is below an entry that is there once ranks as if nothing were above. -/
theorem rank_of_mem_older {later older : List Entry} {e s : Entry}
    (hcount : (later ++ s :: older).count e ≤ 1) (he : e ∈ older) :
    rank (later ++ s :: older) e = rank older e := by
  have hpos : 0 < older.count e := List.count_pos_iff.2 he
  rw [List.count_append, List.count_cons] at hcount
  have hlater : e ∉ later := by
    rw [← List.count_eq_zero]
    omega
  have hs : s ≠ e := by
    rintro rfl
    rw [if_pos (by simp)] at hcount
    omega
  rw [rank_append_of_notMem hlater, rank_cons_of_ne _ hs]

/-- What is not below an entry ranks as high as it at least. -/
theorem lt_rank_of_notMem_older {later older : List Entry} {e s : Entry} (he : e ∉ older)
    (hmem : e ∈ later ++ s :: older) : older.length < rank (later ++ s :: older) e := by
  by_cases hlater : e ∈ later
  · rw [rank_append_of_mem hlater, List.length_cons]
    omega
  · have hs : e = s := by simpa [hlater, he] using hmem
    rw [rank_append_of_notMem hlater, hs, rank_cons_self]
    omega

namespace Behind

section
variable (h : Behind m log log') (hs' : log'.Sound)
include h hs'

theorem rank_eq {e : Entry} (he : e ∈ log.entries) : rank log'.entries e = rank log.entries e := by
  obtain ⟨later, hentries⟩ := h.behind
  have hcount := hs'.count_le_one e
  rw [hentries] at hcount ⊢
  exact rank_of_mem_older hcount he

theorem opens_eq (hs : log.Sound) : log'.opens m = log.entries.length + 1 := by
  obtain ⟨later, hentries⟩ := h.behind
  have hold : Entry.start m ∉ log.entries := fun hmem => absurd (hs.known _ hmem) (Nat.not_lt.2 h.fresh)
  rw [opens, hentries, rank_append_of_notMem (hs'.notMem_of_entries hentries).1, rank_cons_self]

/-- In front of the marker are the old starts. -/
theorem opens_lt_iff (hs : log.Sound) (hx : .start x ∈ log'.entries) :
    log'.opens x < log'.opens m ↔ .start x ∈ log.entries := by
  rw [h.opens_eq hs' hs]
  constructor
  · intro hlt
    refine Classical.byContradiction fun hold => ?_
    obtain ⟨later, hentries⟩ := h.behind
    rw [hentries] at hx
    have := lt_rank_of_notMem_older hold hx
    rw [opens, hentries] at hlt
    omega
  · intro hold
    have hle := rank_le_length log.entries (.start x)
    rw [opens, h.rank_eq hs' hold]
    omega

end

/-- The marker itself is exposed. -/
theorem exposed_self (h : Behind m log log') (hs : log.Sound) (hs' : log'.Sound) :
    log'.Exposed m where
  start := by
    obtain ⟨later, hentries⟩ := h.behind
    simp [hentries]
  nodes y hy hlt := by
    have hmem := hs'.start_mem_of_committed hy
    have hold := (h.opens_lt_iff hs' hs hmem).1 hlt
    have hy' := h.committed_of_committed (hs.known _ hold) hy
    have hcommit : .commit y ∈ log.entries := hs.commit_mem_of_committed hy'
    have hle := log.commits_le y
    rw [commits, h.rank_eq hs' hcommit, h.opens_eq hs' hs]
    exact Nat.lt_succ_of_le hle
  opened o ho := by
    have ho' := h.opened_of_opened ho
    have hmem := hs'.start_mem_of_opened ho
    exact (h.opens_lt_iff hs' hs hmem).2 (hs.start_mem_of_opened ho')

/-- With the marker forgotten nothing has changed below. -/
theorem onTop (h : Behind m log log') (hs : log.Sound) (hs' : log'.Sound) : OnTop log log' where
  toSettled := h.toSettled
  below o later older _ he := by
    obtain ⟨more, hentries⟩ := h.behind
    exact ⟨more ++ .start m :: later, by rw [hentries, he, List.append_assoc]; rfl⟩
  exposed x hx hexposed hx' := by
    have hstart := hexposed.start
    have hopens : log'.opens x = log.opens x := h.rank_eq hs' hstart
    refine ⟨?_, fun y hy hlt => ?_, fun o ho => ?_⟩
    · exact hs'.start_mem_of_committed hx'
    · have hmem := hs'.start_mem_of_committed hy
      have hm := h.opens_eq hs' hs
      have hle := log.opens_le x
      have hold := (h.opens_lt_iff hs' hs hmem).1 (by omega)
      have hy' := h.committed_of_committed (hs.known _ hold) hy
      have hcommit : .commit y ∈ log.entries := hs.commit_mem_of_committed hy'
      have hcommits : log'.commits y = log.commits y := h.rank_eq hs' hcommit
      have hopensy : log'.opens y = log.opens y := h.rank_eq hs' hold
      rw [hcommits, hopens]
      refine hexposed.nodes y hy' ?_
      omega
    · have ho' := h.opened_of_opened ho
      have hopenso : log'.opens o = log.opens o := h.rank_eq hs' (hs.start_mem_of_opened ho')
      rw [hopenso, hopens]
      exact hexposed.opened o ho'

/-- More is done behind the marker. -/
theorem next (h : Behind m log log₁) (h' : Behind m' log₁ log')
    (hsize : log.markers.size ≤ log₁.markers.size) : Behind m log log' where
  toSettled := h.toSettled.trans h'.toSettled hsize
  fresh := h.fresh
  behind := by
    obtain ⟨later, he⟩ := h.behind
    obtain ⟨later', he'⟩ := h'.behind
    exact ⟨later' ++ .start m' :: later, by rw [he', he, List.append_assoc]; rfl⟩

end Behind

namespace OnTop

theorem refl (h : log.Laminar) : OnTop log log where
  laminar := h
  stage _ _ := .inl rfl
  closed _ hx ho := absurd (number_lt_of_stage? ho) (Nat.not_lt.2 hx)
  below _ later _ _ he := ⟨later, he⟩
  exposed _ _ hx _ := hx

theorem trans (h : OnTop log log₁) (h' : OnTop log₁ log')
    (hsize : log.markers.size ≤ log₁.markers.size) : OnTop log log' where
  toSettled := h.toSettled.trans h'.toSettled hsize
  below o later older ho he := by
    obtain ⟨later₁, he₁⟩ := h.below o later older ho he
    have ho₁ := (h.opened_iff (number_lt_of_stage? ho)).2 ho
    exact h'.below o later₁ older ho₁ he₁
  exposed x hx hexposed hx' := by
    have hlt := Nat.lt_of_lt_of_le (number_lt_of_stage? hx) hsize
    have hx₁ := h'.committed_of_committed hlt hx'
    exact h'.exposed x hx₁ (h.exposed x hx hexposed hx₁) hx'

/-- The latest marker is committed or dropped after more was done behind it. -/
theorem behind (h : OnTop (log.openAt p).2 log₁) (hlaminar : log'.Laminar)
    (hentries : log₁.entries <:+ log'.entries) (hstage : ∀ x, x ≠ log.fresh →
      log'.stage? x = log₁.stage? x) (hclosed : log'.stage? log.fresh ≠ some .opened) :
    Behind log.fresh log log' where
  laminar := hlaminar
  stage x hx := by
    have hne : x ≠ log.fresh := by
      rintro rfl
      exact Nat.lt_irrefl _ hx
    have hlt : x.number < (log.openAt p).2.markers.size := by
      rw [size_openAt]
      omega
    have hold := h.stage x hlt
    rw [stage?_openAt, if_neg hne] at hold
    rw [hstage x hne]
    exact hold
  closed x hx := by
    by_cases hne : x = log.fresh
    · exact hne ▸ hclosed
    · rw [hstage x hne]
      refine h.closed x ?_
      have hne' : x.number ≠ log.markers.size := fun hn => hne (Marker.number_inj.1 hn)
      rw [size_openAt]
      omega
  fresh := Nat.le_refl _
  behind := by
    have hopen : (log.openAt p).2.stage? log.fresh = some .opened := by
      rw [stage?_openAt, if_pos rfl]
    obtain ⟨later, he⟩ := h.below log.fresh [] log.entries hopen rfl
    obtain ⟨more, hmore⟩ := hentries
    exact ⟨more ++ later, by rw [← hmore, he, List.append_assoc]⟩

end OnTop

/-! ## Rolling back -/

theorem Exposed.congr (h : log.Exposed x) (hentries : log'.entries = log.entries)
    (hstage : ∀ y stage, stage = .opened ∨ stage = .committed → log'.stage? y = some stage →
      log.stage? y = some stage) : log'.Exposed x := by
  have hopens (y : Marker) : log'.opens y = log.opens y := by rw [opens, hentries, opens]
  have hcommits (y : Marker) : log'.commits y = log.commits y := by rw [commits, hentries, commits]
  refine ⟨hentries ▸ h.start, fun y hy => ?_, fun o ho => ?_⟩
  · rw [hopens, hopens, hcommits]
    exact h.nodes y (hstage y _ (.inr rfl) hy)
  · rw [hopens, hopens]
    exact h.opened o (hstage o _ (.inl rfl) ho)

theorem Laminar.congr (h : log.Laminar) (hentries : log'.entries = log.entries)
    (hstage : ∀ y stage, stage = .opened ∨ stage = .committed → log'.stage? y = some stage →
      log.stage? y = some stage) : log'.Laminar := by
  have hopens (y : Marker) : log'.opens y = log.opens y := by rw [opens, hentries, opens]
  have hcommits (y : Marker) : log'.commits y = log.commits y := by rw [commits, hentries, commits]
  refine ⟨fun x y hx hy => ?_, fun x o hx ho => ?_, fun o o' ho ho' => ?_⟩
  · rw [hopens, hopens, hcommits, hcommits]
    exact h.nodes x y (hstage x _ (.inr rfl) hx) (hstage y _ (.inr rfl) hy)
  · rw [hopens, hopens, hcommits]
    exact h.across x o (hstage x _ (.inr rfl) hx) (hstage o _ (.inl rfl) ho)
  · rw [hopens, hopens]
    exact h.order o o' (hstage o _ (.inl rfl) ho) (hstage o' _ (.inl rfl) ho')

/-- Old markers are at the stages they were at. -/
theorem stage?_rollback (h : OnTop (log.openAt p).2 log₁) (hs : log.Sound) (hs₁ : log₁.Sound)
    (hr : log₁.rollback log.fresh = some (q, log')) :
    log'.entries = log.entries ∧ ∀ x, x.number < log.markers.size →
      log'.stage? x = log.stage? x := by
  have hs' := hs₁.rollback hr
  obtain ⟨hmem, -, hl⟩ := rollback_eq_some_iff.1 hr
  have hopen : (log.openAt p).2.stage? log.fresh = some .opened := by rw [stage?_openAt, if_pos rfl]
  obtain ⟨later, he⟩ := h.below log.fresh [] log.entries hopen rfl
  obtain ⟨later', hnot, he'⟩ := entries_unwind log₁.markers hmem
  have hlater : .start log.fresh ∉ later := (hs₁.notMem_of_entries he).1
  have hentries : log'.entries = log.entries := by
    rw [hl, he] at he'
    obtain ⟨-, -, heq⟩ := (List.append_cons_inj_of_notMem hlater hs.start_fresh_notMem).1 he'
    exact heq.symm
  refine ⟨hentries, fun x hx => ?_⟩
  have hne : x ≠ log.fresh := by
    rintro rfl
    exact Nat.lt_irrefl _ hx
  have hstage := h.stage x (by rw [size_openAt]; omega)
  rw [stage?_openAt, if_neg hne] at hstage
  have hhistory : log'.history x = log.history x := by rw [history, hentries, history]
  have hsome : ∃ stage, log.stage? x = some stage := by
    rw [stage?, info?, Array.getElem?_eq_getElem hx]
    exact ⟨_, rfl⟩
  obtain ⟨stage, hold⟩ := hsome
  obtain ⟨info, hi, rfl⟩ := Option.map_eq_some_iff.1 hold
  have hlife := hs.life hi
  by_cases hone : log.history x = [.start x]
  · -- then nothing was recorded about it since
    rw [hone] at hlife
    have hsame : log₁.stage? x = log.stage? x := by
      refine hstage.resolve_right ?_
      rintro ⟨hc, -⟩
      rw [← isCommitted_iff_stage?, hs.isCommitted_iff, hone] at hc
      cases hc
    obtain ⟨info₁, hi₁, hs₁'⟩ := Option.map_eq_some_iff.1 (hsame.trans hold)
    have hhistory₁ : log₁.history x = later.filter (·.marker = x) ++ [.start x] := by
      rw [history, he, List.filter_append, List.filter_cons, ← hone]
      simp [Entry.marker, hne.symm, history]
    have hshort : later.filter (·.marker = x) = [] := by
      rcases (hs₁.life hi₁).eq_of_single hlife hs₁' with h | h
      · rw [hhistory₁] at h
        simpa using h
      · rw [hhistory₁] at h
        simp at h
    have hnone : ∀ e ∈ later, e.marker ≠ x := by
      simpa [List.filter_eq_nil_iff] using hshort
    have hkept : log'.info? x = log₁.info? x := by
      rw [← hl, he, info?_unwind_of_ne hne.symm hnone hlater, info?]
    rw [← hsame, stage?, hkept, stage?]
  · have hlt : x.number < log'.markers.size := by
      rw [← hl, size_unwind]
      rcases hstage with hsame | ⟨-, hd⟩
      · exact number_lt_of_stage? (hsame.trans hold)
      · exact number_lt_of_stage? hd
    obtain ⟨info', hi'⟩ : ∃ info', log'.info? x = some info' :=
      ⟨_, Array.getElem?_eq_getElem hlt⟩
    rw [stage?, stage?, hi, hi']
    exact congrArg some (hlife.stage_eq (hhistory ▸ hs'.life hi') hone)

/-- With the latest marker taken back nothing has changed. -/
theorem OnTop.rollback (h : OnTop (log.openAt p).2 log₁) (hlog : log.Laminar) (hs : log.Sound)
    (hs₁ : log₁.Sound) (hr : log₁.rollback log.fresh = some (q, log')) : OnTop log log' := by
  have hs' := hs₁.rollback hr
  obtain ⟨hentries, hold⟩ := stage?_rollback h hs hs₁ hr
  -- new markers have no entry left
  have hnew (x : Marker) {stage : MarkerStage} (hlive : stage = .opened ∨ stage = .committed)
      (hx : log'.stage? x = some stage) : x.number < log.markers.size := by
    have hmem : .start x ∈ log'.entries := by
      rcases hlive with rfl | rfl
      · exact hs'.start_mem_of_opened hx
      · exact hs'.start_mem_of_committed hx
    rw [hentries] at hmem
    exact hs.known _ hmem
  have hback (x : Marker) (stage : MarkerStage) (hlive : stage = .opened ∨ stage = .committed)
      (hx : log'.stage? x = some stage) : log.stage? x = some stage :=
    hold x (hnew x hlive hx) ▸ hx
  refine ⟨⟨hlog.congr hentries hback, fun x hx => .inl (hold x hx), fun x hx ho => ?_⟩, ?_, ?_⟩
  · exact absurd (hnew x (.inl rfl) ho) (Nat.not_lt.2 hx)
  · intro o later older _ he
    exact ⟨later, hentries.trans he⟩
  · intro x _ hexposed _
    exact hexposed.congr hentries hback

/-! ## Nodes around others -/

theorem Behind.enclose (h : Behind m log log₁) (hs : log.Sound) (hs₁ : log₁.Sound) (kind : Kind)
    (error : Option SyntaxError) (p : Nat) :
    Behind log₁.fresh log (log₁.enclose m kind error p) := by
  obtain ⟨later, he⟩ := h.behind
  have hmem : .start m ∈ log₁.entries := by simp [he]
  have hknown := hs₁.known _ hmem
  have hsize : log.markers.size ≤ log₁.markers.size :=
    Nat.le_trans h.fresh (Nat.le_of_lt hknown)
  have hstage (x : Marker) := stage?_enclose log₁ m x kind error p
  refine ⟨⟨h.laminar.enclose hs₁ (h.exposed_self hs hs₁) kind error p, fun x hx => ?_,
    fun x hx => ?_⟩, hsize, ?_⟩
  · have hne : x ≠ log₁.fresh := by
      rintro rfl
      exact Nat.lt_irrefl _ (Nat.lt_of_lt_of_le hx hsize)
    rw [hstage, if_neg hne]
    exact h.stage x hx
  · rw [hstage]
    split
    · exact fun h => by cases h
    · exact h.closed x hx
  · rw [entries_enclose, he, insertStart_append (hs₁.notMem_of_entries he).1]
    exact ⟨.commit log₁.fresh :: (later ++ [.start m]), by simp⟩

/-! ## Dropping and widening nodes -/

theorem OnTop.drop (h : log.Laminar) (hm : log.stage? m = some .committed) :
    OnTop log (log.drop m) where
  laminar := h.drop m
  stage x _ := by
    by_cases hx : m = x
    · subst hx
      exact .inr ⟨hm, stage?_drop_self (.inr hm)⟩
    · exact .inl (stage?_drop_of_ne hx)
  closed x hx ho := by
    have ho := stage?_of_drop (by decide) ho
    exact absurd (number_lt_of_stage? ho) (Nat.not_lt.2 hx)
  below o later older _ he := by
    rcases entries_drop log m with hd | ⟨prior, hd⟩
    · exact ⟨later, hd.trans he⟩
    · exact ⟨.drop m prior :: later, by rw [hd, he]; rfl⟩
  exposed x _ hx _ := by
    refine ⟨(suffix_entries_drop log m).subset hx.start, fun y hy => ?_, fun o ho => ?_⟩
    · rw [opens_drop, opens_drop, commits_drop]
      exact hx.nodes y (stage?_of_drop (by decide) hy)
    · rw [opens_drop, opens_drop]
      exact hx.opened o (stage?_of_drop (by decide) ho)

/-- A node that may be widened is exposed, and no node is committed after it. -/
theorem exposed_of_lastWidenable? (h : log.Laminar) (hs : log.Sound)
    (hx : log.lastWidenable? = some x) :
    log.Exposed x ∧ ∀ y, log.stage? y = some .committed → log.commits y ≤ log.commits x := by
  have hcommitted := isCommitted_iff_stage?.1 (isCommitted_of_lastWidenable? hx)
  have hfind : log.entries.find? log.counts = some (.commit x) := by
    unfold lastWidenable? at hx
    split at hx
    · next y hfind => rw [hfind, Option.some.inj hx]
    · cases hx
  obtain ⟨hcounts, later, older, he, hlater⟩ := List.find?_eq_some_iff_append.1 hfind
  have hnot (e : Entry) (hc : log.counts e = true) : e ∉ later := fun hmem => by
    simpa [hc] using hlater e hmem
  have hlast : log.commits x = older.length + 1 := by
    rw [commits, he, rank_append_of_notMem (hnot _ hcounts), rank_cons_self]
  have hnodes (y : Marker) (hy : log.stage? y = some .committed) :
      log.commits y ≤ log.commits x := by
    have hcy : log.counts (.commit y) = true := isCommitted_iff_stage?.2 hy
    rw [hlast, commits, he, rank_append_of_notMem (hnot _ hcy)]
    exact rank_le_length (.commit x :: older) (.commit y)
  refine ⟨⟨hs.start_mem_of_committed hcommitted, fun y hy hlt => ?_, fun o ho => ?_⟩, hnodes⟩
  · have hle := hnodes y hy
    exact (h.nodes y x hy hcommitted hlt).resolve_right (Nat.not_lt.2 hle)
  · have hco : log.counts (.start o) = true := by simp [counts, ho]
    have hle : log.opens o ≤ older.length := by
      rw [opens, he, rank_append_of_notMem (hnot _ hco), rank_cons_of_ne _ Entry.noConfusion]
      exact rank_le_length ..
    -- otherwise the node would reach across the start of an open marker
    rcases Nat.lt_trichotomy (log.opens o) (log.opens x) with hlt | heq | hlt
    · exact hlt
    · rw [opens_inj (hs.start_mem_of_opened ho) heq, hcommitted] at ho
      cases ho
    · have := h.across x o hcommitted ho hlt
      omega

section
variable (hx : log₁.Exposed x) (kind : Kind) (error : Option SyntaxError) (p : Nat)
include hx

/-- Widening an exposed node changes nothing below the open markers. -/
theorem below_enclose {o : Marker} {later older : List Entry} (hs₁ : log₁.Sound)
    (ho : log₁.stage? o = some .opened) (he : log₁.entries = later ++ .start o :: older) :
    ∃ later', (log₁.enclose x kind error p).entries = later' ++ .start o :: older := by
  have hlt := hx.opened o ho
  have hmem := hx.start
  have hcount := hs₁.count_le_one (.start x)
  rw [opens, opens, he] at hlt
  rw [he] at hmem hcount
  have hlater : .start x ∈ later := by
    rcases List.mem_append.1 hmem with hmem | hmem
    · exact hmem
    · rcases List.mem_cons.1 hmem with hox | hmem
      · rw [hox] at hlt
        exact absurd hlt (Nat.lt_irrefl _)
      · have hnot : .start o ∉ older := (hs₁.notMem_of_entries he).2
        have hle := rank_le_length older (.start x)
        have hlt' : older.length < rank (later ++ .start o :: older) (.start o) :=
          lt_rank_of_notMem_older hnot (by simp)
        rw [rank_of_mem_older hcount hmem] at hlt
        omega
  obtain ⟨a, b, rfl, hnot⟩ := List.eq_append_cons_of_mem hlater
  rw [entries_enclose, he, List.append_assoc, List.cons_append, insertStart_append hnot]
  exact ⟨.commit log₁.fresh :: (a ++ .start x :: .start log₁.fresh :: b), by simp⟩

/-- A node that starts in front of another one stays exposed when that one is widened. -/
theorem Exposed.widen {z : Marker} (hs₁ : log₁.Sound) (hz : log₁.Exposed z)
    (hzf : z.number < log₁.markers.size) (hlt : log₁.opens z < log₁.opens x) :
    ((log₁.enclose x kind error p).drop x).Exposed z := by
  have hopens {y : Marker} := @opens_enclose log₁ x y kind error p hx.start
  have hcommits {y : Marker} := @commits_enclose log₁ x y kind error p hx.start
  have hfresh := opens_enclose_fresh kind error p hx.start hs₁
  have hzne : z ≠ log₁.fresh := by
    rintro rfl
    exact Nat.lt_irrefl _ hzf
  have hopensz : (log₁.enclose x kind error p).opens z = log₁.opens z := by
    rw [hopens hzne, if_neg (by omega)]
  refine ⟨?_, fun y hy hyz => ?_, fun o ho => ?_⟩
  · refine (suffix_entries_drop _ x).subset ?_
    rw [entries_enclose]
    exact List.mem_cons_of_mem _ (mem_insertStart.2 (.inr hz.start))
  · have hy := stage?_of_drop (by decide) hy
    rw [opens_drop, opens_drop, hopensz] at hyz
    rw [opens_drop, commits_drop, hopensz]
    rw [stage?_enclose] at hy
    by_cases hyf : y = log₁.fresh
    · rw [hyf, hfresh] at hyz
      omega
    · rw [if_neg hyf] at hy
      rw [hopens hyf] at hyz
      rw [hcommits hyf]
      have hnode := hz.nodes y hy
      grind
  · have ho := stage?_of_drop (by decide) ho
    rw [stage?_enclose] at ho
    split at ho
    · cases ho
    · next hof =>
      have hoz := hz.opened o ho
      rw [opens_drop, opens_drop, hopensz, hopens hof, if_neg (by omega)]
      exact hoz

end

/-- A node is widened over what was done since it was committed last. -/
theorem OnTop.widen (h : OnTop log log₁) (hlog : log.Laminar) (hs : log.Sound)
    (hc : log.Continues log₁) (hx : log.lastWidenable? = some x)
    (hx₁ : log₁.stage? x = some .committed) (kind : Kind) (error : Option SyntaxError) (p : Nat) :
    OnTop log ((log₁.enclose x kind error p).drop x) := by
  obtain ⟨hexposed, hlast⟩ := exposed_of_lastWidenable? hlog hs hx
  have hcommitted := isCommitted_iff_stage?.1 (isCommitted_of_lastWidenable? hx)
  have hexposed₁ := h.exposed x hcommitted hexposed hx₁
  have hstage (y : Marker) := stage?_enclose log₁ x y kind error p
  have hold (y : Marker) (hy : y.number < log.markers.size) : y ≠ log₁.fresh := by
    rintro rfl
    exact Nat.lt_irrefl _ (Nat.lt_of_lt_of_le hy hc.size)
  refine ⟨⟨(h.laminar.enclose hc.sound hexposed₁ kind error p).drop x, fun y hy => ?_,
    fun y hy ho => ?_⟩, fun o later older ho he => ?_, fun z hz hz' hkept => ?_⟩
  · have hxy : (log₁.enclose x kind error p).stage? y = log₁.stage? y := by
      rw [hstage, if_neg (hold y hy)]
    by_cases hne : x = y
    · subst hne
      exact .inr ⟨hcommitted, stage?_drop_self (.inr (hxy.trans hx₁))⟩
    · rw [stage?_drop_of_ne hne, hxy]
      exact h.stage y hy
  · have ho := stage?_of_drop (by decide) ho
    rw [hstage] at ho
    split at ho
    · cases ho
    · exact h.closed y hy ho
  · obtain ⟨later₁, he₁⟩ := h.below o later older ho he
    have ho₁ := (h.opened_iff (number_lt_of_stage? ho)).2 ho
    obtain ⟨later₂, he₂⟩ := below_enclose hexposed₁ kind error p hc.sound ho₁ he₁
    obtain ⟨more, hmore⟩ := suffix_entries_drop (log₁.enclose x kind error p) x
    exact ⟨more ++ later₂, by rw [← hmore, he₂, List.append_assoc]⟩
  · have hzx : z ≠ x := by
      rintro rfl
      have hxz : (log₁.enclose z kind error p).stage? z = log₁.stage? z := by
        rw [hstage, if_neg (hold z (number_lt_of_stage? hz))]
      rw [stage?_drop_self (.inr (hxz.trans hx₁))] at hkept
      cases hkept
    have hz₁ : log₁.stage? z = some .committed := by
      have hkept := stage?_of_drop (by decide) hkept
      rwa [hstage, if_neg (hold z (number_lt_of_stage? hz))] at hkept
    refine Exposed.widen hexposed₁ kind error p hc.sound (h.exposed z hz hz' hz₁)
      (number_lt_of_stage? hz₁) ?_
    -- the other node was committed last, so it cannot be around this one
    refine (hc.rank_lt_iff (hs.start_mem_of_committed hz)
      (hs.start_mem_of_committed hcommitted)).2 ?_
    rcases Nat.lt_trichotomy (log.opens z) (log.opens x) with hlt | heq | hlt
    · exact hlt
    · exact absurd (opens_inj (hs.start_mem_of_committed hz) heq) hzx
    · have hxz := hz'.nodes x hcommitted hlt
      have hzc := (hs.opens_lt_commits hz).2
      have hle := hlast z hz
      omega

end MarkerLog

end Descent
