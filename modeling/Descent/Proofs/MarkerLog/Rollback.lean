import Descent.Proofs.MarkerLog.Steps
import Descent.Proofs.Tree.Brackets

/-!
# Rolling back is exact

`Since old p log` describes the logs that steps make out of `old` once a marker was opened at `p`, as
long as that marker is there. Below its start they have the entries of `old`, with nothing but
start entries put in between, and the nodes `old` had committed were at most moved to other stages.
Stages follow from entries, so taking back everything above brings the nodes of `old` back as they
were (`Session.rollback_restores`).
-/

namespace Descent

namespace MarkerLog

variable {old log : MarkerLog} {p : Nat}

/-- `log` was made from `old` by steps that came after a marker was opened at `p`, and kept it. -/
structure Since (old : MarkerLog) (p : Nat) (log : MarkerLog) : Prop where
  sound : log.Sound
  split : ∃ later older, log.entries = later ++ .start old.fresh :: older ∧
    older.filter (·.marker.number < old.markers.size) = old.entries ∧
    ∀ e ∈ older, old.markers.size ≤ e.marker.number → e = .start e.marker
  opened : ∃ info, log.info? old.fresh = some info ∧ info.start = p
  nodes : ∀ x info, old.info? x = some info → info.stage = .committed →
    ∃ stage, log.info? x = some { info with stage }

namespace Since

theorem intro (h : old.Sound) (p : Nat) : Since old p (old.openAt p).2 where
  sound := h.openAt p
  split := ⟨[], old.entries, rfl, List.filter_eq_self.2 fun e he => decide_eq_true (h.known e he),
    fun e he hge => absurd (h.known e he) (Nat.not_lt.2 hge)⟩
  opened := ⟨{ start := p, stop := p }, by simp [openAt, info?, fresh], rfl⟩
  nodes x info hx _ := ⟨info.stage, info?_openAt hx p⟩

theorem size_lt (h : Since old p log) : old.markers.size < log.markers.size := by
  obtain ⟨info, hi, -⟩ := h.opened
  exact lt_size_of_info? hi

/-- The marker has no other start than the one its entries are divided at. -/
theorem start_unique (h : Since old p log) {later older : List Entry}
    (hs : log.entries = later ++ .start old.fresh :: older) :
    .start old.fresh ∉ later ∧ .start old.fresh ∉ older :=
  h.sound.notMem_of_entries hs

/-- A step that records something on top and moves nodes to other stages at most. -/
theorem push (h : Since old p log) {log' : MarkerLog} (e : Entry) (hsound : log'.Sound)
    (hentries : log'.entries = log.entries ∨ log'.entries = e :: log.entries)
    (hopened : ∀ info, log.info? old.fresh = some info →
      ∃ info', log'.info? old.fresh = some info' ∧ info'.start = info.start)
    (hnodes : ∀ x info, old.info? x = some info → info.stage = .committed →
      ∃ stage, log'.info? x = some { info with stage }) : Since old p log' where
  sound := hsound
  split := by
    obtain ⟨later, older, hs, hold, hnew⟩ := h.split
    rcases hentries with he | he
    · exact ⟨later, older, he.trans hs, hold, hnew⟩
    · exact ⟨e :: later, older, he.trans (congrArg (e :: ·) hs), hold, hnew⟩
  opened := by
    obtain ⟨info, hi, rfl⟩ := h.opened
    exact hopened info hi
  nodes := hnodes

theorem openAt (h : Since old p log) (q : Nat) : Since old p (log.openAt q).2 :=
  h.push (.start log.fresh) (h.sound.openAt q) (.inr rfl)
    (fun info hi => ⟨info, info?_openAt hi q, rfl⟩)
    fun x info hx hc => by
      obtain ⟨stage, hs⟩ := h.nodes x info hx hc
      exact ⟨stage, info?_openAt hs q⟩

/-- The nodes of `old` were committed before, so they are not open. -/
theorem not_opened (h : Since old p log) (hold : old.Sound) {x : Marker} {info info' : MarkerInfo}
    (hx : old.info? x = some info) (hc : info.stage = .committed) (hi : log.info? x = some info') :
    info'.stage ≠ .opened := by
  intro ho
  obtain ⟨later, older, hs, hfilter, -⟩ := h.split
  have hcommit : .commit x ∈ old.entries :=
    (mem_history.1 (((hold.life hx).of_committed hc).1 ▸ List.mem_cons_self)).1
  rw [← hfilter] at hcommit
  have hmem : .commit x ∈ log.history x := mem_history.2 ⟨by
    rw [hs]
    exact List.mem_append_right _ (List.mem_cons_of_mem _ (List.mem_filter.1 hcommit).1), rfl⟩
  simp [((h.sound.life hi).of_opened ho).1] at hmem

theorem commit (h : Since old p log) (hold : old.Sound) (m : Marker) (kind : Kind)
    (error : Option SyntaxError) (q : Nat) : Since old p (log.commit m kind error q) := by
  refine h.push (.commit m) (h.sound.commit m kind error q) ?_ (fun info hi => ?_)
    fun x info hx hc => ?_
  · unfold MarkerLog.commit
    split
    · exact .inr rfl
    · exact .inl rfl
  · obtain ⟨info', hi', hstart, -⟩ := info?_commit hi m kind error q
    exact ⟨info', hi', hstart⟩
  · obtain ⟨stage, hs⟩ := h.nodes x info hx hc
    obtain ⟨info', hi', -, hsame⟩ := info?_commit hs m kind error q
    exact ⟨stage, by rw [hi', hsame (h.not_opened hold hx hc hs)]⟩

theorem drop (h : Since old p log) (m : Marker) : Since old p (log.drop m) := by
  refine h.push (.drop m ((log.stage? m).getD .opened)) (h.sound.drop m) ?_ (fun info hi => ?_)
    fun x info hx hc => ?_
  · unfold MarkerLog.drop
    split
    · next hs => exact .inr (by rw [hs]; rfl)
    · next hs => exact .inr (by rw [hs]; rfl)
    · exact .inl rfl
  · obtain ⟨stage, hs⟩ := info?_drop hi m
    exact ⟨_, hs, rfl⟩
  · obtain ⟨stage, hs⟩ := h.nodes x info hx hc
    exact info?_drop hs m

/-- A new start may land above the marker, right below it, or among the old entries. -/
theorem wrap (h : Since old p log) (m : Marker) : Since old p (log.wrap m).2 where
  sound := h.sound.wrap m
  split := by
    have hlt := h.size_lt
    have hge : ¬ log.fresh.number < old.markers.size := Nat.not_lt.2 (Nat.le_of_lt hlt)
    have hkeep {older : List Entry} (hold : older.filter (·.marker.number < old.markers.size) =
        old.entries) (hnew : ∀ e ∈ older, old.markers.size ≤ e.marker.number → e = .start e.marker)
        {es : List Entry} (hes : es = .start log.fresh :: older ∨
          ∃ a b, older = a ++ .start m :: b ∧ es = a ++ .start m :: .start log.fresh :: b) :
        es.filter (·.marker.number < old.markers.size) = old.entries ∧
          ∀ e ∈ es, old.markers.size ≤ e.marker.number → e = .start e.marker := by
      rcases hes with rfl | ⟨a, b, rfl, rfl⟩
      · refine ⟨by simpa [Entry.marker, hge] using hold, fun e he => ?_⟩
        rcases List.mem_cons.1 he with rfl | he
        · exact fun _ => rfl
        · exact hnew e he
      · refine ⟨by simpa [List.filter_cons, Entry.marker, hge] using hold, fun e he => ?_⟩
        by_cases hx : e = .start log.fresh
        · exact fun _ => hx ▸ rfl
        · refine hnew e ?_
          simp only [List.mem_append, List.mem_cons] at he ⊢
          rcases he with he | he | he | he
          · exact .inl he
          · exact .inr (.inl he)
          · exact absurd he hx
          · exact .inr (.inr he)
    obtain ⟨later, older, hs, hold, hnew⟩ := h.split
    rcases insertStart_cases m log.fresh log.entries with ⟨-, hi⟩ | ⟨a, b, -, hab, hi⟩
    · exact ⟨.start log.fresh :: later, older, hi.trans (congrArg _ hs), hold, hnew⟩
    · rw [hs] at hab
      rcases List.append_eq_append_iff.1 hab with ⟨as, rfl, hb⟩ | ⟨bs, rfl, hb⟩
      · cases as with
        | nil =>
          obtain ⟨hm, rfl⟩ := List.cons.inj hb
          obtain ⟨h1, h2⟩ := hkeep hold hnew (.inl rfl)
          exact ⟨later, .start log.fresh :: older, hi.trans (by simp [hm]), h1, h2⟩
        | cons e as =>
          obtain ⟨rfl, rfl⟩ := List.cons.inj hb
          obtain ⟨h1, h2⟩ := hkeep hold hnew (.inr ⟨as, b, rfl, rfl⟩)
          exact ⟨later, as ++ .start m :: .start log.fresh :: b, hi.trans (by simp), h1, h2⟩
      · cases bs with
        | nil =>
          obtain ⟨hm, rfl⟩ := List.cons.inj hb
          obtain ⟨h1, h2⟩ := hkeep hold hnew (.inl rfl)
          exact ⟨a, .start log.fresh :: b, hi.trans (by simp [hm]), h1, h2⟩
        | cons e bs =>
          obtain ⟨rfl, rfl⟩ := List.cons.inj hb
          exact ⟨a ++ .start m :: .start log.fresh :: bs, older, hi.trans (by simp), hold, hnew⟩
  opened := by
    obtain ⟨info, hi, hp⟩ := h.opened
    exact ⟨info, info?_wrap hi m, hp⟩
  nodes x info hx hc := by
    obtain ⟨stage, hs⟩ := h.nodes x info hx hc
    exact ⟨stage, info?_wrap hs m⟩

/-- Rolling back to another marker takes back entries above the marker only, or else the marker is
gone. -/
theorem rollback (h : Since old p log) {m : Marker} {q : Nat} {log' : MarkerLog}
    (hr : log.rollback m = some (q, log')) (hkept : .start old.fresh ∈ log'.entries) :
    Since old p log' := by
  have hsound := h.sound.rollback hr
  obtain ⟨hm, -, hl⟩ := rollback_eq_some_iff.1 hr
  refine ⟨hsound, ?_, ?_, fun x info hx hc => ?_⟩
  · obtain ⟨a, -, hab⟩ := entries_unwind log.markers hm
    obtain ⟨later, older, hs, hold, hnew⟩ := h.split
    obtain ⟨hlater, holder⟩ := h.start_unique hs
    rw [hl, hs] at hab
    rcases List.append_eq_append_iff.1 hab with ⟨as, -, hb⟩ | ⟨bs, rfl, hb⟩
    · cases as with
      | nil => exact absurd ((List.cons.inj hb).2.symm ▸ hkept) holder
      | cons e as =>
        refine absurd ?_ holder
        rw [(List.cons.inj hb).2]
        exact List.mem_append_right _ (List.mem_cons_of_mem _ hkept)
    · cases bs with
      | nil => exact absurd ((List.cons.inj hb).2 ▸ hkept) holder
      | cons e bs => exact ⟨bs, older, (List.cons.inj hb).2, hold, hnew⟩
  · obtain ⟨info, hi, hp⟩ := h.opened
    obtain ⟨stage, hs⟩ := info?_unwind hi log.entries m
    exact ⟨{ info with stage }, hl ▸ hs, hp⟩
  · obtain ⟨stage, hs⟩ := h.nodes x info hx hc
    have hu := info?_unwind hs log.entries m
    rw [← hl]
    exact hu

/-- The marker can be rolled back to. -/
theorem exists_rollback (h : Since old p log) : ∃ q log', log.rollback old.fresh = some (q, log') := by
  obtain ⟨info, hi, -⟩ := h.opened
  obtain ⟨later, older, hs, -⟩ := h.split
  have hmem : .start old.fresh ∈ log.entries := by simp [hs]
  exact ⟨info.start, _, rollback_eq_some_iff.2 ⟨hmem, ⟨info, hi, rfl⟩, rfl⟩⟩

/-- With the marker gone the position is the one it was opened at, and what is left are the old
entries, with new start entries put in between. -/
theorem entries_rollback (h : Since old p log) {q : Nat} {log' : MarkerLog}
    (hr : log.rollback old.fresh = some (q, log')) :
    q = p ∧ log'.entries.filter (·.marker.number < old.markers.size) = old.entries ∧
      ∀ e ∈ log'.entries, old.markers.size ≤ e.marker.number → e = .start e.marker := by
  obtain ⟨hm, ⟨info, hi, hq⟩, hl⟩ := rollback_eq_some_iff.1 hr
  obtain ⟨info', hi', hp⟩ := h.opened
  obtain ⟨later, older, hs, hfilter, hnew⟩ := h.split
  obtain ⟨hlater, -⟩ := h.start_unique hs
  have hentries : log'.entries = older := by
    obtain ⟨a, ha, hab⟩ := entries_unwind log.markers hm
    rw [hl, hs] at hab
    rcases List.append_eq_append_iff.1 hab with ⟨as, rfl, hb⟩ | ⟨bs, rfl, hb⟩
    · cases as with
      | nil => exact (List.cons.inj hb).2.symm
      | cons e as => exact absurd (by simp [(List.cons.inj hb).1]) ha
    · cases bs with
      | nil => exact (List.cons.inj hb).2
      | cons e bs => exact absurd (by simp [(List.cons.inj hb).1]) hlater
  refine ⟨?_, hentries ▸ hfilter, hentries ▸ hnew⟩
  rw [← hq, ← hp, Option.some.inj (hi.symm.trans hi')]

/-- With the marker gone everything is as it was before it was opened. -/
theorem restore (h : Since old p log) (hold : old.Sound) {q : Nat} {log' : MarkerLog}
    (hr : log.rollback old.fresh = some (q, log')) :
    q = p ∧ log'.brackets = old.brackets ∧
      ∀ x, old.isCommitted x = true → log'.info? x = old.info? x := by
  have hsound := h.sound.rollback hr
  obtain ⟨hq, hfilter, hnew⟩ := h.entries_rollback hr
  have hl := (rollback_eq_some_iff.1 hr).2.2
  -- what is committed shows in the entries, and the entries about old markers are the old ones
  have hcommitted (x : Marker) : log'.isCommitted x =
      (decide (x.number < old.markers.size) && old.isCommitted x) := by
    by_cases hx : x.number < old.markers.size
    · have hhist : log'.history x = old.history x := by
        rw [history, history, ← hfilter, List.filter_filter]
        refine List.filter_congr fun e _ => ?_
        by_cases he : e.marker = x <;> simp [he, hx]
      simp [Bool.eq_iff_iff, hx, hsound.isCommitted_iff, hold.isCommitted_iff, hhist]
    · simp only [hx, decide_false, Bool.false_and, Bool.eq_false_iff, ne_eq,
        hsound.isCommitted_iff]
      intro hhist
      have hmem : .commit x ∈ log'.history x := by simp [hhist]
      have hc := hnew (.commit x) (mem_history.1 hmem).1 (Nat.not_lt.1 hx)
      cases hc
  refine ⟨hq, ?_, fun x hx => ?_⟩
  · rw [brackets, brackets, ← hfilter, ← List.filter_reverse, List.filter_filter]
    refine List.filter_congr fun e _ => ?_
    cases e with
    | start x => exact (hcommitted x).trans (Bool.and_comm ..)
    | commit x => exact (hcommitted x).trans (Bool.and_comm ..)
    | drop x prior => simp [shapes]
  · obtain ⟨info, hi, hc⟩ := isCommitted_iff.1 hx
    have hlt := lt_size_of_info? hi
    obtain ⟨stage, hstage⟩ := h.nodes x info hi hc
    obtain ⟨stage', hlast⟩ := info?_unwind hstage log.entries old.fresh
    rw [hl] at hlast
    have hx' : log'.isCommitted x = true := by simp [hcommitted, hlt, hx]
    obtain ⟨_, hthis, hc'⟩ := isCommitted_iff.1 hx'
    obtain rfl := Option.some.inj (hlast.symm.trans hthis)
    obtain rfl : stage' = .committed := hc'
    rw [hlast, hi, ← hc]

end Since

/-- A marker that is gone does not come back. -/
theorem start_mem_of_step {s : Session} {m : Marker} (hm : m.number < s.log.markers.size)
    (step : MarkerStep) (h : .start m ∈ (step.run s).log.entries) : .start m ∈ s.log.entries := by
  have hfresh : m ≠ s.log.fresh := by
    rintro rfl
    exact Nat.lt_irrefl _ hm
  cases step with
  | seek q => exact h
  | openAt q => exact (List.mem_cons.1 h).resolve_left fun he => hfresh (Entry.start.inj he)
  | commit x kind error =>
    simp only [MarkerStep.run, Session.log_commit, commit] at h
    split at h
    · exact (List.mem_cons.1 h).resolve_left Entry.noConfusion
    · exact h
  | drop x =>
    simp only [MarkerStep.run, Session.log_drop, drop] at h
    split at h
    · exact (List.mem_cons.1 h).resolve_left Entry.noConfusion
    · exact (List.mem_cons.1 h).resolve_left Entry.noConfusion
    · exact h
  | wrap x =>
    simp only [MarkerStep.run, Session.log_wrap, wrap, mem_insertStart] at h
    exact h.resolve_left fun he => hfresh (Entry.start.inj he)
  | rollback x =>
    simp only [MarkerStep.run] at h
    rcases s.log_rollback x with he | ⟨q, he⟩
    · exact he ▸ h
    · obtain ⟨hx, -, hl⟩ := rollback_eq_some_iff.1 he
      obtain ⟨later, -, hs⟩ := entries_unwind s.log.markers hx
      rw [hs, hl]
      exact List.mem_append_right _ (List.mem_cons_of_mem _ h)

theorem Since.step {old : MarkerLog} {p : Nat} {s : Session} (h : Since old p s.log)
    (hold : old.Sound) (step : MarkerStep)
    (hkept : .start old.fresh ∈ (step.run s).log.entries) : Since old p (step.run s).log := by
  cases step with
  | seek q => exact h
  | openAt q => exact h.openAt q
  | commit x kind error => simpa [MarkerStep.run] using h.commit hold x kind error _
  | drop x => simpa [MarkerStep.run] using h.drop x
  | wrap x => simpa [MarkerStep.run] using h.wrap x
  | rollback x =>
    rcases s.log_rollback x with he | ⟨q, he⟩
    · simpa [MarkerStep.run, he] using h
    · exact h.rollback he hkept

theorem start_mem_of_runSteps {s : Session} {m : Marker} {steps : List MarkerStep}
    (hm : m.number < s.log.markers.size) (h : .start m ∈ (s.runSteps steps).log.entries) :
    .start m ∈ s.log.entries := by
  induction steps generalizing s with
  | nil => exact h
  | cons step steps ih =>
    exact start_mem_of_step hm step (ih (Nat.lt_of_lt_of_le hm (s.size_markers_le_step step)) h)

theorem Since.runSteps {old : MarkerLog} {p : Nat} {s : Session} {steps : List MarkerStep}
    (h : Since old p s.log) (hold : old.Sound)
    (hkept : .start old.fresh ∈ (s.runSteps steps).log.entries) :
    Since old p (s.runSteps steps).log := by
  induction steps generalizing s with
  | nil => exact h
  | cons step steps ih =>
    have hlt := Nat.lt_of_lt_of_le h.size_lt (s.size_markers_le_step step)
    exact ih (h.step hold step (start_mem_of_runSteps hlt hkept)) hkept

end MarkerLog

namespace Session

/-- Rolling back to a marker `m` that was opened at `p` undoes all steps since, unless one of them
has erased `m`: the position is `p` again, the committed nodes are those from before, and so is
the tree. -/
theorem rollback_restores {s s₁ : Session} {p : Nat} (steps : List MarkerStep)
    (hs : s.log.Reachable) (hopen : s₁.log = (s.log.openAt p).2)
    (hkept : (s₁.runSteps steps).log.isStarted (s.log.openAt p).1 = true) :
    let s₂ := (s₁.runSteps steps).rollback (s.log.openAt p).1
    s₂.position = p ∧ s₂.log.committedNodes = s.log.committedNodes ∧
      ∀ source language root,
        s₂.log.toTree source language root = s.log.toTree source language root := by
  have hold := hs.sound
  have hmem : .start s.log.fresh ∈ (s₁.runSteps steps).log.entries :=
    MarkerLog.isStarted_iff.1 hkept
  have hsince : s.log.Since p (s₁.runSteps steps).log :=
    (hopen ▸ MarkerLog.Since.intro hold p : s.log.Since p s₁.log).runSteps hold hmem
  obtain ⟨info, hi, -⟩ := hsince.opened
  have hr : (s₁.runSteps steps).log.rollback s.log.fresh =
      some (info.start, MarkerLog.unwind s.log.fresh (s₁.runSteps steps).log.markers
        (s₁.runSteps steps).log.entries) :=
    MarkerLog.rollback_eq_some_iff.2 ⟨hmem, ⟨info, hi, rfl⟩, rfl⟩
  obtain ⟨hp, hbrackets, hinfo⟩ := hsince.restore hold hr
  have hs₂ : (s₁.runSteps steps).rollback (s.log.openAt p).1 =
      { s₁.runSteps steps with
        position := info.start
        log := MarkerLog.unwind s.log.fresh (s₁.runSteps steps).log.markers
          (s₁.runSteps steps).log.entries } := by
    rw [Session.rollback, show (s.log.openAt p).1 = s.log.fresh from rfl, hr]
  simp only [hs₂]
  exact ⟨hp, MarkerLog.committedNodes_congr hbrackets hinfo,
    MarkerLog.toTree_congr hbrackets hinfo⟩

/-- A committed node, and an open marker behind it. -/
def oneNode : Session := runSteps [.openAt 0, .seek 1, .commit ⟨0⟩ ⟨20⟩ none, .openAt 1] {}

/-- The same with one more marker, the third. -/
def oneNodeMarked : Session := { oneNode with log := (oneNode.log.openAt 2).2 }

/-- Drops the node and puts another one around it, which is committed above the third marker, as is
the second one; rolls back to a fourth one, and wraps and drops at both ends of what is left. -/
def busySteps : List MarkerStep :=
  [.drop ⟨0⟩, .wrap ⟨0⟩, .seek 4, .commit ⟨3⟩ ⟨21⟩ none, .openAt 4, .commit ⟨1⟩ ⟨22⟩ none,
    .rollback ⟨4⟩, .wrap ⟨2⟩, .drop ⟨3⟩]

theorem rollback_restores_oneNode :
    (oneNodeMarked.runSteps busySteps).log.isStarted ⟨2⟩ = true ∧
      ((oneNodeMarked.runSteps busySteps).rollback ⟨2⟩).position = 2 ∧
      ((oneNodeMarked.runSteps busySteps).rollback ⟨2⟩).log.committedNodes =
        [{ start := 0, stop := 1, kind := some ⟨20⟩, stage := .committed }] := by
  have hkept : (oneNodeMarked.runSteps busySteps).log.isStarted ⟨2⟩ = true := by decide
  obtain ⟨hposition, hnodes, -⟩ :=
    @rollback_restores oneNode oneNodeMarked 2 busySteps ⟨_, rfl⟩ rfl hkept
  exact ⟨hkept, hposition, hnodes.trans (by decide)⟩

end Session

end Descent
