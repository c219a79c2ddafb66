import Descent.MarkerLog

/-!
# The history of a marker

What the log has about one marker, apart from all others, is one of six short lists (`Life`), and
with it goes the stage the marker is at. A log in which this holds of every marker, and which
names allocated markers only, is `Sound`. Every operation keeps a log sound, in whatever order they
come; undoing the latest entry does so too, which is all that rolling back consists of.

In a sound log the stage `committed` can be read off the entries alone
(`Sound.isCommitted_iff`).
-/

namespace Descent

theorem Marker.number_inj {a b : Marker} : a.number = b.number ↔ a = b := by
  cases a; cases b; simp

namespace Entry

/-- The marker an entry is about. -/
def marker : Entry → Marker
  | start m => m
  | commit m => m
  | drop m _ => m

/-- The stage that undoing an entry puts its marker at. -/
def stageBefore : Entry → MarkerStage
  | start _ => .rolledBack
  | commit _ => .rolledBack
  | drop _ prior => prior

theorem undo_eq (ms : Array MarkerInfo) (e : Entry) :
    e.undo ms = setStage ms e.marker e.stageBefore := by
  cases e <;> rfl

end Entry

theorem setStage_get (ms : Array MarkerInfo) (m : Marker) (stage : MarkerStage) (i : Nat) :
    (setStage ms m stage)[i]? =
      if m.number = i then ms[i]?.map ({ · with stage }) else ms[i]? := by
  simp [setStage, Array.getElem?_modify]

@[simp] theorem size_setStage (ms : Array MarkerInfo) (m : Marker) (stage : MarkerStage) :
    (setStage ms m stage).size = ms.size := by
  simp [setStage]

@[simp] theorem Entry.size_undo (ms : Array MarkerInfo) (e : Entry) :
    (e.undo ms).size = ms.size := by
  simp [undo_eq]

/-- `Life m info h`: a marker `m` of which `info` is known has the entries `h`, the latest first. -/
inductive Life (m : Marker) : MarkerInfo → List Entry → Prop where
  | opened (p : Nat) : Life m { start := p, stop := p } [.start m]
  | committed {start stop : Nat} {kind : Kind} {error : Option SyntaxError} (h : start ≤ stop) :
    Life m ⟨start, stop, some kind, error, .committed⟩ [.commit m, .start m]
  | droppedOpened (p : Nat) :
    Life m { start := p, stop := p, stage := .dropped } [.drop m .opened, .start m]
  | droppedCommitted {start stop : Nat} {kind : Kind} {error : Option SyntaxError}
    (h : start ≤ stop) :
    Life m ⟨start, stop, some kind, error, .dropped⟩ [.drop m .committed, .commit m, .start m]
  /-- The commitment was taken back, the start was not. -/
  | uncommitted {start stop : Nat} {kind : Option Kind} {error : Option SyntaxError}
    (h : start ≤ stop) : Life m ⟨start, stop, kind, error, .rolledBack⟩ [.start m]
  | erased {start stop : Nat} {kind : Option Kind} {error : Option SyntaxError}
    (h : start ≤ stop) : Life m ⟨start, stop, kind, error, .rolledBack⟩ []

namespace Life

variable {m : Marker} {info : MarkerInfo} {h : List Entry} {e : Entry}

/-- Undoing the latest entry of a marker leaves one of the six lists. -/
theorem undo (l : Life m info (e :: h)) : Life m { info with stage := e.stageBefore } h := by
  cases l with
  | opened p => exact .erased (Nat.le_refl p)
  | committed h => exact .uncommitted h
  | droppedOpened p => exact .opened p
  | droppedCommitted h => exact .committed h
  | uncommitted h => exact .erased h

/-- Of an open marker nothing but its start is known. -/
theorem of_opened (l : Life m info h) (hs : info.stage = .opened) :
    h = [.start m] ∧ info = { start := info.start, stop := info.start } := by
  cases l <;> first | exact ⟨rfl, rfl⟩ | cases hs

theorem of_committed (l : Life m info h) (hs : info.stage = .committed) :
    h = [.commit m, .start m] ∧ info.start ≤ info.stop ∧ info.kind.isSome = true := by
  cases l <;> first | exact ⟨rfl, ‹_›, rfl⟩ | cases hs

theorem drop (l : Life m info h) (hs : info.stage = .opened ∨ info.stage = .committed) :
    Life m { info with stage := .dropped } (.drop m info.stage :: h) := by
  cases l with
  | opened p => exact .droppedOpened p
  | committed h => exact .droppedCommitted h
  | _ => simp at hs

/-- No other stage than `committed` goes with the entries of a committed marker. -/
theorem committed_iff (l : Life m info h) :
    info.stage = .committed ↔ h = [.commit m, .start m] := by
  cases l <;> simp

/-- But for a start alone, which an open marker has and one whose commitment was taken back, the
entries of a marker tell its stage. -/
theorem stage_eq {info' : MarkerInfo} (l : Life m info h) (l' : Life m info' h)
    (hne : h ≠ [.start m]) : info'.stage = info.stage := by
  cases l <;> cases l' <;> simp_all

/-- A marker at a stage that goes with a start alone has no other entry. -/
theorem eq_of_single {info' : MarkerInfo} {h' : List Entry} (l' : Life m info' h')
    (l : Life m info [.start m]) (hs : info'.stage = info.stage) : h' = [.start m] ∨ h' = [] := by
  cases l <;> cases l' <;> simp_all

/-- No entry is repeated. -/
theorem nodup (l : Life m info h) : h.Nodup := by
  cases l <;> simp

end Life

namespace MarkerLog

/-- The entries of a marker, the latest first. -/
def history (log : MarkerLog) (m : Marker) : List Entry :=
  log.entries.filter (·.marker = m)

/-- Every marker has one of the six lives, and every entry an allocated marker. -/
structure Sound (log : MarkerLog) : Prop where
  life : ∀ {m : Marker} {info : MarkerInfo}, log.info? m = some info →
    Life m info (log.history m)
  known : ∀ e ∈ log.entries, e.marker.number < log.markers.size

variable {log : MarkerLog} {m x : Marker} {info : MarkerInfo}

theorem isCommitted_iff_stage? :
    log.isCommitted m = true ↔ log.stage? m = some .committed := by
  simp [isCommitted]

theorem info?_eq_none_iff : log.info? m = none ↔ log.markers.size ≤ m.number := by
  simp [info?]

theorem lt_size_of_info? (h : log.info? m = some info) : m.number < log.markers.size :=
  (Array.getElem?_eq_some_iff.1 h).1

theorem isCommitted_iff :
    log.isCommitted m = true ↔ ∃ info, log.info? m = some info ∧ info.stage = .committed := by
  cases h : log.info? m <;> simp [isCommitted, stage?, h]

theorem stage_of_isCommitted (h : log.isCommitted m = true) (hi : log.info? m = some info) :
    info.stage = .committed := by
  obtain ⟨info', hi', hs⟩ := isCommitted_iff.1 h
  obtain rfl := Option.some.inj (hi.symm.trans hi')
  exact hs

theorem history_cons (ms ms' : Array MarkerInfo) (e : Entry) (es : List Entry) (m : Marker) :
    history ⟨ms, e :: es⟩ m =
      if e.marker = m then e :: history ⟨ms', es⟩ m else history ⟨ms', es⟩ m := by
  simp [history, List.filter_cons]

theorem mem_history {e : Entry} : e ∈ log.history m ↔ e ∈ log.entries ∧ e.marker = m := by
  simp [history]

theorem isStarted_iff : log.isStarted m = true ↔ .start m ∈ log.entries := by
  simp [isStarted]

namespace Sound

/-- Nothing is recorded of a marker that was not allocated. -/
theorem history_eq_nil (h : log.Sound) (hm : log.markers.size ≤ m.number) :
    log.history m = [] := by
  refine List.filter_eq_nil_iff.2 fun e he hx => ?_
  have hlt := h.known e he
  rw [of_decide_eq_true hx] at hlt
  omega

theorem count_entries (log : MarkerLog) (e : Entry) :
    log.entries.count e = (log.history e.marker).count e := by
  rw [history, List.count_filter (by simp)]

/-- Every entry is there once. -/
theorem count_le_one (h : log.Sound) (e : Entry) : log.entries.count e ≤ 1 := by
  rw [count_entries]
  cases hi : log.info? e.marker with
  | none => simp [h.history_eq_nil (info?_eq_none_iff.1 hi)]
  | some info => exact List.nodup_iff_count.1 (h.life hi).nodup e

/-- So it is neither above its place nor below. -/
theorem notMem_of_entries (h : log.Sound) {later older : List Entry} {e : Entry}
    (hes : log.entries = later ++ e :: older) : e ∉ later ∧ e ∉ older := by
  have hcount := h.count_le_one e
  rw [hes, List.count_append, List.count_cons_self] at hcount
  simp only [← List.count_eq_zero]
  omega

theorem notMem_older (h : log.Sound) {later older : List Entry} {e e' : Entry}
    (hes : log.entries = later ++ e :: older) (he' : e' ∈ later) : e' ∉ older := by
  intro hold
  have hcount := h.count_le_one e'
  have hlate := List.count_pos_iff.2 he'
  have hearly := List.count_pos_iff.2 hold
  rw [hes, List.count_append, List.count_cons] at hcount
  omega

/-- A marker is committed exactly if its commitment is the latest the log has about it. -/
theorem isCommitted_iff (h : log.Sound) :
    log.isCommitted m = true ↔ log.history m = [.commit m, .start m] := by
  cases hi : log.info? m with
  | none => simp [isCommitted, stage?, hi, h.history_eq_nil (info?_eq_none_iff.1 hi)]
  | some info => simp [isCommitted, stage?, hi, (h.life hi).committed_iff]

theorem start_mem_of_opened (h : log.Sound) (hm : log.stage? m = some .opened) :
    .start m ∈ log.entries := by
  obtain ⟨info, hi, hs⟩ := Option.map_eq_some_iff.1 hm
  have hmem : .start m ∈ log.history m := by simp [((h.life hi).of_opened hs).1]
  exact (mem_history.1 hmem).1

theorem start_mem_of_committed (h : log.Sound) (hm : log.stage? m = some .committed) :
    .start m ∈ log.entries := by
  have hmem : .start m ∈ log.history m := by
    simp [h.isCommitted_iff.1 (isCommitted_iff_stage?.2 hm)]
  exact (mem_history.1 hmem).1

theorem commit_mem_of_committed (h : log.Sound) (hm : log.stage? m = some .committed) :
    .commit m ∈ log.entries := by
  have hmem : .commit m ∈ log.history m := by
    simp [h.isCommitted_iff.1 (isCommitted_iff_stage?.2 hm)]
  exact (mem_history.1 hmem).1

/-! ## What the operations keep -/

theorem empty : Sound {} where
  life h := by simp [info?] at h
  known := by simp

theorem undo {ms : Array MarkerInfo} {e : Entry} {es : List Entry} (h : Sound ⟨ms, e :: es⟩) :
    Sound ⟨e.undo ms, es⟩ where
  life {x info} hx := by
    rw [info?, Entry.undo_eq, setStage_get] at hx
    split at hx
    · next hm =>
      obtain rfl := Marker.number_inj.1 hm
      obtain ⟨old, ho, rfl⟩ := Option.map_eq_some_iff.1 hx
      have hl := h.life (m := e.marker) ho
      rw [history_cons ms (e.undo ms), if_pos rfl] at hl
      exact hl.undo
    · next hm =>
      have hl := h.life (m := x) hx
      rwa [history_cons ms (e.undo ms), if_neg (fun hx => hm (congrArg _ hx))] at hl
  known e' he' := by
    simpa using h.known e' (List.mem_cons_of_mem _ he')

theorem unwind {ms : Array MarkerInfo} {es : List Entry} (h : Sound ⟨ms, es⟩) (m : Marker) :
    (MarkerLog.unwind m ms es).Sound := by
  induction es generalizing ms with
  | nil => exact h
  | cons e es ih =>
    rw [MarkerLog.unwind]
    split
    · exact h.undo
    · exact ih h.undo

theorem rollback {p : Nat} {log' : MarkerLog} (h : log.Sound)
    (hr : log.rollback m = some (p, log')) : log'.Sound := by
  unfold MarkerLog.rollback at hr
  split at hr
  · cases hr
  · split at hr
    · cases hr
      exact h.unwind m
    · cases hr

theorem openAt (h : log.Sound) (p : Nat) : (log.openAt p).2.Sound where
  life {x info} hx := by
    simp only [MarkerLog.openAt, info?, Array.getElem?_push] at hx ⊢
    rw [history_cons _ log.markers]
    split at hx
    · next hn =>
      obtain rfl : x = log.fresh := Marker.number_inj.1 hn
      cases hx
      rw [if_pos (show (Entry.start log.fresh).marker = log.fresh from rfl),
        h.history_eq_nil (m := log.fresh) (Nat.le_refl _)]
      exact .opened p
    · next hn =>
      rw [if_neg (show (Entry.start log.fresh).marker ≠ x by rintro rfl; exact hn rfl)]
      exact h.life hx
  known e he := by
    simp only [MarkerLog.openAt, List.mem_cons, Array.size_push] at he ⊢
    rcases he with rfl | he
    · exact Nat.lt_succ_self _
    · exact Nat.lt_succ_of_lt (h.known e he)

/-- Only the marker that is committed, dropped or put at another stage changes. -/
theorem entry {ms : Array MarkerInfo} {e : Entry} (h : log.Sound)
    (hsize : ms.size = log.markers.size)
    (hother : ∀ i, e.marker.number ≠ i → ms[i]? = log.markers[i]?)
    (hthis : ∀ info, ms[e.marker.number]? = some info →
      Life e.marker info (e :: log.history e.marker))
    (hknown : e.marker.number < log.markers.size) : Sound ⟨ms, e :: log.entries⟩ where
  life {x info} hx := by
    rw [history_cons _ log.markers]
    split
    · next hm => subst hm; exact hthis info hx
    · next hm =>
      refine h.life ?_
      rw [← hx]
      exact (hother _ fun hn => hm (Marker.number_inj.1 hn)).symm
  known e' he' := by
    simp only [List.mem_cons, hsize] at he' ⊢
    rcases he' with rfl | he'
    · exact hknown
    · exact h.known e' he'

theorem commit (h : log.Sound) (m : Marker) (kind : Kind) (error : Option SyntaxError) (p : Nat) :
    (log.commit m kind error p).Sound := by
  unfold MarkerLog.commit
  split
  · next hs =>
    obtain ⟨info, hi, hs⟩ := Option.map_eq_some_iff.1 hs
    have hhist := ((h.life hi).of_opened hs).1
    refine h.entry (e := .commit m) (by simp) (fun i hi => ?_) (fun info' hi' => ?_) ?_
    · simp [Array.getElem?_modify, show m.number ≠ i from hi]
    · simp only [Entry.marker, Array.getElem?_modify, if_true] at hi'
      obtain ⟨_, -, rfl⟩ := Option.map_eq_some_iff.1 hi'
      simp only [Entry.marker, hhist]
      exact .committed (Nat.le_max_right ..)
    · exact lt_size_of_info? hi
  · exact h

theorem drop (h : log.Sound) (m : Marker) : (log.drop m).Sound := by
  have key (info : MarkerInfo) (hi : log.info? m = some info)
      (hs : info.stage = .opened ∨ info.stage = .committed) :
      Sound ⟨setStage log.markers m .dropped, .drop m info.stage :: log.entries⟩ := by
    refine h.entry (e := .drop m info.stage) (by simp) (fun i hi => ?_) (fun info' hi' => ?_) ?_
    · rw [setStage_get, if_neg (show m.number ≠ i from hi)]
    · simp only [Entry.marker, setStage_get, if_true] at hi'
      obtain ⟨_, hthis, rfl⟩ := Option.map_eq_some_iff.1 hi'
      obtain rfl := Option.some.inj (hi.symm.trans hthis)
      exact (h.life hi).drop hs
    · exact lt_size_of_info? hi
  unfold MarkerLog.drop
  split
  · next hs =>
    obtain ⟨info, hi, hs⟩ := Option.map_eq_some_iff.1 hs
    exact hs ▸ key info hi (.inl hs)
  · next hs =>
    obtain ⟨info, hi, hs⟩ := Option.map_eq_some_iff.1 hs
    exact hs ▸ key info hi (.inr hs)
  · exact h

end Sound

/-! ## Start entries put in the middle -/

/-- A start entry is put right behind that of the given marker, seen from the latest entry, or on
top if there is none. -/
theorem insertStart_cases (m new : Marker) (es : List Entry) :
    (.start m ∉ es ∧ insertStart m new es = .start new :: es) ∨
      ∃ later older, .start m ∉ later ∧ es = later ++ .start m :: older ∧
        insertStart m new es = later ++ .start m :: .start new :: older := by
  have key : (.start m ∉ es ∧ insertStart.go m new es = none) ∨
      ∃ later older, .start m ∉ later ∧ es = later ++ .start m :: older ∧
        insertStart.go m new es = some (later ++ .start m :: .start new :: older) := by
    induction es with
    | nil => exact .inl ⟨by simp, rfl⟩
    | cons e es ih =>
      by_cases he : e = .start m
      · exact .inr ⟨[], es, by simp, by simp [he], by simp [insertStart.go, he]⟩
      · rcases ih with ⟨hn, hgo⟩ | ⟨later, older, hn, hes, hgo⟩
        · exact .inl ⟨by simp [hn, Ne.symm he], by simp [insertStart.go, he, hgo]⟩
        · exact .inr ⟨e :: later, older, by simp [hn, Ne.symm he], by simp [hes],
            by simp [insertStart.go, he, hgo]⟩
  rcases key with ⟨hn, hgo⟩ | ⟨later, older, hn, hes, hgo⟩
  · exact .inl ⟨hn, by simp [insertStart, hgo]⟩
  · exact .inr ⟨later, older, hn, hes, by simp [insertStart, hgo]⟩

/-- The new entry goes behind the latest start of the marker. -/
theorem insertStart_append {m : Marker} {later : List Entry} (h : .start m ∉ later) (new : Marker)
    (older : List Entry) : insertStart m new (later ++ .start m :: older) =
      later ++ .start m :: .start new :: older := by
  have hgo : insertStart.go m new (later ++ .start m :: older) =
      some (later ++ .start m :: .start new :: older) := by
    induction later with
    | nil => simp [insertStart.go]
    | cons e later ih =>
      obtain ⟨he, hl⟩ := not_or.1 (mt List.mem_cons.2 h)
      simp [insertStart.go, Ne.symm he, ih hl]
  simp [insertStart, hgo]

theorem Sound.entries_wrap (h : log.Sound) {later older : List Entry}
    (hes : log.entries = later ++ .start m :: older) :
    (log.wrap m).2.entries = later ++ .start m :: .start log.fresh :: older := by
  rw [← insertStart_append (h.notMem_of_entries hes).1, ← hes]
  rfl

theorem mem_insertStart {m new : Marker} {es : List Entry} {e : Entry} :
    e ∈ insertStart m new es ↔ e = .start new ∨ e ∈ es := by
  rcases insertStart_cases m new es with ⟨-, h⟩ | ⟨later, older, -, hes, h⟩
  · rw [h, List.mem_cons]
  · rw [h, hes]
    simp only [List.mem_append, List.mem_cons, or_left_comm]

/-- Seen without the new entry nothing has changed. -/
theorem filter_insertStart (m new : Marker) (es : List Entry) (q : Entry → Bool)
    (hq : q (.start new) = false) : (insertStart m new es).filter q = es.filter q := by
  rcases insertStart_cases m new es with ⟨-, h⟩ | ⟨later, older, -, hes, h⟩
  · simp [h, hq]
  · rw [h, hes]
    simp [List.filter_cons, hq]

/-- What only the new entry passes finds it and nothing else. -/
theorem filter_insertStart_new (m new : Marker) (es : List Entry) (q : Entry → Bool)
    (hq : q (.start new) = true) (hes : es.filter q = []) :
    (insertStart m new es).filter q = [.start new] := by
  rcases insertStart_cases m new es with ⟨-, h⟩ | ⟨later, older, -, rfl, h⟩
  · simp [h, hq, hes]
  · rw [h]
    simp only [List.filter_append, List.filter_cons, List.append_eq_nil_iff] at hes ⊢
    split at hes
    · simp at hes
    · next hm => simp [hm, hq, hes]

theorem Sound.wrap (h : log.Sound) (m : Marker) : (log.wrap m).2.Sound where
  life {x info} hx := by
    simp only [MarkerLog.wrap, info?, Array.getElem?_push, history] at hx ⊢
    split at hx
    · next hn =>
      obtain rfl : x = log.fresh := Marker.number_inj.1 hn
      cases hx
      rw [filter_insertStart_new _ _ _ _ (by simp [Entry.marker])
        (h.history_eq_nil (m := log.fresh) (Nat.le_refl _))]
      exact .opened _
    · next hn =>
      rw [filter_insertStart _ _ _ _ (decide_eq_false (by rintro rfl; exact hn rfl))]
      exact h.life hx
  known e he := by
    simp only [MarkerLog.wrap, mem_insertStart, Array.size_push] at he ⊢
    rcases he with rfl | he
    · exact Nat.lt_succ_self _
    · exact Nat.lt_succ_of_lt (h.known e he)

/-! ## What the operations leave alone -/

@[simp] theorem size_openAt (log : MarkerLog) (p : Nat) :
    (log.openAt p).2.markers.size = log.markers.size + 1 := by
  simp [openAt]

@[simp] theorem size_wrap (log : MarkerLog) (m : Marker) :
    (log.wrap m).2.markers.size = log.markers.size + 1 := by
  simp [wrap]

@[simp] theorem size_commit (log : MarkerLog) (m : Marker) (kind : Kind)
    (error : Option SyntaxError) (p : Nat) :
    (log.commit m kind error p).markers.size = log.markers.size := by
  unfold commit
  split <;> simp

@[simp] theorem size_drop (log : MarkerLog) (m : Marker) :
    (log.drop m).markers.size = log.markers.size := by
  unfold drop
  split <;> simp

@[simp] theorem size_unwind (m : Marker) (ms : Array MarkerInfo) (es : List Entry) :
    (unwind m ms es).markers.size = ms.size := by
  induction es generalizing ms with
  | nil => rfl
  | cons e es ih =>
    rw [unwind]
    split
    · exact e.size_undo ms
    · rw [ih, Entry.size_undo]

/-- Committing and dropping record on top of what is there. -/
theorem suffix_entries_commit (log : MarkerLog) (m : Marker) (kind : Kind)
    (error : Option SyntaxError) (p : Nat) :
    log.entries <:+ (log.commit m kind error p).entries := by
  unfold commit
  split
  · exact List.suffix_cons _ _
  · exact List.suffix_refl _

theorem entries_drop (log : MarkerLog) (m : Marker) : (log.drop m).entries = log.entries ∨
    ∃ prior, (log.drop m).entries = .drop m prior :: log.entries := by
  unfold drop
  split
  · exact .inr ⟨_, rfl⟩
  · exact .inr ⟨_, rfl⟩
  · exact .inl rfl

theorem suffix_entries_drop (log : MarkerLog) (m : Marker) :
    log.entries <:+ (log.drop m).entries := by
  rcases entries_drop log m with he | ⟨prior, he⟩
  · exact he ▸ List.suffix_refl _
  · exact he ▸ List.suffix_cons _ _

theorem info?_openAt (h : log.info? m = some info) (p : Nat) :
    (log.openAt p).2.info? m = some info := by
  have hlt := lt_size_of_info? h
  simp only [openAt, info?, Array.getElem?_push, if_neg (Nat.ne_of_lt hlt)]
  exact h

theorem info?_wrap (h : log.info? m = some info) (x : Marker) :
    (log.wrap x).2.info? m = some info := by
  have hlt := lt_size_of_info? h
  simp only [wrap, info?, Array.getElem?_push, if_neg (Nat.ne_of_lt hlt)]
  exact h

/-- Committing changes the node of an open marker only, and its start not even then. -/
theorem info?_commit (h : log.info? m = some info) (x : Marker) (kind : Kind)
    (error : Option SyntaxError) (p : Nat) :
    ∃ info', (log.commit x kind error p).info? m = some info' ∧ info'.start = info.start ∧
      (info.stage ≠ .opened → info' = info) := by
  unfold commit
  split
  · next hs =>
    simp only [info?, Array.getElem?_modify]
    split
    · next hm =>
      obtain rfl := Marker.number_inj.1 hm
      rw [stage?, h] at hs
      exact ⟨_, congrArg (Option.map _) h, rfl, fun hne => absurd (Option.some.inj hs) hne⟩
    · exact ⟨info, h, rfl, fun _ => rfl⟩
  · exact ⟨info, h, rfl, fun _ => rfl⟩

theorem info?_setStage {ms : Array MarkerInfo} (h : ms[m.number]? = some info) (x : Marker)
    (stage : MarkerStage) :
    ∃ stage', (setStage ms x stage)[m.number]? = some { info with stage := stage' } := by
  rw [setStage_get]
  split
  · exact ⟨stage, by rw [h]; rfl⟩
  · exact ⟨info.stage, h⟩

theorem info?_drop (h : log.info? m = some info) (x : Marker) :
    ∃ stage, (log.drop x).info? m = some { info with stage } := by
  unfold drop
  split
  · exact info?_setStage h x _
  · exact info?_setStage h x _
  · exact ⟨info.stage, h⟩

theorem info?_unwind {ms : Array MarkerInfo} (h : ms[m.number]? = some info) (es : List Entry)
    (x : Marker) : ∃ stage, (unwind x ms es).info? m = some { info with stage } := by
  induction es generalizing ms info with
  | nil => exact ⟨info.stage, h⟩
  | cons e es ih =>
    obtain ⟨stage, hs⟩ := info?_setStage h e.marker e.stageBefore
    rw [unwind, Entry.undo_eq]
    split
    · exact ⟨stage, hs⟩
    · have hrest := ih hs
      exact hrest

/-- Rolling back leaves the entries below the start of the marker. -/
theorem entries_unwind (ms : Array MarkerInfo) {es : List Entry} (h : .start m ∈ es) :
    ∃ later, .start m ∉ later ∧ es = later ++ .start m :: (unwind m ms es).entries := by
  induction es generalizing ms with
  | nil => cases h
  | cons e es ih =>
    rw [unwind]
    split
    · next he => exact ⟨[], by simp, by simp [he]⟩
    · next he =>
      obtain ⟨later, hn, hes⟩ := ih (e.undo ms) ((List.mem_cons.1 h).resolve_left (Ne.symm he))
      exact ⟨e :: later, by simp [hn, Ne.symm he], congrArg (e :: ·) hes⟩

theorem rollback_eq_some_iff {p : Nat} {log' : MarkerLog} :
    log.rollback m = some (p, log') ↔ .start m ∈ log.entries ∧
      (∃ info, log.info? m = some info ∧ info.start = p) ∧ unwind m log.markers log.entries = log' := by
  unfold rollback
  cases log.info? m with
  | none => simp
  | some info => simp [isStarted]

end MarkerLog

end Descent
