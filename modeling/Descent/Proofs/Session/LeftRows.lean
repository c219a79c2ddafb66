import Descent.Proofs.Session.KeptChildren
import Descent.Proofs.Session.RecoveryNodes

/-!
# Sections in a row that take up the node before them

Sections with `left` that succeed one after another build a left comb around the node before the first one:
each of their nodes begins where that node begins and has the one before it inside, as the first thing.
Sections with `leftInner` widen that node and leave theirs inside of it, behind what it had
(`Session.left_rows`). One section of the row is taken at a time (`Session.InRow.exists_leave_left`,
`Session.InRow.exists_leave_leftInner`), and the row is an induction over them.

What is done inside the sections leaves the nodes as they are. That is not enough for the row, because a
section that is entered reports an error once more that the section around has on record further ahead: so
there must be none whenever a section of the row is entered.
-/

namespace Descent

/-- A section of a row: the kind it comes to, the position at which it was entered, and the one at which it
is left. -/
structure Pass where
  kind : Kind
  start : Nat
  stop : Nat
  deriving DecidableEq, Repr

/-- A left comb: each marker is around what comes before it. -/
def comb (es : List Entry) (ms : List Marker) : List Entry := ms.foldl (fun es m => bracketed m es) es

namespace MarkerLog

variable {log log₁ : MarkerLog} {x : Marker} {before inside : List Entry} {p q : Nat}

section
variable (h : log.Sound) (hidle : (log.openAt p).2.Idle log₁) (kind : Kind)
include h hidle

theorem info?_of_idle {y : Marker} (hy : log.isCommitted y = true) : log₁.info? y = log.info? y := by
  obtain ⟨info, hi, -⟩ := isCommitted_iff.1 hy
  have hopen := info?_openAt_of_lt (lt_size_of_info? hi) p
  rw [hidle.info? (h.openAt p) ((isCommitted_congr hopen).trans hy), hopen]

/-- The marker that was opened is dropped, and a node is put around the one that comes last. -/
theorem enclose_of_idle (hb : log.brackets = before ++ bracketed x inside) (hq : log.start x ≤ q) :
    let log' := (log₁.drop log.fresh).enclose x kind none q
    log'.Sound ∧ log'.brackets = before ++ bracketed log₁.fresh (bracketed x inside) ∧
      log'.info? log₁.fresh =
        some { start := log.start x, stop := q, kind := some kind, stage := .committed } ∧
      ∀ y, log.isCommitted y = true → log'.info? y = log.info? y := by
  have hopened : log₁.stage? log.fresh = some .opened :=
    hidle.opened _ ((stage?_openAt ..).trans (if_pos rfl))
  have hx : log.isCommitted x = true := isCommitted_of_start_mem (by rw [hb]; simp [bracketed])
  have hinfo {y : Marker} (hy : log.isCommitted y = true) :
      (log₁.drop log.fresh).info? y = log.info? y := by
    obtain ⟨info, hi, -⟩ := isCommitted_iff.1 hy
    rw [info?_drop_of_ne (fresh_ne_of_lt (lt_size_of_info? hi)), info?_of_idle h hidle hy]
  have hstart : (log₁.drop log.fresh).start x = log.start x := by rw [start, hinfo hx, start]
  have hfresh : (log₁.drop log.fresh).fresh = log₁.fresh := congrArg Marker.mk (size_drop ..)
  have hbrackets : (log₁.drop log.fresh).brackets = before ++ .start x :: (inside ++ [.commit x]) := by
    rw [brackets_drop hopened, hidle.brackets, brackets_openAt h, hb, bracketed]
  refine ⟨((hidle.sound.drop _).wrap x).commit .., ?_, ?_, fun y hy => ?_⟩
  · rw [brackets_enclose (hidle.sound.drop _) hbrackets, hfresh, bracketed, bracketed, bracketed]
  · rw [← hfresh, info?_enclose_fresh (by rwa [hstart]), hstart]
  · rw [info?_enclose_of_committed ((isCommitted_congr (hinfo hy)).trans hy), hinfo hy]

/-- The marker that was opened is committed, and the node that comes last is widened over it. -/
theorem renew_of_idle {info : MarkerInfo} (hb : log.brackets = before ++ bracketed x inside)
    (hi : log.info? x = some info) {xkind : Kind} (hkind : info.kind = some xkind)
    (hpq : p ≤ q) (hq : info.start ≤ q) :
    let log' := (log₁.commit log.fresh kind none q).renew x xkind info.error q
    log'.Sound ∧ log.fresh.number < log₁.fresh.number ∧
      log'.brackets = before ++ bracketed log₁.fresh (inside ++ bracketed log.fresh []) ∧
      log'.info? log₁.fresh = some { info with stop := q } ∧
      log'.info? log.fresh =
        some { start := p, stop := q, kind := some kind, stage := .committed } ∧
      ∀ y, y ≠ x → log.isCommitted y = true → log'.info? y = log.info? y := by
  have hx : log.isCommitted x = true := isCommitted_of_start_mem (by rw [hb]; simp [bracketed])
  have hcommit := info?_commit_fresh hidle hpq kind none
  have hsame {y : Marker} (hy : log.isCommitted y = true) :=
    info?_commit_of_idle (q := q) h hidle hy kind none
  have hbrackets := (brackets_commit h hidle kind none q).trans (congrArg (· ++ bracketed log.fresh []) hb)
  have hsound := hidle.sound.commit log.fresh kind none q
  have hfresh : (log₁.commit log.fresh kind none q).fresh = log₁.fresh :=
    congrArg Marker.mk (size_commit ..)
  have hnew : log.fresh.number < log₁.markers.size :=
    number_lt_of_stage? (hidle.opened log.fresh ((stage?_openAt ..).trans (if_pos rfl)))
  have hnewer {y : Marker} (hy : log.isCommitted y = true) : log₁.fresh ≠ y := by
    have hlt := number_lt_of_stage? (isCommitted_iff_stage?.1 hy)
    exact fresh_ne_of_lt (Nat.lt_trans hlt hnew)
  have hne {y : Marker} (hy : log.isCommitted y = true) : y ≠ log.fresh := fun he =>
    fresh_ne_of_lt (number_lt_of_stage? (isCommitted_iff_stage?.1 hy)) he.symm
  have hcommitted : info.stage = .committed := stage_of_isCommitted hx hi
  rw [List.append_assoc] at hbrackets
  refine ⟨((hsound.wrap x).commit ..).drop x, hnew, ?_, ?_, ?_, fun y hyx hy => ?_⟩
  · rw [brackets_renew_eq hsound ((isCommitted_congr (hsame hx)).trans hx) hbrackets, hfresh]
  · rw [← hfresh, info?_renew_fresh ((hsame hx).trans hi) hkind hcommitted, Nat.max_eq_left hq]
  · rw [info?_renew_of_ne (hfresh ▸ fresh_ne_of_lt hnew) (hne hx), hcommit]
  · rw [info?_renew_of_ne (hfresh ▸ hnewer hy) (Ne.symm hyx), hsame hy]

end

end MarkerLog

namespace Session

variable {g : Setup} {s s₁ s₂ s' : Session} {run : Runner} {hook : HookRunner} {rounds level : Nat}
  {modifiers : Modifiers} {early kind : Option Kind} {name : Option String} {pinned : Bool}
  {frame : Frame} {frames : List Frame} {x : Marker} {k : Kind} {before inside : List Entry}
  {pass : Pass} {passes : List Pass}

/-- Whether the innermost section has an error on record further ahead, which is reported once more when
a section is entered. -/
def errorPending (s : Session) : Bool := s.frames.head?.any (·.hasErrorAfter s.position)

theorem reportAgain_eq_self (h : s.errorPending = false) : s.reportAgain g = s := by
  unfold reportAgain
  split
  · rfl
  · split
    · rfl
    · next f fs hframes =>
      have hnone : f.hasErrorAfter s.position = false := by
        rw [errorPending, hframes] at h
        exact h
      rw [hnone]
      rfl

/-- Where no error is pending, entering a section does no more than opening its marker. -/
theorem log_enter_of_not_pending (h : s.errorPending = false) :
    (s.enter g level modifiers early name).1 = s.log.fresh ∧
      (s.enter g level modifiers early name).2.log =
        (s.log.openAt (s.enter g level modifiers early name).2.position).2 ∧
      s.position ≤ (s.enter g level modifiers early name).2.position := by
  have hentering : s.entering g = { s with level := s.level + 1 } := by
    rw [entering, reportAgain_eq_self h]
  have hposition := position_enter g level modifiers early name s
  rw [hentering] at hposition
  refine ⟨?_, ?_, ?_⟩
  · show ((s.reportAgain g).openMarker g).1 = _
    rw [reportAgain_eq_self h]
    rfl
  · rw [log_enter, hentering, hposition]
    rfl
  · rw [hposition]
    exact g.le_significant s.position

/-- A section that takes up a node takes up the one that comes last. -/
theorem leftNode_enteredFrame (hs : s.log.Sound) (h : s.errorPending = false)
    (htakes : modifiers.takesLeft = true) (hframes : s.frames ≠ [])
    (hb : s.log.brackets = before ++ Descent.bracketed x inside) :
    (s.enteredFrame g level modifiers early name).leftNode = some x := by
  have hentering : s.entering g = { s with level := s.level + 1 } := by
    rw [entering, reportAgain_eq_self h]
  have hopen : s.frames.isEmpty = false := by
    cases hf : s.frames with
    | nil => exact absurd hf hframes
    | cons f fs => rfl
  have hlast := MarkerLog.lastCommitted?_of_bracketed
    ((MarkerLog.brackets_openAt hs (g.significant s.position)).trans hb)
  rw [enteredFrame, hentering]
  show (if modifiers.takesLeft && !s.frames.isEmpty then
    (s.log.openAt (g.significant s.position)).2.lastCommitted? else none) = some x
  rw [htakes, hopen, hlast]
  rfl

/-! ## What becomes of the marker -/

/-- A section with `left` puts a node around the one it takes up. -/
theorem log_shape_left (m : Marker) (pinned : Bool) (hkind : (frame.kind <|> kind) = some k)
    (hmodifiers : frame.modifiers = { left := true }) (hleft : frame.leftNode = some x) :
    (s₁.shape g frame frames m kind true pinned).2.log =
        (s₁.log.drop m).enclose x k none s₁.position ∧
      (s₁.shape g frame frames m kind true pinned).2.position = s₁.position ∧
      Surroundings (fun _ => true) { s₁ with frames }
        (s₁.shape g frame frames m kind true pinned).2 := by
  rw [shape_of_not_looksAhead m hkind (Bool.true_or pinned) (by rw [hmodifiers]; rfl)]
  dsimp only
  rw [commitShaped_eq, absorbChild, placeNode, hmodifiers, hleft]
  simp only [Bool.false_eq_true, if_false]
  refine ⟨log_enclose x k none _, (position_commit ..).trans (position_wrap ..), ?_⟩
  have hdropped : Surroundings (fun _ => true) { s₁ with frames }
      (({ s₁ with frames }.note (.sectionLeft frame true pinned)).drop m) := .of_eq rfl rfl rfl rfl rfl
  exact (hdropped.trans (.wrap ..)).trans (.commit ..)

/-- A section with `leftInner` commits its node and widens the one it takes up. -/
theorem log_shape_leftInner {info : MarkerInfo} {xkind : Kind} (m : Marker) (pinned : Bool)
    (hkind : (frame.kind <|> kind) = some k) (hmodifiers : frame.modifiers = { leftInner := true })
    (hleft : frame.leftNode = some x)
    (hi : (s₁.log.commit m k none s₁.position).info? x = some info) (hs : info.stage = .committed)
    (hxkind : info.kind = some xkind) (herror : ∀ e, info.error = some e → xkind = .error) :
    (s₁.shape g frame frames m kind true pinned).2.log =
        (s₁.log.commit m k none s₁.position).renew x xkind info.error s₁.position ∧
      (s₁.shape g frame frames m kind true pinned).2.position = s₁.position ∧
      Surroundings (fun _ => true) { s₁ with frames }
        (s₁.shape g frame frames m kind true pinned).2 := by
  rw [shape_of_not_looksAhead m hkind (Bool.true_or pinned) (by rw [hmodifiers]; rfl)]
  generalize ht : { s₁ with frames }.note (.sectionLeft frame true pinned) = t
  have hlog : (t.commitAs m k).log = s₁.log.commit m k none s₁.position := by
    rw [← ht]
    exact log_commit ..
  have hposition : (t.commitAs m k).position = s₁.position := by
    rw [← ht]
    exact position_commit ..
  dsimp only
  rw [commitShaped_eq, absorbChild, placeNode, hmodifiers, hleft]
  simp only [Bool.false_eq_true, if_false, if_true]
  rw [← hlog] at hi
  rw [position_widen, log_widen_renew hi hs hxkind herror, hlog, hposition]
  refine ⟨rfl, rfl, Surroundings.trans ?_ ((Surroundings.commit m k none t).trans (.widen ..))⟩
  rw [← ht]
  exact .of_eq rfl rfl rfl rfl rfl

/-! ## One section of a row -/

/-- A section is about to be left as one of a row. No error was pending when it was entered in `s`. What
was done inside has passed a significant token and has left all nodes, all open markers and the frame of the
section as they were, and no hook waits. -/
structure InRow (g : Setup) (level : Nat) (modifiers : Modifiers) (early kind : Option Kind)
    (name : Option String) (pass : Pass) (frame : Frame) (frames : List Frame) (s s₁ : Session) :
    Prop where
  pending : s.errorPending = false
  idle : (s.enter g level modifiers early name).2.log.Idle s₁.log
  consumes : ∃ i, g.isTriviaAt i = false ∧ pass.start ≤ i ∧ i < pass.stop
  around : frames ≠ []
  frames : s₁.frames = frame :: frames
  becomes : (s.enteredFrame g level modifiers early name).Becomes (fun _ => true) frame
  hooks : ∀ h ∈ s₁.hooks, h.level < s₁.level
  kind : (frame.kind <|> kind) = some pass.kind
  start : (s.enter g level modifiers early name).2.position = pass.start
  stop : s₁.position = pass.stop

namespace InRow

section
variable (h : InRow g level modifiers early kind name pass frame frames s s₁)
include h

theorem start_lt_stop : s.position ≤ pass.start ∧ pass.start < pass.stop := by
  obtain ⟨i, -, hge, hlt⟩ := h.consumes
  have hle := (@log_enter_of_not_pending g s level modifiers early name h.pending).2.2
  rw [h.start] at hle
  exact ⟨hle, by omega⟩

/-- The section is left behind all that stands before it. -/
theorem le_stop {p : Nat} (hp : p ≤ s.position) : p ≤ pass.stop :=
  Nat.le_trans (Nat.le_trans hp h.start_lt_stop.1) (Nat.le_of_lt h.start_lt_stop.2)

/-- Nothing but the marker of the section has come to the log. -/
theorem idle_openAt : (s.log.openAt pass.start).2.Idle s₁.log := by
  obtain ⟨-, hlog, -⟩ := @log_enter_of_not_pending g s level modifiers early name h.pending
  rw [h.start] at hlog
  exact hlog ▸ h.idle

/-- The section can be left, and what becomes of its marker is all that happens to the log then. -/
theorem exists_leave (run : Runner) (hook : HookRunner) (rounds : Nat) {log : MarkerLog}
    (hshape : (s₁.shape g frame frames s.log.fresh kind true pinned).2.log = log ∧
      (s₁.shape g frame frames s.log.fresh kind true pinned).2.position = s₁.position ∧
      Surroundings (fun _ => true) { s₁ with frames }
        (s₁.shape g frame frames s.log.fresh kind true pinned).2)
    (hlast : log.brackets = before ++ Descent.bracketed x inside) :
    ∃ s₂, s₁.leave g run hook (rounds + 1) level (s.enter g level modifiers early name).1 kind true
        pinned none = some s₂ ∧
      s₂.log = log ∧ s₂.position = pass.stop ∧ s₂.frames ≠ [] := by
  rw [(@log_enter_of_not_pending g s level modifiers early name h.pending).1]
  obtain ⟨hlog, hposition, haround⟩ := hshape
  obtain ⟨u, hleave, hu, hstays⟩ := exists_leave_calm run hook rounds h.frames h.becomes.level rfl
    (by rw [haround.hooks, haround.level]; exact h.hooks) fun _ => by
      rw [hlog, MarkerLog.lastCommitted?_of_bracketed hlast]
      rfl
  refine ⟨u.closeLevel, hleave, hu.log.trans hlog, (hstays.trans hposition).trans h.stop, ?_⟩
  intro hnil
  have hcores := hu.frames
  rw [show u.frames = [] from hnil, List.map_nil, eq_comm, List.map_eq_nil_iff] at hcores
  have hlength := haround.frames.length_eq
  rw [hcores] at hlength
  exact h.around (List.eq_nil_of_length_eq_zero hlength)

/-- The section takes up the node that comes last. -/
theorem frame_spec (hs : s.log.Sound) (htakes : modifiers.takesLeft = true) (hframes : s.frames ≠ [])
    (hb : s.log.brackets = before ++ Descent.bracketed x inside) :
    frame.modifiers = modifiers ∧ frame.leftNode = some x := by
  have hleft := h.becomes.leftNode
  rw [leftNode_enteredFrame hs h.pending htakes hframes hb] at hleft
  exact ⟨h.becomes.modifiers, hleft⟩

end

end InRow

/-- A section with `left` that succeeds puts a node around the one that comes last, from where that begins
up to where the section is left. -/
theorem InRow.exists_leave_left (h : InRow g level { left := true } early kind name pass frame frames s s₁)
    (hs : s.log.Sound) (run : Runner) (hook : HookRunner) (rounds : Nat) (pinned : Bool)
    (hframes : s.frames ≠ []) (hb : s.log.brackets = before ++ Descent.bracketed x inside)
    (hx : s.log.start x ≤ s.position) :
    ∃ s₂ c, s₁.leave g run hook (rounds + 1) level (s.enter g level { left := true } early name).1 kind
        true pinned none = some s₂ ∧
      s₂.position = pass.stop ∧ s₂.frames ≠ [] ∧ s₂.log.Sound ∧
      s₂.log.brackets = before ++ Descent.bracketed c (Descent.bracketed x inside) ∧
      s₂.log.info? c = some
        { start := s.log.start x, stop := pass.stop, kind := some pass.kind, stage := .committed } ∧
      ∀ y, s.log.isCommitted y = true → s₂.log.info? y = s.log.info? y := by
  obtain ⟨hmodifiers, hleft⟩ := h.frame_spec hs rfl hframes hb
  have hshape := @log_shape_left g s₁ kind frame frames x pass.kind s.log.fresh pinned h.kind hmodifiers
    hleft
  obtain ⟨hsound, hbrackets, hinfo, hsame⟩ := MarkerLog.enclose_of_idle hs h.idle_openAt pass.kind hb
    (h.le_stop hx)
  rw [← h.stop] at hbrackets
  obtain ⟨s₂, hleave, hlog, hposition, hopen⟩ := h.exists_leave run hook rounds hshape hbrackets
  rw [← h.stop] at hsound hinfo hsame ⊢
  refine ⟨s₂, s₁.log.fresh, hleave, hposition.trans h.stop.symm, hopen, ?_⟩
  rw [hlog]
  exact ⟨hsound, hbrackets, hinfo, hsame⟩

/-- A section with `leftInner` that succeeds leaves its node inside the one that comes last, which then
ends where the section is left. -/
theorem InRow.exists_leave_leftInner
    (h : InRow g level { leftInner := true } early kind name pass frame frames s s₁)
    (hs : s.log.Sound) (run : Runner) (hook : HookRunner) (rounds : Nat) (pinned : Bool)
    (hframes : s.frames ≠ []) (hb : s.log.brackets = before ++ Descent.bracketed x inside) {info : MarkerInfo}
    (hi : s.log.info? x = some info) (hx : info.start ≤ s.position) {xkind : Kind}
    (hxkind : info.kind = some xkind) (herror : ∀ e, info.error = some e → xkind = .error) :
    ∃ s₂ w, s₁.leave g run hook (rounds + 1) level (s.enter g level { leftInner := true } early name).1
        kind true pinned none = some s₂ ∧
      s₂.position = pass.stop ∧ s₂.frames ≠ [] ∧ s₂.log.Sound ∧
      s.log.fresh.number < w.number ∧
      s₂.log.brackets = before ++ Descent.bracketed w (inside ++ Descent.bracketed s.log.fresh []) ∧
      s₂.log.info? w = some { info with stop := pass.stop } ∧
      s₂.log.info? s.log.fresh = some
        { start := pass.start, stop := pass.stop, kind := some pass.kind, stage := .committed } ∧
      ∀ y, y ≠ x → s.log.isCommitted y = true → s₂.log.info? y = s.log.info? y := by
  obtain ⟨hmodifiers, hleft⟩ := h.frame_spec hs rfl hframes hb
  have hcommitted : s.log.isCommitted x = true :=
    MarkerLog.isCommitted_of_start_mem (by rw [hb]; simp [Descent.bracketed])
  have hi' := (MarkerLog.info?_commit_of_idle (q := s₁.position) hs h.idle_openAt hcommitted pass.kind
    none).trans hi
  have hstage := MarkerLog.stage_of_isCommitted hcommitted hi
  have hshape := @log_shape_leftInner g s₁ kind frame frames x pass.kind info xkind s.log.fresh pinned
    h.kind hmodifiers hleft hi' hstage hxkind herror
  obtain ⟨hsound, hlt, hbrackets, hinfo, hnew, hsame⟩ := MarkerLog.renew_of_idle hs h.idle_openAt
    pass.kind hb hi hxkind (Nat.le_of_lt h.start_lt_stop.2) (h.le_stop hx)
  rw [← h.stop] at hbrackets
  obtain ⟨s₂, hleave, hlog, hposition, hopen⟩ := h.exists_leave run hook rounds hshape hbrackets
  rw [← h.stop] at hsound hinfo hnew hsame ⊢
  refine ⟨s₂, s₁.log.fresh, hleave, hposition.trans h.stop.symm, hopen, ?_⟩
  rw [hlog]
  exact ⟨hsound, hlt, hbrackets, hinfo, hnew, hsame⟩

/-! ## Rows -/

/-- Sections with the same modifiers succeed one after another, with nothing in between. -/
inductive Row (g : Setup) (run : Runner) (hook : HookRunner) (modifiers : Modifiers) :
    List Pass → Session → Session → Prop where
  | nil (s : Session) : Row g run hook modifiers [] s s
  | cons {s s₁ s₂ s' : Session} {rounds level : Nat} {early kind : Option Kind} {name : Option String}
    {pinned : Bool} {frame : Frame} {frames : List Frame} {pass : Pass} {passes : List Pass}
    (h : InRow g level modifiers early kind name pass frame frames s s₁)
    (hleave : s₁.leave g run hook (rounds + 1) level (s.enter g level modifiers early name).1 kind true
      pinned none = some s₂)
    (hrest : Row g run hook modifiers passes s₂ s') :
    Row g run hook modifiers (pass :: passes) s s'

/-- A row can go on: a section that is entered and gone through as the next one of it can be left. -/
def CanGoOn (g : Setup) (run : Runner) (hook : HookRunner) (modifiers : Modifiers) (s : Session) : Prop :=
  ∀ rounds level early kind name pinned pass frame frames s₁,
    InRow g level modifiers early kind name pass frame frames s s₁ →
      ∃ s₂, s₁.leave g run hook (rounds + 1) level (s.enter g level modifiers early name).1 kind true pinned
        none = some s₂

/-- Sections with `left` build a comb. -/
theorem Row.left (h : Row g run hook { left := true } passes s s') (hs : s.log.Sound)
    (hframes : s.frames ≠ []) (hb : s.log.brackets = before ++ Descent.bracketed x inside)
    (hx : s.log.start x ≤ s.position) :
    s'.CanGoOn g run hook { left := true } ∧
      ∃ ms, s'.log.brackets = before ++ comb (Descent.bracketed x inside) ms ∧
        ms.map s'.log.info? = passes.map (fun p => some
          { start := s.log.start x, stop := p.stop, kind := some p.kind, stage := .committed }) ∧
        ∀ y, s.log.isCommitted y = true → s'.log.info? y = s.log.info? y := by
  induction h generalizing x inside with
  | nil s =>
    refine ⟨fun rounds _ _ _ _ pinned _ _ _ _ h => ?_, [], hb, rfl, fun _ _ => rfl⟩
    obtain ⟨s₂, -, hleave, -⟩ := h.exists_leave_left hs run hook rounds pinned hframes hb hx
    exact ⟨s₂, hleave⟩
  | @cons s s₁ s₂ s' rounds _ _ _ _ pinned _ _ pass passes h hleave _ ih =>
    obtain ⟨t, c, hleave', hposition, hopen, hsound, hb₂, hinfo, hsame⟩ :=
      h.exists_leave_left hs run hook rounds pinned hframes hb hx
    obtain rfl := Option.some.inj (hleave.symm.trans hleave')
    have hstart : s₂.log.start c = s.log.start x := by
      rw [MarkerLog.start, hinfo]
      rfl
    have hcommitted : s₂.log.isCommitted c = true := MarkerLog.isCommitted_iff.2 ⟨_, hinfo, rfl⟩
    have hx₂ : s₂.log.start c ≤ s₂.position := by
      rw [hstart, hposition]
      exact h.le_stop hx
    obtain ⟨hgoes, ms, hb', hinfos, hsame'⟩ := ih hsound hopen hb₂ hx₂
    refine ⟨hgoes, c :: ms, hb', ?_, fun y hy => ?_⟩
    · rw [List.map_cons, List.map_cons, hinfos, hsame' c hcommitted, hinfo, hstart]
    · have hy₂ := (MarkerLog.isCommitted_congr (hsame y hy)).trans hy
      rw [hsame' y hy₂, hsame y hy]

/-- Sections with `leftInner` leave their nodes side by side in the one that comes last. -/
theorem Row.leftInner (h : Row g run hook { leftInner := true } passes s s') (hs : s.log.Sound)
    (hframes : s.frames ≠ []) (hb : s.log.brackets = before ++ Descent.bracketed x inside) {info : MarkerInfo}
    (hi : s.log.info? x = some info) (hx : info.start ≤ s.position) {xkind : Kind}
    (hxkind : info.kind = some xkind) (herror : ∀ e, info.error = some e → xkind = .error) :
    s'.CanGoOn g run hook { leftInner := true } ∧
      ∃ w, ∃ ms : List Marker,
        s'.log.brackets = before ++ Descent.bracketed w (inside ++ ms.flatMap (Descent.bracketed · [])) ∧
        s'.log.info? w = some { info with stop := ((passes.map (·.stop)).getLast?).getD info.stop } ∧
        ms.map s'.log.info? = passes.map (fun p => some
          { start := p.start, stop := p.stop, kind := some p.kind, stage := .committed }) ∧
        ∀ y, y ≠ x → s.log.isCommitted y = true → s'.log.info? y = s.log.info? y := by
  induction h generalizing x inside info with
  | nil s =>
    refine ⟨fun rounds _ _ _ _ pinned _ _ _ _ h => ?_, x, [], by simpa using hb, hi, rfl, fun _ _ _ => rfl⟩
    obtain ⟨s₂, -, hleave, -⟩ :=
      h.exists_leave_leftInner hs run hook rounds pinned hframes hb hi hx hxkind herror
    exact ⟨s₂, hleave⟩
  | @cons s s₁ s₂ s' rounds _ _ _ _ pinned _ _ pass passes h hleave _ ih =>
    obtain ⟨t, w₂, hleave', hposition, hopen, hsound, hlt, hb₂, hinfo, hnew, hsame⟩ :=
      h.exists_leave_leftInner hs run hook rounds pinned hframes hb hi hx hxkind herror
    obtain rfl := Option.some.inj (hleave.symm.trans hleave')
    have hx₂ : info.start ≤ s₂.position := by
      rw [hposition]
      exact h.le_stop hx
    obtain ⟨hgoes, w, ms, hb', hw, hinfos, hsame'⟩ :=
      ih hsound hopen hb₂ hinfo hx₂ hxkind herror
    have hcommitted : s₂.log.isCommitted s.log.fresh = true := MarkerLog.isCommitted_iff.2 ⟨_, hnew, rfl⟩
    have hne : s.log.fresh ≠ w₂ := fun he => Nat.ne_of_lt hlt (congrArg Marker.number he)
    refine ⟨hgoes, w, s.log.fresh :: ms, ?_, ?_, ?_, fun y hyx hy => ?_⟩
    · rw [hb', List.flatMap_cons, List.append_assoc]
    · rw [hw, List.map_cons, List.getLast?_cons]
      rfl
    · rw [List.map_cons, List.map_cons, hinfos, hsame' _ hne hcommitted, hnew]
    · have hy₂ := (MarkerLog.isCommitted_congr (hsame y hyx hy)).trans hy
      have hyw : y ≠ w₂ := by
        rintro rfl
        exact Nat.lt_asymm hlt (MarkerLog.number_lt_of_stage? (MarkerLog.isCommitted_iff_stage?.1 hy))
      rw [hsame' y hyw hy₂, hsame y hyx hy]

open Grammar (eval runRef)

/-- Four letters, and rules for one of them: one makes a name of it, one consumes it, and one looks ahead at
the next one behind it, in vain and to no avail but that an error is on record. -/
def letters : Setup where
  source :=
    { text := "abcd"
      tokens := [⟨⟨3⟩, ⟨0, 1⟩⟩, ⟨⟨3⟩, ⟨1, 2⟩⟩, ⟨⟨3⟩, ⟨2, 3⟩⟩, ⟨⟨3⟩, ⟨3, 4⟩⟩] }
  language := LanguageTable.toBareLanguage {}
  limits := default
  grammar := [
    ("name", .seq (.prim (.enter "name" {} none none 0)) <|
      .seq (.prim (.consume ⟨3⟩)) <|
      .leave "name" (some ⟨24⟩) (.const true) (.const false) none 0),
    ("letter", .prim (.consume ⟨3⟩)),
    ("letterAndMore", .seq (.prim (.consume ⟨3⟩)) <|
      .seq (.prim (.enter "more" {} none none 0)) <|
      .seq (.prim (.enterSimple "try")) <|
      .seq (.prim (.consume ⟨3⟩)) <|
      .seq (.prim (.consume ⟨6⟩)) <|
      .seq (.leaveSimple "try" none (.const false)) <|
      .seq (.leave "more" none (.const false) (.const true) none 0) (.const true))]

/-- The state in which a section is open that the parse has begun with, and its marker. -/
def opening (g : Setup) : Marker × Session := (start default none).enter g 1 {} none none

end Session

end Descent
