import Descent.Proofs.MarkerLog.ErrorStarts
import Descent.Proofs.Session.GivenBack

/-!
# Errors that a section has marked

A section marks where it has reported an error last, and reports none at its mark. That keeps errors
apart as long as an error that starts at the current position is marked (`Session.Tidy`). Most steps
bring no error (`Session.Silent`), the others one at the next significant token (`Session.Reported`);
what is reported while a section is left, be it for a pinned section or in a recovery, is reported only
where the mark of the section allows it.
-/

namespace Descent

/-- Whatever is run for a rule does no more than test tokens. -/
def Runner.Tests (run : Runner) (rule : RuleRef) : Prop :=
  ∀ level s b s', run rule level s = some (b, s') → s.Calm s'

namespace Session

/-- Where the open sections have marked an error, the innermost first. -/
def marks (s : Session) : List (Option Nat) := s.frames.map (·.errorAt)

/-- Where the innermost section has marked an error. -/
def mark (s : Session) : Option Nat := s.marks.head?.join

/-- All errors start before the position. -/
def PastErrors (s : Session) : Prop := ∀ m, s.log.IsError m → s.log.start m < s.position

/-- No two errors start at one position and none starts ahead. One that starts at the position itself
is marked. -/
structure Tidy (mark : Option Nat) (s : Session) : Prop where
  apart : s.log.ErrorsApart
  behind : ∀ m, s.log.IsError m → s.log.start m ≤ s.position
  marked : s.isAborted = false → mark = some s.position ∨ s.PastErrors

variable {g : Setup} {s s' s₁ t u : Session} {mark mark' : Option Nat} {run : Runner}
  {rounds level lastError initial : Nat} {frame frame' : Frame} {kind : Option Kind}
  {result pinned : Bool} {eatMore : RuleRef}

theorem Tidy.congr (h : s.Tidy mark) (hlog : s'.log = s.log) (hposition : s'.position = s.position)
    (haborted : s.isAborted = true → s'.isAborted = true) : s'.Tidy mark where
  apart := hlog ▸ h.apart
  behind := by
    rw [hlog, hposition]
    exact h.behind
  marked hs' := by
    rw [PastErrors, hlog, hposition]
    refine h.marked (Bool.eq_false_iff.2 fun hs => ?_)
    rw [haborted hs] at hs'
    cases hs'

/-! ## Steps that bring no error -/

/-- The position does not go back, and the marks stay as they are. -/
structure Onward (s s' : Session) : Prop where
  position : s.position ≤ s'.position
  aborted : s.isAborted = true → s'.isAborted = true
  marks : s'.marks = s.marks

namespace Onward

theorem refl (s : Session) : Onward s s := ⟨Nat.le_refl _, id, rfl⟩

theorem trans (h : Onward s s₁) (h' : Onward s₁ s') : Onward s s' :=
  ⟨Nat.le_trans h.position h'.position, h'.aborted ∘ h.aborted, h'.marks.trans h.marks⟩

theorem calm (h : Calm s s') : Onward s s' where
  position := h.position
  aborted hs := by
    rw [isAborted, h.aborted hs]
    exact hs
  marks := by
    obtain ⟨a, ha⟩ := h.frames
    rw [Session.marks, ha, Session.marks]
    cases s.frames <;> rfl

theorem frames_ne_nil (h : Onward s s') (hs : s.frames ≠ []) : s'.frames ≠ [] := fun h' => hs <| by
  have hmarks := h.marks
  rw [Session.marks, h', List.map_nil] at hmarks
  exact List.map_eq_nil_iff.1 hmarks.symm

theorem commit (m : Marker) (kind : Kind) (error : Option SyntaxError) (s : Session) :
    Onward s (s.commit m kind error) := by
  unfold Session.commit
  split <;> exact ⟨Nat.le_refl _, id, rfl⟩

theorem wrap (m : Marker) (s : Session) : Onward s (s.wrap m).2 := by
  unfold Session.wrap
  dsimp only
  split <;> exact ⟨Nat.le_refl _, id, rfl⟩

end Onward

/-- Nor is any error brought in. -/
structure Silent (s s' : Session) : Prop extends Onward s s' where
  errors : s.log.ErrorsFrom s'.log

namespace Silent

theorem refl (s : Session) : Silent s s := ⟨.refl s, .refl _⟩

theorem trans (h : Silent s s₁) (h' : Silent s₁ s') : Silent s s' :=
  ⟨h.toOnward.trans h'.toOnward, h.errors.trans h'.errors⟩

theorem calm (h : Calm s s') : Silent s s' := ⟨.calm h, h.log ▸ .refl _⟩

theorem pastErrors (h : Silent s s') (hs : s.PastErrors) : s'.PastErrors := by
  obtain ⟨place, hplace, -⟩ := h.errors
  intro m hm
  obtain ⟨hp, hstart⟩ := hplace m hm
  exact hstart ▸ Nat.lt_of_lt_of_le (hs _ hp) h.position

/-- Markers, kinds of frames and what is noted besides do not matter. -/
theorem of_eq (hlog : s.log.ErrorsFrom s'.log) (hposition : s'.position = s.position)
    (haborted : s'.aborted = s.aborted) (hmarks : s'.marks = s.marks) : Silent s s' :=
  ⟨⟨Nat.le_of_eq hposition.symm, fun h => by rw [isAborted, haborted]; exact h, hmarks⟩, hlog⟩

theorem openMarker (g : Setup) (s : Session) : Silent s (s.openMarker g).2 :=
  (calm (.toSignificant g s)).trans (of_eq (MarkerLog.errorsFrom_openAt _ _) rfl rfl rfl)

theorem commitAs (m : Marker) (kind : Kind) (s : Session) : Silent s (s.commitAs m kind) := by
  have hlog : s.log.ErrorsFrom (s.commitAs m kind).log := by
    rw [Session.commitAs, log_commit]
    exact MarkerLog.errorsFrom_commit ..
  exact ⟨Onward.commit m kind none s, hlog⟩

theorem drop (m : Marker) (s : Session) : Silent s (s.drop m) :=
  of_eq (MarkerLog.errorsFrom_drop _ _) rfl rfl rfl

theorem wrap (m : Marker) (s : Session) : Silent s (s.wrap m).2 := by
  have hlog : s.log.ErrorsFrom (s.wrap m).2.log := by
    rw [log_wrap]
    exact MarkerLog.errorsFrom_wrap ..
  exact ⟨Onward.wrap m s, hlog⟩

theorem dropAny (m? : Option Marker) (s : Session) : Silent s (s.dropAny m?) := by
  cases m? with
  | some m => exact drop m s
  | none => exact refl s

theorem supplyKind (kind : Kind) (s : Session) :
    Silent s { s with frames := Session.supplyKind kind s.frames } := by
  have hmarks (fs : List Frame) :
      (Session.supplyKind kind fs).map (·.errorAt) = fs.map (·.errorAt) := by
    induction fs with
    | nil => rfl
    | cons f fs ih =>
      unfold Session.supplyKind
      split
      · rfl
      · rw [List.map_cons, ih, List.map_cons]
  exact of_eq (.refl _) rfl rfl (hmarks s.frames)

/-- The error of a node that is widened starts where it did. -/
theorem widen (m : Marker) (s : Session) : Silent s (s.widen m) := by
  have hposition := position_wrap m s
  have henclose (kind : Kind) (error : Option SyntaxError)
      (hlog : s.log.ErrorsFrom ((s.enclose m kind error).drop m).log) :
      Silent s ((s.enclose m kind error).drop m) := by
    have hcommit : Onward (s.wrap m).2 (s.enclose m kind error) := .commit ..
    exact ⟨(Onward.wrap m s).trans (hcommit.trans (drop m _).toOnward), hlog⟩
  have hlog (kind : Kind) (error : Option SyntaxError) : ((s.enclose m kind error).drop m).log =
      ((s.log.wrap m).2.commit s.log.fresh kind error s.position).drop m := by
    rw [log_drop, enclose, log_commit, log_wrap, fst_wrap, hposition]
  unfold Session.widen
  split
  · exact refl s
  · next kind hkind =>
    dsimp only
    split
    · next error herror =>
      refine henclose .error (some error) ?_
      rw [hlog]
      rw [log_wrap] at herror
      have hne : s.log.fresh ≠ m := by
        rintro rfl
        simp [MarkerLog.error?, MarkerLog.info?, MarkerLog.wrap, MarkerLog.fresh] at herror
      refine MarkerLog.errorsFrom_replace ⟨?_, ?_⟩ _ _ _
      · obtain ⟨info, hi, hk⟩ := Option.bind_eq_some_iff.1 hkind
        refine MarkerLog.isCommitted_iff.2 ⟨info, hi, ?_⟩
        by_contra hs
        rw [if_neg hs] at hk
        cases hk
      · rw [MarkerLog.error?, MarkerLog.info?_wrap_of_ne hne] at herror
        exact Option.isSome_iff_exists.2 ⟨error, herror⟩
    · refine henclose kind none ?_
      rw [hlog]
      exact ((MarkerLog.errorsFrom_wrap _ _).trans (MarkerLog.errorsFrom_commit ..)).trans
        (MarkerLog.errorsFrom_drop ..)

theorem widenOver (node : Option Marker) (site : Nat) (s : Session) :
    Silent s (s.widenOver node site) := by
  unfold Session.widenOver
  split
  · split
    · exact widen _ s
    · exact refl s
  · exact refl s

/-- Grouping brings no error. -/
theorem invariant (g : Setup) (s : Session) :
    MarkerInvariant g (Silent s) (fun _ => True) fun _ => True where
  calm h hc := h.trans (calm hc)
  openMarker h := ⟨h.trans (openMarker g _), trivial⟩
  commitAs kind h _ _ := h.trans (commitAs _ kind _)
  drop h _ := h.trans (drop _ _)
  wrap h _ := ⟨h.trans (wrap _ _), trivial⟩

end Silent

theorem Tidy.silent (h : s.Tidy mark) (hs : Silent s s') : s'.Tidy mark where
  apart := h.apart.of_errorsFrom hs.errors
  behind m hm := by
    obtain ⟨place, hplace, -⟩ := hs.errors
    obtain ⟨hp, hstart⟩ := hplace m hm
    exact hstart ▸ Nat.le_trans (h.behind _ hp) hs.position
  marked hs' := by
    have hs₀ : s.isAborted = false := Bool.eq_false_iff.2 fun h => by
      rw [hs.aborted h] at hs'
      cases hs'
    rcases h.marked hs₀ with hmark | hpast
    · rcases Nat.eq_or_lt_of_le hs.position with heq | hlt
      · exact .inl (heq ▸ hmark)
      · refine .inr fun m hm => ?_
        obtain ⟨place, hplace, -⟩ := hs.errors
        obtain ⟨hp, hstart⟩ := hplace m hm
        exact hstart ▸ Nat.lt_of_le_of_lt (h.behind _ hp) hlt
    · exact .inr (hs.pastErrors hpast)

/-- Where no error starts, any mark will do. -/
theorem PastErrors.tidy (h : s.PastErrors) (hs : s.log.ErrorsApart) (mark : Option Nat) :
    s.Tidy mark :=
  ⟨hs, fun m hm => Nat.le_of_lt (h m hm), fun _ => .inr h⟩

/-! ## Reports -/

/-- An error was put at the position or further ahead, and no other. -/
structure Reported (s s' : Session) : Prop extends Onward s s' where
  inserted : ∃ p error q, (s.position ≤ p ∧ p ≤ s'.position) ∧
    ((s.log.openAt p).2.commit s.log.fresh .error (some error) q).ErrorsFrom s'.log

/-- What a report leaves as the mark of the section that it is made for. -/
inductive Reports (mark : Option Nat) (s s' : Session) : Option Nat → Prop
  | silent (h : Silent s s') : Reports mark s s' mark
  | reported (hs : s.isAborted = false) (h : Reported s s') : Reports mark s s' (some s'.position)

namespace Reported

theorem silent (h : Reported s s₁) (h' : Silent s₁ s') : Reported s s' := by
  obtain ⟨p, error, q, ⟨hp, hp'⟩, herrors⟩ := h.inserted
  exact ⟨h.toOnward.trans h'.toOnward, p, error, q, ⟨hp, Nat.le_trans hp' h'.position⟩,
    herrors.trans h'.errors⟩

theorem after (h : Calm s s₁) (h' : Reported s₁ s') : Reported s s' := by
  obtain ⟨p, error, q, ⟨hp, hp'⟩, herrors⟩ := h'.inserted
  exact ⟨(Onward.calm h).trans h'.toOnward, p, error, q, ⟨Nat.le_trans h.position hp, hp'⟩,
    h.log ▸ herrors⟩

/-- A marker that is opened and committed with an error, with nothing but tests in between. -/
theorem of_calm (error : SyntaxError) (h : Calm (s.openMarker g).2 t) :
    Reported s (t.commit (s.openMarker g).1 .error (some error)) := by
  have hopen : Onward s (s.openMarker g).2 := (Silent.openMarker g s).toOnward
  have hcommit : Onward t (t.commit (s.openMarker g).1 .error (some error)) := .commit ..
  refine ⟨hopen.trans ((Onward.calm h).trans hcommit), g.significant s.position, error, t.position,
    ⟨g.le_significant _, ?_⟩, ?_⟩
  · exact Nat.le_trans h.position hcommit.position
  · rw [log_commit, h.log]
    exact .refl _

/-- Past all errors a new one is apart from them, and marked where it may stand. -/
theorem tidy (h : Reported s s') (hs : s.log.ErrorsApart) (hpast : s.PastErrors) :
    s'.Tidy (some s'.position) := by
  obtain ⟨p, error, q, ⟨hp, hp'⟩, herrors⟩ := h.inserted
  have hne (m : Marker) (hm : s.log.IsError m) : s.log.start m ≠ p :=
    Nat.ne_of_lt (Nat.lt_of_lt_of_le (hpast m hm) hp)
  refine ⟨(hs.insertError hne error q).of_errorsFrom herrors, fun m hm => ?_, fun _ => .inl rfl⟩
  obtain ⟨place, hplace, -⟩ := herrors
  obtain ⟨hm, hstart⟩ := hplace m hm
  obtain ⟨⟨-, hfresh⟩, hcases⟩ := s.log.isError_insertError p q error
  rw [← hstart]
  rcases hcases _ hm with heq | ⟨hold, heq⟩
  · rw [heq, hfresh]
    exact hp'
  · rw [heq]
    exact Nat.le_of_lt (Nat.lt_of_lt_of_le (hpast _ hold) h.position)

end Reported

/-- If an error starts at the position, it is marked. -/
theorem Tidy.pastErrors (h : s.Tidy mark) (hs : s.isAborted = false)
    (hmark : mark ≠ some s.position) : s.PastErrors :=
  (h.marked hs).resolve_left hmark

namespace Reports

theorem onward (h : Reports mark s s' mark') : Onward s s' := by
  cases h with
  | silent h => exact h.toOnward
  | reported _ h => exact h.toOnward

theorem tidy (h : Reports mark s s' mark') (hs : s.Tidy mark)
    (hpast : s.isAborted = false → s.PastErrors) : s'.Tidy mark' := by
  cases h with
  | silent h => exact hs.silent h
  | reported hs' h => exact h.tidy hs.apart (hpast hs')

end Reports

theorem reports_report (mark : Option Nat) (site : Nat) (inner force : Bool) (s : Session) :
    Reports mark s (s.report g site inner force).2 ((s.report g site inner force).1.or mark) := by
  have hnext : Calm s (s.toSignificant g) := .toSignificant g s
  unfold report
  split
  · exact .silent (.refl s)
  · next hs =>
    dsimp only
    split
    · exact .silent (.calm hnext)
    · refine .reported (Bool.eq_false_iff.2 hs) ?_
      have hinsert (error : SyntaxError) (e : Event) :
          Reported s (((s.toSignificant g).note e).insertError g error) :=
        .after (hnext.trans (.note _ e)) (.of_calm error (.refl _))
      refine Reported.silent ?_ (.calm (.toSignificant g _))
      split
      · exact (hinsert _ _).silent (.widenOver ..)
      · exact hinsert _ _

theorem reports_reportFor (inner force : Bool) (s : Session) :
    Reports frame.errorAt s (s.reportFor g frame inner force).2.2
      (s.reportFor g frame inner force).2.1.errorAt := by
  have h := reports_report (g := g) frame.errorAt frame.position inner force s
  unfold reportFor
  split
  · next heq =>
    rw [heq] at h
    exact h
  · next heq =>
    rw [heq] at h
    exact h

/-! ## Recovery -/

theorem map_errorAt_resetCounts (fs : List Frame) :
    (resetCounts fs).map (·.errorAt) = fs.map (·.errorAt) := by
  induction fs with
  | nil => rfl
  | cons f fs ih =>
    unfold resetCounts
    split
    · rfl
    · rw [List.map_cons, ih, List.map_cons]

section
variable (hadvance : run.Tests g.advancer)
include hadvance

theorem reports_reportSwallowing (mark : Option Nat) {p? : Option Nat}
    (hr : s.reportSwallowing g run level = some (p?, s')) : Reports mark s s' (p?.or mark) := by
  unfold reportSwallowing at hr
  split at hr
  · cases hr
    exact .silent (.refl s)
  · next hs =>
    obtain ⟨⟨b, t⟩, ht, hr⟩ := Option.bind_eq_some_iff.1 hr
    obtain ⟨rfl, rfl⟩ := Prod.mk.inj (Option.some.inj hr)
    let error := (s.toSignificant g).errorHere g ((s.toSignificant g).expectedHere g)
    have hbefore := (Calm.toSignificant g s).trans
      (.note _ (.errorReported (s.toSignificant g).position error true false))
    have hreported := Reported.after hbefore (.of_calm error (hadvance _ _ _ _ ht))
    exact .reported (Bool.eq_false_iff.2 hs) (hreported.silent (.calm (.toSignificant g _)))

theorem reports_reportSwallowingFor {b : Bool}
    (hr : reportSwallowingFor g run frame s = some (b, frame', s')) :
    Reports frame.errorAt s s' frame'.errorAt := by
  obtain ⟨⟨p, t⟩, ht, hr⟩ := Option.bind_eq_some_iff.1 hr
  have h := reports_reportSwallowing hadvance frame.errorAt ht
  cases p with
  | some p =>
    cases hr
    exact h
  | none =>
    cases hr
    exact h

variable (hmore : run.Tests eatMore)
include hmore

theorem calm_skipRun {name : String} {more more' : Bool} {depth : Int}
    (hr : s.skipRun g run eatMore name level lastError rounds more depth = some (more', s')) :
    Calm s s' := by
  refine skipRun_keeps (fun rule hrule level t b t' h ht => ?_) (fun _ _ h hc => h.trans hc)
    (.refl s) hr
  rcases hrule with rfl | rfl
  · exact h.trans (hadvance _ _ _ _ ht)
  · exact h.trans (hmore _ _ _ _ ht)

/-- What is skipped is reported only if the section has marked no error where it ended. -/
theorem reportSkipped_tidy {eatsFirst more reported : Bool} (hs : s.Tidy frame.errorAt)
    (hpast : s.isAborted = false → frame.errorAt ≠ some initial → s.PastErrors)
    (hr : s.reportSkipped g run rounds frame kind result pinned eatMore initial eatsFirst more =
      some (reported, frame', s')) : Onward s s' ∧ s'.Tidy frame'.errorAt := by
  have hpast' (hnot : frame.countsReported result initial = false) (hs : s.isAborted = false) :
      s.PastErrors := by
    refine hpast hs fun heq => ?_
    rw [Frame.countsReported, heq, beq_self_eq_true, Bool.true_or] at hnot
    cases hnot
  have hfor (hnot : frame.countsReported result initial = false) (inner force : Bool) :
      Onward s (s.reportFor g frame inner force).2.2 ∧
        (s.reportFor g frame inner force).2.2.Tidy
          (s.reportFor g frame inner force).2.1.errorAt := by
    have hreports := @reports_reportFor g frame inner force s
    exact ⟨hreports.onward, hreports.tidy hs (hpast' hnot)⟩
  have hcalm (rule : RuleRef) (hrule : rule = g.advancer ∨ rule = eatMore) (level : Nat) (t : Session)
      (b : Bool) (u : Session) (hu : run rule level t = some (b, u)) : Silent t u := by
    rcases hrule with rfl | rfl
    · exact .calm (hadvance _ _ _ _ hu)
    · exact .calm (hmore _ _ _ _ hu)
  have hsilent {frame₁ : Frame} {t u : Session} (ht : Onward s t ∧ t.Tidy frame₁.errorAt)
      (hu : Silent t u) : Onward s u ∧ u.Tidy frame₁.errorAt :=
    ⟨ht.1.trans hu.toOnward, ht.2.silent hu⟩
  refine reportSkipped_induction (P := fun frame₁ t => Onward s t ∧ t.Tidy frame₁.errorAt)
    (Q := fun frame₁ t => Onward s t ∧ t.Tidy frame₁.errorAt) (fun hnot b frame₁ t ht => ?_)
    ⟨.refl s, hs⟩ (fun rule hrule _ t b u ht hu => hsilent ht (hcalm rule hrule _ t b u hu))
    (fun _ t b u ht hu => hsilent ht ?_) (fun _ _ => id) (fun hnot => hfor hnot ..)
    (fun hnot _ => hfor hnot ..) hr
  · have hreports := reports_reportSwallowingFor hadvance ht
    exact ⟨hreports.onward, hreports.tidy hs (hpast' hnot)⟩
  · refine (Silent.invariant g t).groupRun (fun rule hrule level x b x' hx hrun => ?_) (.refl t) hu trivial
    refine hx.trans (hcalm rule ?_ level x b x' hrun)
    rcases hrule with rfl | rfl | rfl
    · exact .inl rfl
    · exact .inr rfl
    · exact .inl rfl

theorem recover_tidy (hs : s.Tidy frame.errorAt)
    (hr : s.recover g run rounds frame kind result pinned eatMore s.position lastError =
      some (frame', s')) : Onward s s' ∧ s'.Tidy frame'.errorAt := by
  obtain ⟨eatsFirst, t, starts, more, u, reported, frame₁, v, last, ht, hu, hv, -, hend⟩ :=
    exists_stages hr
  have h₁ : Silent s t := by
    have hquiet : Silent s { s with quiet := true } := .of_eq (.refl _) rfl rfl rfl
    have hbegin := hquiet.trans (.calm (.toSignificant g _))
    rcases ht with ⟨-, rfl⟩ | ht
    · exact hbegin
    · exact hbegin.trans (.calm (hmore _ _ _ _ ht))
  have h₂ := h₁.trans (.calm ((calm_skipRun hadvance hmore hu).trans
    (.note u (.skipped u.position lastError more))))
  -- wherever the skipping ended, it began past all errors unless there was a mark
  have hpast (hu : (u.note (.skipped u.position lastError more)).isAborted = false)
      (hne : frame.errorAt ≠ some s.position) :
      (u.note (.skipped u.position lastError more)).PastErrors := by
    refine h₂.pastErrors (hs.pastErrors ?_ hne)
    exact Bool.eq_false_iff.2 fun h => Bool.eq_false_iff.1 hu (h₂.aborted h)
  obtain ⟨h₃, htidy⟩ := reportSkipped_tidy hadvance hmore (hs.silent h₂) hpast hv
  have h₄ : Silent v { v.widenOver last frame₁.position with quiet := false } :=
    (Silent.widenOver last frame₁.position v).trans (.of_eq (.refl _) rfl rfl rfl)
  have h₅ := (h₂.toOnward.trans h₃).trans h₄.toOnward
  rcases hend with heq | heq
  · cases heq
    exact ⟨h₅, htidy.silent h₄⟩
  · have hclear (s : Session) : Silent s (s.clearAttempts frame₁).2 := by
      refine .of_eq (.refl _) rfl rfl ?_
      show List.map _ (if _ then _ else _) = _
      split
      · exact map_errorAt_resetCounts s.frames
      · rfl
    have hcleared := hclear { v.widenOver last frame₁.position with quiet := false }
    rw [← heq] at hcleared
    refine ⟨h₅.trans hcleared.toOnward, ?_⟩
    have hmark : frame'.errorAt = frame₁.errorAt := congrArg (·.1.errorAt) heq
    rw [hmark]
    exact (htidy.silent h₄).silent hcleared

end

end Session

end Descent
