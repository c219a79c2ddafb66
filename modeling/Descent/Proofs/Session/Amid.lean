import Descent.Proofs.Session.Ascending
import Descent.Proofs.Session.LaminarWork
import Descent.Proofs.Session.RunWork

/-!
# In the middle of work

`Amid allows g s t` says that work that began in `s` may have come to `t`, with markers open, frames
up and levels raised that are still to be closed. What holds there is shown piece by piece as for work
that is over (`Amid.regular`, `Amid.laminar`, `Amid.ascends`).

While a section is left or items are grouped, rules are asked in such states only: two runners that
answer the same there lead to the same end (`Session.leave_congr`, `Session.groupRun_congr`).
-/

namespace Descent

/-- Work that began in one state may have come to another one. -/
inductive Amid (allows : Modifiers → Bool) (g : Setup) : Session → Session → Prop
  | work {s s' : Session} (h : Work allows g none s s') : Amid allows g s s'
  | trans {s s₁ s₂ : Session} (h : Amid allows g s s₁) (h' : Amid allows g s₁ s₂) :
    Amid allows g s s₂
  | openMarker (s : Session) : Amid allows g s (s.openMarker g).2
  | level (s : Session) : Amid allows g s { s with level := s.level + 1 }
  | framed (frame : Frame) (hallows : allows frame.modifiers = true) (s : Session) :
    Amid allows g s (s.putFrame frame)
  | hushed (s : Session) : Amid allows g s { s with quiet := true }

open Session (Steady continues_openMarker ascends_openMarker)

namespace Amid

variable {allows : Modifiers → Bool} {g : Setup} {s s' : Session}

theorem refl (s : Session) : Amid allows g s s := .work (.refl s)

theorem regular (h : Amid allows g s s') (hs : s.Regular) : s'.Regular := by
  induction h with
  | work h => exact hs.work h
  | trans _ _ ih ih' => exact ih' (ih hs)
  | openMarker s => exact ⟨(continues_openMarker hs.log g).sound, hs.hooks, hs.lookahead⟩
  | level s => exact ⟨hs.log, fun h hh => Nat.le_succ_of_le (hs.hooks h hh), hs.lookahead⟩
  | framed frame _ s =>
    exact ⟨hs.log, hs.hooks, Lookahead.enter_admissible frame.modifiers hs.lookahead⟩
  | hushed s => exact ⟨hs.log, hs.hooks, hs.lookahead⟩

/-- The positions of the log ascend up to the current one. -/
theorem ascends (h : Amid allows g s s') (hs : s.Regular) (hascends : s.Ascends) : s'.Ascends := by
  induction h with
  | work h => exact (h.ascends hs.log hascends).1
  | trans h _ ih ih' => exact ih' (h.regular hs) (ih hs hascends)
  | openMarker s => exact ascends_openMarker hascends hs.log g
  | level | framed | hushed => exact hascends

/-- Without delimiters, if no section takes up the node before it, the log is laminar. -/
theorem laminar (hpairs : g.language.delimiters = [])
    (hleft : ∀ modifiers, allows modifiers = true → modifiers.takesLeft = false) (h : Amid allows g s s') (hs : s.Regular) (hl : s.log.Laminar) : s'.log.Laminar := by
  induction h with
  | work h =>
    have hgrows : MarkerLog.OnTop _ _ := h.grows hpairs hleft hs.log hl
    exact hgrows.laminar
  | trans h _ ih ih' => exact ih' (h.regular hs) (ih hs hl)
  | openMarker s => exact hl.openAt _
  | level | framed | hushed => exact hl

end Amid

/-- From a state on, two runners answer the same. -/
def Runner.AgreesFrom (allows : Modifiers → Bool) (g : Setup) (run run' : Runner) (s : Session) :
    Prop :=
  ∀ rule level t, Amid allows g s t → run' rule level t = run rule level t

section
variable {allows : Modifiers → Bool} {g : Setup} {run run' : Runner} {s t : Session}

theorem Runner.AgreesFrom.amid (h : run.AgreesFrom allows g run' s) (ht : Amid allows g s t) :
    run.AgreesFrom allows g run' t :=
  fun rule level u hu => h rule level u (ht.trans hu)

theorem Runner.AgreesFrom.work (h : run.AgreesFrom allows g run' s)
    (ht : Work allows g none s t) : run.AgreesFrom allows g run' t :=
  h.amid (.work ht)

end

namespace Session

variable {allows : Modifiers → Bool} {g : Setup} {run run' : Runner} {s t : Session}
  {rounds level lastError initial : Nat} {frame : Frame} {kind : Option Kind} {name : String}
  {result pinned more : Bool} {item eatMore : RuleRef} {depth : Int}

/-! ## Grouping -/

section
variable {c : Grouping} (hrun : run.Works allows g) (hs : s.HooksOpen)
  (hsame : run.AgreesFrom allows g run' s)
include hrun hs hsame

omit hrun hs in
/-- Rules are asked while items are being grouped. -/
theorem agreesFrom_grouped (h : Grouped allows g s c t) : run.AgreesFrom allows g run' t := by
  cases h with
  | between _ _ h => exact hsame.work h.work
  | inside _ _ h hin => exact hsame.amid ((.trans (.work h.work) (.trans (.openMarker _) (.work hin))))

theorem itemStep_congr (h : Grouped allows g s c t) :
    t.itemStep g run' level item eatMore c = t.itemStep g run level item eatMore c := by
  obtain ⟨h₁, hc⟩ := h.openCurrent
  have hagree := agreesFrom_grouped hsame h₁
  rw [itemStep_eq, itemStep_eq, hagree _ _ _ (.refl _)]
  refine Option.bind_congr fun x hx => ?_
  have hx : Work allows g none (t.openCurrent g c).2 x.2 := by
    split at hx
    · exact hrun _ _ _ _ _ (h₁.surroundings.hooksOpen hs) hx
    · cases hx
      exact .refl _
  rw [hagree _ _ _ (.work hx)]

theorem groupItems_congr {kind : Kind} (h : Grouped allows g s c t) :
    t.groupItems g run' level kind none item eatMore rounds c =
      t.groupItems g run level kind none item eatMore rounds c := by
  induction rounds generalizing c t with
  | zero => rfl
  | succ rounds ih =>
    have h₁ := h.steady (.toSignificant g t)
    have hstep : (t.toSignificant g).roundStep g run' level kind none item eatMore c =
        (t.toSignificant g).roundStep g run level kind none item eatMore c :=
      itemStep_congr hrun hs hsame h₁
    rw [groupItems_succ, groupItems_succ, hstep]
    refine Option.bind_congr fun x hx => ?_
    have h₂ := (h₁.itemStep hrun hs hx).foldIfFull kind
    have hguard := Steady.calm (.guardProgress g (x.2.2.foldIfFull g kind x.2.1).2 "parse_as_tree"
      t.position)
    split
    · rfl
    · split
      · next u hu =>
        rw [hu] at hguard
        exact ih (h₂.steady hguard)
      · rfl

theorem groupRun_congr {kind : Kind} {minds : Bool} (hpairs : g.language.delimiters = []) :
    s.groupRun g run' rounds level kind minds item eatMore =
      s.groupRun g run rounds level kind minds item eatMore := by
  have hpair : (if minds then g.language.delimiters.head? else none) = none := by
    rw [hpairs]
    cases minds <;> rfl
  rw [groupRun_eq, groupRun_eq]
  simp only [hpair, show s.firstRegions g none = ([], s) from rfl]
  have hstart : Grouped allows g s {} s := .between rfl rfl (.nil (.refl s))
  rw [groupItems_congr hrun hs hsame hstart]

/-! ## Recovery -/

omit hrun hs in
theorem reportSwallowing_congr :
    s.reportSwallowing g run' level = s.reportSwallowing g run level := by
  have hnote := (@Work.refl allows g s).toSignificant.note (.errorReported
    (s.toSignificant g).position ((s.toSignificant g).errorHere g
      ((s.toSignificant g).expectedHere g)) true false)
  have hasked := hsame g.advancer level _ (.trans (.work hnote) (.openMarker _))
  unfold reportSwallowing
  dsimp only
  rw [hasked]

omit hrun hs in
theorem reportSwallowingFor_congr :
    s.reportSwallowingFor g run' frame = s.reportSwallowingFor g run frame := by
  unfold reportSwallowingFor
  rw [reportSwallowing_congr hsame]

omit hs hsame in
theorem skipRun_congr {s : Session} (hs : s.HooksOpen) (hsame : run.AgreesFrom allows g run' s) :
    s.skipRun g run' eatMore name level lastError rounds more depth =
      s.skipRun g run eatMore name level lastError rounds more depth := by
  induction rounds generalizing s more depth with
  | zero => rfl
  | succ rounds ih =>
    have h₁ := (@Work.refl allows g s).toSignificant
    simp only [skipRun]
    rw [hsame _ _ _ (.work h₁)]
    split
    · split
      · rfl
      · refine Option.bind_congr fun x hx => ?_
        have h₂ := h₁.trans (hrun _ _ _ _ _ (h₁.hooksOpen hs) hx)
        rw [hsame _ _ _ (.work h₂)]
        split
        · rfl
        · refine Option.bind_congr fun y hy => ?_
          have h₃ := h₂.trans (hrun _ _ _ _ _ (h₂.hooksOpen hs) hy)
          exact ih (h₃.hooksOpen hs) (hsame.work h₃)
    · rfl

theorem reportSkipped_congr {eatsFirst : Bool} (hpairs : g.language.delimiters = []) :
    s.reportSkipped g run' rounds frame kind result pinned eatMore initial eatsFirst more =
      s.reportSkipped g run rounds frame kind result pinned eatMore initial eatsFirst more := by
  simp only [reportSkipped, Option.bind_eq_bind, ← bind_ite]
  rw [reportSwallowingFor_congr hsame, hsame _ _ _ (.refl s)]
  split
  · refine Option.bind_congr fun x hx => ?_
    have h₁ : Work allows g none s x.2.2 := by
      split at hx
      · exact Work.reportSwallowingFor hrun hs hx
      · split at hx
        · obtain ⟨y, hy, rfl⟩ := Option.map_eq_some_iff.1 hx
          exact hrun _ _ _ _ _ hs hy
        · cases hx
          exact .refl s
    rw [hsame _ _ _ (.work h₁)]
    split
    · rfl
    · refine Option.bind_congr fun y hy => ?_
      have h₂ := h₁.trans (hrun _ _ _ _ _ (h₁.hooksOpen hs) hy)
      rw [groupRun_congr hrun (h₂.hooksOpen hs) (hsame.work h₂) hpairs]
  · rfl

theorem recover_congr (hpairs : g.language.delimiters = []) :
    s.recover g run' rounds frame kind result pinned eatMore initial lastError =
      s.recover g run rounds frame kind result pinned eatMore initial lastError := by
  have hbegin := (@Work.refl allows g { s with quiet := true }).toSignificant
  have hquiet := (hsame.amid (.hushed s)).work hbegin
  simp only [recover, Option.bind_eq_bind, ← bind_ite]
  rw [hquiet _ _ _ (.refl _)]
  refine Option.bind_congr fun x hx => ?_
  have h₁ : Work allows g none ({ s with quiet := true }.toSignificant g) x.2 := by
    split at hx
    · cases hx
      exact .refl _
    · exact hrun _ _ _ _ _ hs hx
  have hagree := hquiet.work h₁
  have hx' : x.2.HooksOpen := h₁.hooksOpen hs
  rw [skipRun_congr hrun hx' hagree]
  refine Option.bind_congr fun y hy => ?_
  have h₂ := (Work.skipRun hrun hx' hy).note (.skipped y.2.position lastError y.1)
  rw [reportSkipped_congr hrun (h₂.hooksOpen hx') (hagree.work h₂) hpairs]

theorem settleErrors_congr {eatMore : Option RuleRef} (hpairs : g.language.delimiters = []) :
    s.settleErrors g run' rounds frame kind result pinned eatMore =
      s.settleErrors g run rounds frame kind result pinned eatMore := by
  have h₁ : Work allows g none s (s.attemptsByName g frame kind (result || pinned)).2 :=
    .calm (Work.calm_attemptsByName s frame kind (result || pinned))
  rw [settleErrors_eq, settleErrors_eq]
  generalize s.attemptsByName g frame kind (result || pinned) = x at h₁
  unfold settleFrame
  dsimp only
  split
  · rw [recover_congr hrun (h₁.hooksOpen hs) (hsame.work h₁) hpairs]
  · rfl

end

/-! ## Leaving -/

/-- It does not matter how hooks are run while none is waiting. -/
theorem runLevelHooks_congr (hook hook' : HookRunner) (hs : ∀ h ∈ s.hooks, h.level < s.level) :
    s.runLevelHooks g hook' rounds kind = s.runLevelHooks g hook rounds kind := by
  have hfrom {t : Session} {m? : Option Marker} (ht : ∀ h ∈ t.hooks, h.level < t.level) :
      t.runHooksFrom hook' rounds m? = t.runHooksFrom hook rounds m? := by
    cases rounds with
    | zero => rfl
    | succ rounds =>
      simp only [runHooksFrom]
      split
      · rfl
      · next h hooks hhooks =>
        have hlt := ht h (by rw [hhooks]; exact List.mem_cons_self)
        rw [if_pos hlt, if_pos hlt]
  have habort (kind : Kind) : ∀ h ∈ ((s.toSignificant g).abort g (.nothingCommitted
      (g.language.nameOf kind) ((s.toSignificant g).offset g))).hooks, h.level < ((s.toSignificant
        g).abort g (.nothingCommitted (g.language.nameOf kind) ((s.toSignificant g).offset
          g))).level := by
    have hsteady := (Steady.toSignificant g s).trans (.abort g _ (.nothingCommitted
      (g.language.nameOf kind) ((s.toSignificant g).offset g)))
    rw [hsteady.hooks, hsteady.level]
    exact hs
  unfold runLevelHooks
  split
  · rfl
  · split
    · exact hfrom hs
    · exact hfrom hs
    · next kind _ => exact hfrom (habort kind)

variable {modifiers : Modifiers} {early : Option Kind} {name : Option String} {s₁ : Session}

/-- While a section is left, rules are asked in states only that are amid work since before it was
entered. -/
theorem leave_congr {eatMore : Option RuleRef} (hpairs : g.language.delimiters = [])
    (hallows : allows modifiers = true) (hrun : run.Works allows g)
    (hsame : run.AgreesFrom allows g run' s) (hook hook' : HookRunner) (hs : s.HooksOpen)
    (hbody : Work allows g none (s.enter g level modifiers early name).2 s₁) :
    s₁.leave g run' hook' rounds level (s.enter g level modifiers early name).1 kind result pinned
        eatMore =
      s₁.leave g run hook rounds level (s.enter g level modifiers early name).1 kind result pinned
        eatMore := by
  obtain ⟨f, fs, hfs, hf, hshape⟩ := Work.exists_shape hallows hbody kind result pinned
  have hlevel : f.level = level := hf.level
  have hentering : Amid allows g s (s.entering g) :=
    .trans (.work (.reportAgain s)) (.level (s.reportAgain g))
  have hshaped := hshape.hooksOpen (Work.hooksOpen_entering hs)
  rw [leave_eq hfs hlevel, leave_eq hfs hlevel]
  dsimp only
  rw [settleErrors_congr hrun hshaped ((hsame.amid hentering).work hshape) hpairs]
  refine Option.bind_congr fun x hx => ?_
  have hsettle := hshape.trans (Work.settleErrors hrun hshaped hx)
  rw [runLevelHooks_congr hook hook' (Work.hooks_lt_of_work hs hsettle)]

end Session

end Descent
