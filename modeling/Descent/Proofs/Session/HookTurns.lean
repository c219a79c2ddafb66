import Descent.Proofs.Session.Aside
import Descent.Proofs.Session.HookedNodes

/-!
# Hooks are run in turn

All hooks wait on one list, each with the number of sections that were open when it was left there. A
`HookedRun` enters and leaves sections in pairs, and leaves hooks to the sections that are open; a hook itself
does neither. Then the list keeps step with the sections: a run puts the hooks of its own on top and leaves all
others where they are (`HookedRun.adds`). So when a section is left, those hooks are run that were left to it,
the latest first, each with what the one before it returned, and the hooks of the sections around still wait
(`SectionSort.hooks_run_in_turn`).
-/

namespace Descent

open Session (Calm)

namespace Session

/-! ## Running hooks -/

/-- Hooks are taken off the list and run in turn, the first one with a marker, if any, and every other one with
what the one before it returned. -/
def runInTurn (hook : HookRunner) :
    List Expr → Option Marker → Session → Option (Option Marker × Session)
  | [], m?, s => some (m?, s)
  | body :: bodies, m?, s => do
    let (m?, s) ← hook body m? { s with hooks := s.hooks.tail }
    runInTurn hook bodies m? s

variable {g : Setup} {hook : HookRunner} {rounds : Nat} {bodies : List Expr} {outer : List Hook}
  {m? n? : Option Marker} {s s' : Session} {kind? : Option Kind}

section
variable (hhook : ∀ body ∈ bodies, hook.KeepsAside body)
  (hhooks : s.hooks = bodies.map (Hook.mk s.level) ++ outer)
include hhook hhooks

/-- Those that wait behind them still wait when they have been run. -/
theorem adds_runInTurn (h : s.runInTurn hook bodies m? = some (n?, s')) :
    { s with hooks := outer }.Adds [] s' := by
  induction bodies generalizing s m? with
  | nil =>
    cases h
    exact ⟨rfl, rfl, hhooks⟩
  | cons body bodies ih =>
    obtain ⟨hbody, hrest⟩ := List.forall_mem_cons.1 hhook
    obtain ⟨⟨o?, t⟩, ht, h⟩ := Option.bind_eq_some_iff.1 h
    have hfirst := hbody _ _ _ _ ht
    have htail : t.hooks = bodies.map (Hook.mk t.level) ++ outer := by
      rw [hfirst.hooks, hfirst.level]
      show s.hooks.tail = _
      rw [hhooks]
      rfl
    have hlater := ih hrest htail h
    exact ⟨hlater.level.trans hfirst.level, hlater.levels.trans hfirst.levels, hlater.hooks⟩

/-- The hooks of the innermost section are run in turn, if there are rounds enough, and those of sections
further out are not. -/
theorem runHooksFrom_eq_inTurn (houter : ∀ h ∈ outer, h.level < s.level) :
    s.runHooksFrom hook rounds m? =
      if bodies.length < rounds then (s.runInTurn hook bodies m?).map (·.2) else none := by
  induction bodies generalizing s m? rounds with
  | nil =>
    cases rounds with
    | zero => rfl
    | succ rounds =>
      rw [if_pos (show ([] : List Expr).length < rounds + 1 from Nat.zero_lt_succ rounds), runHooksFrom,
        hhooks]
      cases outer with
      | nil => rfl
      | cons x outer => exact if_pos (houter x List.mem_cons_self)
  | cons body bodies ih =>
    obtain ⟨hbody, hrest⟩ := List.forall_mem_cons.1 hhook
    cases rounds with
    | zero => rfl
    | succ rounds =>
      have hstep : s.runHooksFrom hook (rounds + 1) m? =
          (hook body m? { s with hooks := bodies.map (Hook.mk s.level) ++ outer }).bind fun x =>
            x.2.runHooksFrom hook rounds x.1 := by
        rw [runHooksFrom, hhooks]
        show (if s.level < s.level then _ else if s.level = s.level then _ else _) = _
        rw [if_neg (Nat.lt_irrefl _), if_pos rfl]
        rfl
      have hturn : s.runInTurn hook (body :: bodies) m? =
          (hook body m? { s with hooks := bodies.map (Hook.mk s.level) ++ outer }).bind fun x =>
            x.2.runInTurn hook bodies x.1 := by
        rw [runInTurn, hhooks]
        rfl
      rw [hstep, hturn]
      cases hx : hook body m? { s with hooks := bodies.map (Hook.mk s.level) ++ outer } with
      | none => simp
      | some x =>
        have hfirst := hbody _ _ _ _ hx
        rw [Option.bind_some, Option.bind_some, ih hrest]
        · simp only [List.length_cons, Nat.add_lt_add_iff_right]
        · rw [hfirst.hooks, hfirst.level]
          rfl
        · rw [hfirst.level]
          exact houter

end

/-- What the first hook of a section is given: the node committed last, if the section produced a kind. -/
def givenFirst (kind? : Option Kind) (s : Session) : Option Marker :=
  kind?.bind fun _ => s.log.lastCommitted?

/-- The state in which the hooks of a section begin to be run. If it produced a kind but there is no node,
that ends the session. -/
def beforeHooks (g : Setup) (kind? : Option Kind) (s : Session) : Session :=
  match kind?, s.log.lastCommitted? with
  | some kind, none =>
    if s.hooks.isEmpty then s
    else
      (s.toSignificant g).abort g
        (.nothingCommitted (g.language.nameOf kind) ((s.toSignificant g).offset g))
  | _, _ => s

theorem calm_beforeHooks (g : Setup) (kind? : Option Kind) (s : Session) :
    Calm s (s.beforeHooks g kind?) := by
  unfold beforeHooks
  split
  · split
    · exact .refl s
    · exact (Calm.toSignificant g s).trans (.abort ..)
  · exact .refl s

theorem runLevelHooks_eq (hrounds : 0 < rounds) :
    s.runLevelHooks g hook rounds kind? =
      (s.beforeHooks g kind?).runHooksFrom hook rounds (s.givenFirst kind?) := by
  obtain ⟨rounds, rfl⟩ := Nat.exists_eq_add_one.2 hrounds
  unfold runLevelHooks beforeHooks givenFirst
  cases hempty : s.hooks.isEmpty with
  | true =>
    have hnil := List.isEmpty_iff.1 hempty
    cases kind? <;> cases hlast : s.log.lastCommitted? <;> simp [runHooksFrom, hnil]
  | false => cases kind? <;> cases hlast : s.log.lastCommitted? <;> simp

/-- It takes a round to look at the hooks, if any waits. -/
theorem rounds_pos (hhooks : s.hooks ≠ []) (h : s.runLevelHooks g hook rounds kind? = some s') :
    0 < rounds := by
  refine Nat.pos_of_ne_zero fun hzero => ?_
  unfold runLevelHooks at h
  rw [hzero, if_neg (mt List.isEmpty_iff.1 hhooks)] at h
  split at h <;> cases h

/-- When a section is left, its hooks are run in turn, as long as there are rounds for them. -/
theorem runLevelHooks_eq_inTurn (hhook : ∀ body ∈ bodies, hook.KeepsAside body)
    (hhooks : s.hooks = bodies.map (Hook.mk s.level) ++ outer)
    (houter : ∀ h ∈ outer, h.level < s.level) (hrounds : bodies.length < rounds) :
    s.runLevelHooks g hook rounds kind? =
      ((s.beforeHooks g kind?).runInTurn hook bodies (s.givenFirst kind?)).map (·.2) := by
  have hcalm := calm_beforeHooks g kind? s
  rw [runLevelHooks_eq (Nat.zero_lt_of_lt hrounds), runHooksFrom_eq_inTurn hhook, if_pos hrounds]
  · rw [hcalm.hooks, hcalm.level]
    exact hhooks
  · rw [hcalm.level]
    exact houter

/-- None is run if all wait for sections further out. -/
theorem runLevelHooks_of_outer (houter : ∀ h ∈ s.hooks, h.level < s.level) (hrounds : 0 < rounds) :
    s.runLevelHooks g hook rounds kind? = some (s.beforeHooks g kind?) := by
  have hnone : ∀ body ∈ ([] : List Expr), hook.KeepsAside body := fun _ hb => nomatch hb
  rw [runLevelHooks_eq_inTurn hnone rfl houter hrounds]
  rfl

/-- Then the hooks left are those of the sections around. -/
theorem adds_runLevelHooks (hhook : ∀ body ∈ bodies, hook.KeepsAside body)
    (hhooks : s.hooks = bodies.map (Hook.mk s.level) ++ outer)
    (houter : ∀ h ∈ outer, h.level < s.level)
    (h : s.runLevelHooks g hook rounds kind? = some s') : { s with hooks := outer }.Adds [] s' := by
  by_cases hempty : s.hooks = []
  · unfold runLevelHooks at h
    rw [if_pos (List.isEmpty_iff.2 hempty)] at h
    cases h
    rw [hempty] at hhooks
    exact ⟨rfl, rfl, hempty.trans (List.append_eq_nil_iff.1 hhooks.symm).2.symm⟩
  · have hcalm := calm_beforeHooks g kind? s
    have hwaiting : (s.beforeHooks g kind?).hooks =
        bodies.map (Hook.mk (s.beforeHooks g kind?).level) ++ outer := by
      rw [hcalm.hooks, hcalm.level]
      exact hhooks
    rw [runLevelHooks_eq (rounds_pos hempty h),
      runHooksFrom_eq_inTurn hhook hwaiting (hcalm.level ▸ houter)] at h
    split at h
    · obtain ⟨⟨n?, t⟩, ht, rfl⟩ := Option.map_eq_some_iff.1 h
      have hturn := adds_runInTurn hhook hwaiting ht
      have hsame := Adds.calm hcalm
      exact ⟨hturn.level.trans hsame.level, hturn.levels.trans hsame.levels, hturn.hooks⟩
    · cases h

end Session

/-! ## Runs with hooks -/

/-- From `s` to `s'` sections are entered and left in pairs, and `bodies` are left as hooks to the section that
is innermost before and after, the latest first. Only what is `mild` is left as a hook, and running it leaves
the sections and hooks alone. -/
inductive HookedRun (mild : Expr → Prop) (g : Setup) : List Expr → Session → Session → Prop
  /-- Tests, reports and work on markers. -/
  | aside {s s' : Session} (h : s.Adds [] s') : HookedRun mild g [] s s'
  | trans {bodies later : List Expr} {s s₁ s₂ : Session} (h : HookedRun mild g bodies s s₁)
    (h' : HookedRun mild g later s₁ s₂) : HookedRun mild g (later ++ bodies) s s₂
  | hook {body : Expr} (hmild : mild body) (s : Session) : HookedRun mild g [body] s (s.addHook body)
  | inside {sort : SectionSort} {run : Runner} {asked : RuleRef → Nat → Session → List Expr}
    {hook : HookRunner} {rounds : Nat} {kind : Option Kind} {result pinned : Bool}
    {eatMore : Option RuleRef} {bodies : List Expr} {s s₁ s₂ : Session}
    (hrun : ∀ rule level t b t', t.HooksOpen → run rule level t = some (b, t') →
      HookedRun mild g (asked rule level t) t t')
    (hhook : ∀ body, mild body → hook.KeepsAside body)
    (h : HookedRun mild g bodies (sort.enter g s).2 s₁)
    (hleave : sort.leave g run hook rounds (sort.enter g s).1 kind result pinned eatMore s₁ = some s₂) :
    HookedRun mild g [] s s₂

variable {mild : Expr → Prop} {g : Setup} {s s₁ s' u : Session} {bodies : List Expr}

theorem HookedRun.mild_of_mem (h : HookedRun mild g bodies s s') : ∀ body ∈ bodies, mild body := by
  induction h with
  | aside => exact fun _ hb => nomatch hb
  | trans _ _ ih ih' => exact fun body hb => (List.mem_append.1 hb).elim (ih' body) (ih body)
  | hook hmild => exact fun body hb => List.mem_singleton.1 hb ▸ hmild
  | inside => exact fun _ hb => nomatch hb

namespace SectionSort

variable {sort : SectionSort} {run : Runner} {hook : HookRunner} {rounds : Nat} {m : Marker}
  {kind : Option Kind} {result pinned : Bool} {eatMore : Option RuleRef}

/-- Inside a section it counts as one more, and its frame is the innermost one. -/
theorem adds_enter (sort : SectionSort) (g : Setup) (s : Session) :
    (sort.enter g s).2.level = s.level + 1 ∧ (sort.enter g s).2.hooks = s.hooks ∧
      (sort.enter g s).2.frames.map Frame.level =
        match sort with
        | simple => s.frames.map Frame.level
        | framed level .. => level :: s.frames.map Frame.level := by
  have hagain := Session.Adds.of_work (Work.reportAgain (g := g) s)
  have hlevel : (s.entering g).level = s.level + 1 := congrArg (· + 1) hagain.level
  have hopen := Session.Adds.openMarker g (s.entering g)
  cases sort with
  | simple =>
    exact ⟨hopen.level.trans hlevel, hopen.hooks.trans hagain.hooks, hopen.levels.trans hagain.levels⟩
  | framed level modifiers early name =>
    have henter := Session.Adds.steady (Session.steady_enter g level modifiers early name s)
    refine ⟨henter.level.trans hlevel, henter.hooks.trans hagain.hooks, henter.levels.trans ?_⟩
    exact congrArg (level :: ·) hagain.levels

/-- The frame of a section stays on top of those around while it is innermost. -/
theorem onTop_of_adds (hbody : (sort.enter g s).2.Adds bodies s₁) : sort.OnTop s₁ := by
  obtain ⟨-, -, hlevels⟩ := sort.adds_enter g s
  cases sort with
  | simple => trivial
  | framed level modifiers early name =>
    obtain ⟨frame, frames, hframes, hlevel, -⟩ := List.map_eq_cons_iff.1 (hbody.levels.trans hlevels)
    exact ⟨frame, frames, hframes, hlevel⟩

/-- What was left as hooks inside waits for the section when its marker is settled. -/
theorem adds_shape (hbody : (sort.enter g s).2.Adds bodies s₁) (m : Marker) (kind : Option Kind)
    (result pinned : Bool) :
    { s with level := s.level + 1 }.Adds bodies (sort.shape g m kind result pinned s₁) := by
  obtain ⟨hlevel, hhooks, hlevels⟩ := sort.adds_enter g s
  have hlevel₁ : s₁.level = s.level + 1 := hbody.level.trans hlevel
  have hhooks₁ : s₁.hooks = bodies.map (Hook.mk (s.level + 1)) ++ s.hooks := by
    rw [hbody.hooks, hlevel, hhooks]
  have hlevels₁ := hbody.levels.trans hlevels
  cases sort with
  | simple =>
    have hclose := Session.Unrecorded.closeMarker m kind result s₁
    exact ⟨hclose.level.trans hlevel₁, hclose.levels.trans hlevels₁, hclose.hooks.trans hhooks₁⟩
  | framed level modifiers early name =>
    obtain ⟨frame, frames, hframes, -, hrest⟩ := List.map_eq_cons_iff.1 hlevels₁
    have hshape := Session.Unrecorded.shape g frame frames m kind result pinned s₁
    rw [shape, hframes]
    exact ⟨hshape.level.trans hlevel₁, hshape.levels.trans hrest, hshape.hooks.trans hhooks₁⟩

theorem exists_settle (htop : sort.OnTop s)
    (hrun : ∀ rule level t b t', t.HooksOpen → run rule level t = some (b, t') →
      ∃ later, HookedRun mild g later t t' ∧ t.Adds later t')
    (hs : (sort.shape g m kind result pinned s).HooksOpen)
    (hsettle : sort.settle g run rounds m kind result pinned eatMore s = some u) :
    ∃ later, HookedRun mild g later (sort.shape g m kind result pinned s) u ∧
      (sort.shape g m kind result pinned s).Adds later u := by
  cases sort with
  | simple =>
    obtain rfl := Option.some.inj hsettle
    exact ⟨[], .aside (.refl _), .refl _⟩
  | framed level modifiers early name =>
    obtain ⟨frame, frames, hframes, -⟩ := htop
    simp only [shape, hframes] at hs ⊢
    simp only [settle, hframes] at hsettle
    refine Session.settleErrors_keeps
      (I := fun t => ∃ later, HookedRun mild g later _ t ∧ Session.Adds later _ t)
      (fun hu haside => ?_) (fun hu hr => ?_) ⟨[], .aside (.refl _), .refl _⟩ hsettle
    · obtain ⟨later, h, hadds⟩ := hu
      exact ⟨later, h.trans (.aside haside), hadds.trans haside⟩
    · obtain ⟨later, h, hadds⟩ := hu
      obtain ⟨more, h', hadds'⟩ := hrun _ _ _ _ _ (hadds.hooksOpen hs) hr
      exact ⟨more ++ later, h.trans h', hadds.trans hadds'⟩

end SectionSort

namespace SectionSort

variable {sort : SectionSort} {run : Runner} {hook : HookRunner} {rounds : Nat} {kind : Option Kind}
  {result pinned : Bool} {eatMore : Option RuleRef}

/-- No hook that waited before waits for the section. -/
theorem level_lt_of_adds (hs : s.HooksOpen) (h : { s with level := s.level + 1 }.Adds bodies u) :
    ∀ x ∈ s.hooks, x.level < u.level := by
  intro x hx
  rw [h.level]
  exact Nat.lt_succ_of_le (hs x hx)

section
variable (hs : s.HooksOpen)
  (hrun : ∀ rule level t b t', t.HooksOpen → run rule level t = some (b, t') →
    ∃ later, HookedRun mild g later t t' ∧ t.Adds later t')
  (hbody : HookedRun mild g bodies (sort.enter g s).2 s₁) (hadds : (sort.enter g s).2.Adds bodies s₁)
include hs hrun hbody hadds

/-- When the hooks of a section are run, those on top were left to it, and the others wait for sections
further out. -/
theorem exists_waiting
    (hsettle : sort.settle g run rounds (sort.enter g s).1 kind result pinned eatMore s₁ = some u) :
    ∃ later, HookedRun mild g later (sort.shape g (sort.enter g s).1 kind result pinned s₁) u ∧
      { s with level := s.level + 1 }.Adds (later ++ bodies) u ∧ ∀ body ∈ later ++ bodies, mild body := by
  have hshape := adds_shape hadds (sort.enter g s).1 kind result pinned
  have hopen : Session.HooksOpen { s with level := s.level + 1 } := fun x hx => Nat.le_succ_of_le (hs x hx)
  obtain ⟨later, hlater, hsettled⟩ := exists_settle (onTop_of_adds hadds) hrun (hshape.hooksOpen hopen) hsettle
  refine ⟨later, hlater, hshape.trans hsettled, fun body hb => ?_⟩
  exact (List.mem_append.1 hb).elim (hlater.mild_of_mem body) (hbody.mild_of_mem body)

/-- When a section is left, the sections around and their hooks are what they were when it was entered. -/
theorem adds_leave (hhook : ∀ body, mild body → hook.KeepsAside body)
    (hleave : sort.leave g run hook rounds (sort.enter g s).1 kind result pinned eatMore s₁ = some s') :
    s.Adds [] s' := by
  rw [leave_eq (onTop_of_adds hadds)] at hleave
  obtain ⟨u, hu, hleave⟩ := Option.bind_eq_some_iff.1 hleave
  obtain ⟨v, hv, rfl⟩ := Option.map_eq_some_iff.1 hleave
  obtain ⟨later, -, hall, hmild⟩ := exists_waiting hs hrun hbody hadds hu
  have hlast : Session.Adds [] { u with hooks := s.hooks } v :=
    Session.adds_runLevelHooks (fun body hb => hhook body (hmild body hb))
      (by rw [hall.level]; exact hall.hooks) (level_lt_of_adds hs hall) hv
  refine ⟨?_, hlast.levels.trans hall.levels, hlast.hooks⟩
  show v.level - 1 = s.level
  rw [hlast.level]
  exact congrArg (· - 1) hall.level

end

end SectionSort

/-- A run puts its own hooks on top of those that wait, and leaves the sections that are open as they are. -/
theorem HookedRun.adds (h : HookedRun mild g bodies s s') (hs : s.HooksOpen) : s.Adds bodies s' := by
  induction h with
  | aside h => exact h
  | trans _ _ ih ih' =>
    have hfirst := ih hs
    exact hfirst.trans (ih' (hfirst.hooksOpen hs))
  | hook _ s => exact .addHook _ s
  | @inside sort _ _ _ _ _ _ _ _ _ s _ _ hrun hhook hbody hleave ihrun ih =>
    have hopen : (sort.enter g s).2.HooksOpen := sort.hooksOpen_enter hs
    exact SectionSort.adds_leave hs (fun rule level t b t' ht hr =>
      ⟨_, hrun rule level t b t' ht hr, ihrun rule level t b t' ht hr ht⟩) hbody (ih hopen) hhook hleave

/-- The hooks of a section are those that were left to it inside and while it is settled. When it is left they
are run in turn, the latest first, each with what the one before it returned, and the first one with nothing if
the section produced nothing. The hooks of the sections around wait meanwhile and afterwards. -/
theorem SectionSort.hooks_run_in_turn {sort : SectionSort} {run : Runner} {hook : HookRunner} {rounds : Nat}
    {kind : Option Kind} {result pinned : Bool} {eatMore : Option RuleRef} (hs : s.HooksOpen)
    (hrun : ∀ rule level t b t', t.HooksOpen → run rule level t = some (b, t') →
      ∃ later, HookedRun mild g later t t')
    (hhook : ∀ body, mild body → hook.KeepsAside body)
    (hbody : HookedRun mild g bodies (sort.enter g s).2 s₁)
    (hsettle : sort.settle g run rounds (sort.enter g s).1 kind result pinned eatMore s₁ = some u) :
    ∃ later, HookedRun mild g later (sort.shape g (sort.enter g s).1 kind result pinned s₁) u ∧
      u.level = s.level + 1 ∧ u.hooks = (later ++ bodies).map (Hook.mk u.level) ++ s.hooks ∧
      ((later ++ bodies).length < rounds →
        let kind? := sort.producedKind? kind result pinned s₁
        sort.leave g run hook rounds (sort.enter g s).1 kind result pinned eatMore s₁ =
          ((u.beforeHooks g kind?).runInTurn hook (later ++ bodies) (u.givenFirst kind?)).map
            fun x => x.2.closeLevel) ∧
      ∀ s', sort.leave g run hook rounds (sort.enter g s).1 kind result pinned eatMore s₁ = some s' →
        s'.level = s.level ∧ s'.hooks = s.hooks := by
  have hrun' (rule : RuleRef) (level : Nat) (t : Session) (b : Bool) (t' : Session) (ht : t.HooksOpen)
      (hr : run rule level t = some (b, t')) : ∃ later, HookedRun mild g later t t' ∧ t.Adds later t' := by
    obtain ⟨later, h⟩ := hrun rule level t b t' ht hr
    exact ⟨later, h, h.adds ht⟩
  have hadds := hbody.adds (sort.hooksOpen_enter hs)
  obtain ⟨later, hlater, hall, hmild⟩ := exists_waiting hs hrun' hbody hadds hsettle
  have hwait : u.hooks = (later ++ bodies).map (Hook.mk u.level) ++ s.hooks := by
    rw [hall.level]
    exact hall.hooks
  refine ⟨later, hlater, hall.level, hwait, fun hrounds => ?_, fun s' hleave => ?_⟩
  · rw [leave_eq (onTop_of_adds hadds), hsettle, Option.bind_some,
      Session.runLevelHooks_eq_inTurn (fun body hb => hhook body (hmild body hb)) hwait
        (level_lt_of_adds hs hall) hrounds, Option.map_map]
    rfl
  · have hlast := adds_leave hs hrun' hbody hadds hhook hleave
    exact ⟨hlast.level, hlast.hooks⟩

/-! ## What runs with hooks are made of -/

/-- Balanced runs leave no hooks. -/
theorem BalancedRun.hooked (h : BalancedRun (fun _ => true) g s s') (hs : s.HooksOpen) :
    HookedRun mild g [] s s' :=
  .aside (.of_work (h.work hs))

/-- What the items of a group leave as hooks waits for the section around it. -/
theorem HookedRun.exists_groupRun {run : Runner} {rounds level : Nat} {kind : Kind} {minds b : Bool}
    {item eatMore : RuleRef} (hs : s.HooksOpen)
    (hrun : ∀ rule level t b t', t.HooksOpen → run rule level t = some (b, t') →
      ∃ later, HookedRun mild g later t t')
    (h : s.groupRun g run rounds level kind minds item eatMore = some (b, s')) :
    ∃ later, HookedRun mild g later s s' := by
  refine Session.groupRun_keeps (I := fun t => ∃ later, HookedRun mild g later s t)
    (fun ⟨later, h⟩ haside => ⟨later, h.trans (.aside haside)⟩)
    (fun ⟨later, h⟩ hr => ?_) ⟨[], .aside (.refl s)⟩ h
  obtain ⟨more, h'⟩ := hrun _ _ _ _ _ ((h.adds hs).hooksOpen hs) hr
  exact ⟨more ++ later, h.trans h'⟩

namespace SectionSort

open Session (start)
open Grammar (eval runRef runHook)

/-- A name, and no rules. -/
def nameOnly : Setup where
  source := { text := "a", tokens := [⟨⟨3⟩, ⟨0, 1⟩⟩] }
  language := LanguageTable.toBareLanguage {}

/-- A hook that puts a node around the one it is given. -/
def wrapIn (kind : Kind) : Expr := .seq (.prim (.wrap "m" "m")) (.prim (.commit "m" kind))

/-- The section of a name. -/
def nameSection : SectionSort := .framed 2 {} (some ⟨24⟩) none

/-- The name is inside another section, to which a hook was left. -/
def beforeName : Session :=
  ((framed 1 {} (some ⟨21⟩) none).enter nameOnly (start default none)).2.addHook (wrapIn ⟨26⟩)

/-- Two hooks are left to the section of the name, before it is consumed. -/
def insideName : Session :=
  ((((nameSection.enter nameOnly beforeName).2.addHook (wrapIn ⟨23⟩)).addHook (wrapIn ⟨22⟩)).take
    nameOnly ⟨3⟩).2

/-- Both hooks of the name put a node around it, the one that was left first around that of the other. -/
theorem hooks_run_in_turn_wrapping :
    ∃ u v, nameSection.settle nameOnly (runRef nameOnly (eval nameOnly 9)) 9
        (nameSection.enter nameOnly beforeName).1 none true false none insideName = some u ∧
      (u.beforeHooks nameOnly (some ⟨24⟩)).runInTurn (runHook (eval nameOnly 9))
        [wrapIn ⟨22⟩, wrapIn ⟨23⟩] (some (nameSection.enter nameOnly beforeName).1) = some v ∧
      nameSection.leave nameOnly (runRef nameOnly (eval nameOnly 9)) (runHook (eval nameOnly 9)) 9
        (nameSection.enter nameOnly beforeName).1 none true false none insideName = some v.2.closeLevel ∧
      v.2.closeLevel.hooks = [⟨1, wrapIn ⟨26⟩⟩] ∧
      v.2.log.committedNodes.map (·.kind) = [some ⟨23⟩, some ⟨22⟩, some ⟨24⟩] := by
  have hg : nameOnly.grammar.Balanced fun _ => true := by decide
  have hopen : beforeName.HooksOpen := fun h hh => by
    obtain rfl := List.mem_singleton.1 hh
    exact Nat.le_refl _
  have hmild (kind : Kind) : (fun e : Expr => e.keepsAside = true) (wrapIn kind) := rfl
  have hbody : HookedRun (fun e => e.keepsAside = true) nameOnly [wrapIn ⟨22⟩, wrapIn ⟨23⟩]
      (nameSection.enter nameOnly beforeName).2 insideName := by
    refine .trans ?_ (.aside (.calm (.take nameOnly _ ⟨3⟩)))
    exact .trans (.hook (hmild ⟨23⟩) _) (.hook (hmild ⟨22⟩) _)
  have hrun : ∃ u v, nameSection.settle nameOnly (runRef nameOnly (eval nameOnly 9)) 9
        (nameSection.enter nameOnly beforeName).1 none true false none insideName = some u ∧
      (u.beforeHooks nameOnly (some ⟨24⟩)).runInTurn (runHook (eval nameOnly 9))
        [wrapIn ⟨22⟩, wrapIn ⟨23⟩] (some (nameSection.enter nameOnly beforeName).1) = some v ∧
      v.2.log.committedNodes.map (·.kind) = [some ⟨23⟩, some ⟨22⟩, some ⟨24⟩] ∧
      u.hooks.length = 3 ∧ beforeName.hooks = [⟨1, wrapIn ⟨26⟩⟩] ∧
      u.givenFirst (some ⟨24⟩) = some (nameSection.enter nameOnly beforeName).1 :=
    ⟨_, _, rfl, rfl, rfl, rfl, rfl, rfl⟩
  obtain ⟨u, v, hu, hv, hnodes, hlength, houter, hgiven⟩ := hrun
  obtain ⟨later, -, -, hwait, hleave, haround⟩ := hooks_run_in_turn hopen
    (fun rule level t b t' ht hr => ⟨[], (Grammar.balanced hg 9 rule level t b t' hr).hooked ht⟩)
    (fun body => Grammar.keepsAside_runHook nameOnly 9) hbody hu
  obtain rfl : later = [] := by
    rw [hwait, houter] at hlength
    exact List.length_eq_zero_iff.1 (by simpa using hlength)
  have hleave := hleave (by decide)
  have hkind : nameSection.producedKind? none true false insideName = some ⟨24⟩ := rfl
  simp only [hkind, hgiven, List.nil_append, hv, Option.map_some] at hleave
  exact ⟨u, v, hu, hv, hleave, (haround _ hleave).2.trans houter, hnodes⟩

end SectionSort

end Descent
