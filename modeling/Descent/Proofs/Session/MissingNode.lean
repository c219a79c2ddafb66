import Descent.Proofs.Session.HookTurns

/-!
# Sections without hooks

Before hooks are run there has to be a node for the first one, if the section produced a kind. This is looked
into wherever a hook waits, even if all hooks wait for sections further out. So a section to which no hook was
left ends the session if it produced a kind while no node is committed in the whole session
(`SectionSort.raises_without_hooks_iff`), as a section can do that hands on its kind. A section that commits a
node of its own does not (`SectionSort.leave_of_commitsOwn`).
-/

namespace Descent

theorem MarkerLog.lastCommitted?_eq_none_iff {log : MarkerLog} (h : log.Sound) :
    log.lastCommitted? = none ↔ ∀ m, log.isCommitted m = false := by
  rw [lastCommitted?, List.findSome?_eq_none_iff]
  constructor
  · intro hnone m
    by_contra hm
    rw [Bool.not_eq_false] at hm
    have hentry := hnone (.commit m) (h.commit_mem_of_committed (isCommitted_iff_stage?.1 hm))
    simp [hm] at hentry
  · intro hnone e _
    cases e with
    | commit m => simp [hnone m]
    | _ => rfl

namespace Session

variable {g : Setup} {s : Session} {kind? : Option Kind}

/-- A hook waits, whatever section it waits for, and there is a kind but no node. -/
def MissesNode (kind? : Option Kind) (s : Session) : Prop :=
  s.hooks ≠ [] ∧ kind?.isSome = true ∧ s.log.lastCommitted? = none

theorem beforeHooks_of_not_missesNode (h : ¬s.MissesNode kind?) : s.beforeHooks g kind? = s := by
  unfold beforeHooks
  split
  · next hlast =>
    split
    · rfl
    · next hhooks =>
      exact absurd ⟨mt List.isEmpty_iff.2 hhooks, rfl, hlast⟩ h
  · rfl

theorem beforeHooks_of_missesNode (g : Setup) (h : s.MissesNode kind?) :
    ∃ kind offset, s.beforeHooks g kind? = (s.toSignificant g).abort g (.nothingCommitted kind offset) := by
  obtain ⟨hhooks, hkind, hlast⟩ := h
  obtain ⟨kind, rfl⟩ := Option.isSome_iff_exists.1 hkind
  refine ⟨g.language.nameOf kind, (s.toSignificant g).offset g, ?_⟩
  unfold beforeHooks
  rw [hlast]
  exact if_neg (mt List.isEmpty_iff.1 hhooks)

/-- Only the first fatal error counts. -/
theorem aborted_abort (g : Setup) (error : Fatal) (s : Session) :
    s.aborted ≠ none ∧ (s.abort g error).aborted = s.aborted ∨
      s.aborted = none ∧ (s.abort g error).aborted.map (·.error) = some error := by
  unfold abort isAborted
  cases hs : s.aborted with
  | none => exact .inr ⟨rfl, rfl⟩
  | some a => exact .inl ⟨nofun, hs⟩

/-- Where a node is missing a fatal error is raised, if it is the first. -/
theorem aborted_beforeHooks (g : Setup) (kind? : Option Kind) (s : Session) :
    ((s.beforeHooks g kind?).aborted = s.aborted ∨ ∃ kind offset,
        (s.beforeHooks g kind?).aborted.map (·.error) = some (.nothingCommitted kind offset)) ∧
      ((s.beforeHooks g kind?).aborted ≠ s.aborted ↔ s.aborted = none ∧ s.MissesNode kind?) := by
  by_cases h : s.MissesNode kind?
  · obtain ⟨kind, offset, heq⟩ := beforeHooks_of_missesNode g h
    rw [heq]
    obtain ⟨hsome, hsame⟩ | ⟨hnone, hraised⟩ :=
      aborted_abort g (.nothingCommitted kind offset) (s.toSignificant g)
    · exact ⟨.inl hsame, fun hne => absurd hsame hne, fun hs => absurd hs.1 hsome⟩
    · refine ⟨.inr ⟨kind, offset, hraised⟩, fun _ => ⟨hnone, h⟩, fun _ hsame => ?_⟩
      rw [hsame, show s.aborted = none from hnone] at hraised
      cases hraised
  · rw [beforeHooks_of_not_missesNode h]
    exact ⟨.inl rfl, fun hne => absurd rfl hne, fun hs => absurd hs.2 h⟩

end Session

namespace SectionSort

variable {mild : Expr → Prop} {g : Setup} {s s₁ u : Session} {sort : SectionSort} {run : Runner}
  {rounds : Nat} {m : Marker} {kind : Option Kind} {result pinned : Bool} {eatMore : Option RuleRef}

/-- Nothing is run if all hooks wait for sections further out. -/
theorem leave_without_hooks (htop : sort.OnTop s)
    (hsettle : sort.settle g run rounds m kind result pinned eatMore s = some u)
    (hhooks : ∀ h ∈ u.hooks, h.level < u.level) (hrounds : 0 < rounds) (hook : HookRunner) :
    sort.leave g run hook rounds m kind result pinned eatMore s =
      some (u.beforeHooks g (sort.producedKind? kind result pinned s)).closeLevel := by
  rw [leave_eq htop, hsettle, Option.bind_some, Session.runLevelHooks_of_outer hhooks hrounds]
  rfl

/-- A section to which no hook was left runs none, and those of the sections around still wait. It ends the
session just if any of these waits and the section produced a kind, but no node is committed anywhere. -/
theorem raises_without_hooks_iff (hs : s.HooksOpen)
    (hrun : ∀ rule level t b t', t.HooksOpen → run rule level t = some (b, t') →
      ∃ later, HookedRun mild g later t t')
    (hbody : HookedRun mild g [] (sort.enter g s).2 s₁)
    (hsettle : sort.settle g run rounds (sort.enter g s).1 kind result pinned eatMore s₁ = some u)
    (hhooks : u.hooks = s.hooks) (hsound : u.log.Sound) (hrounds : 0 < rounds) :
    ∃ s', (∀ hook, sort.leave g run hook rounds (sort.enter g s).1 kind result pinned eatMore s₁ = some s') ∧
      s'.level = s.level ∧ s'.hooks = s.hooks ∧
      (s'.aborted = u.aborted ∨ ∃ kind offset,
        s'.aborted.map (·.error) = some (.nothingCommitted kind offset)) ∧
      (s'.aborted ≠ u.aborted ↔
        u.aborted = none ∧ s.hooks ≠ [] ∧ (sort.producedKind? kind result pinned s₁).isSome = true ∧
          ∀ n, u.log.isCommitted n = false) := by
  have hadds := hbody.adds (sort.hooksOpen_enter hs)
  obtain ⟨later, -, hall, -⟩ := exists_waiting hs (fun rule level t b t' ht hr =>
    (hrun rule level t b t' ht hr).imp fun _ h => ⟨h, h.adds ht⟩) hbody hadds hsettle
  have hlevel : ∀ h ∈ u.hooks, h.level < u.level := by
    rw [hhooks]
    exact level_lt_of_adds hs hall
  have hcalm := Session.calm_beforeHooks g (sort.producedKind? kind result pinned s₁) u
  obtain ⟨herror, hraised⟩ := Session.aborted_beforeHooks g (sort.producedKind? kind result pinned s₁) u
  refine ⟨_, leave_without_hooks (onTop_of_adds hadds) hsettle hlevel hrounds, ?_, hcalm.hooks.trans hhooks,
    herror, ?_⟩
  · show Session.level _ - 1 = s.level
    rw [hcalm.level, hall.level]
    rfl
  · rw [← MarkerLog.lastCommitted?_eq_none_iff hsound, ← hhooks]
    exact hraised

/-- A section that commits a node of its own, which stays or gives way to another one, only closes when no hook
was left to it. -/
theorem leave_of_commitsOwn {k : Kind} (hs : sort.CanCommit g m s) (hown : sort.CommitsOwn s)
    (hstays : sort.stays result pinned = true) (hkind : sort.commitKind? g m kind result pinned s = some k)
    (hrun : run.Leads) (hkeeps : sort.KeepsLast g run rounds m kind result pinned eatMore s)
    (hsettle : sort.settle g run rounds m kind result pinned eatMore s = some u)
    (hhooks : ∀ h ∈ u.hooks, h.level < u.level) (hrounds : 0 < rounds) (hook : HookRunner) :
    sort.leave g run hook rounds m kind result pinned eatMore s = some u.closeLevel := by
  obtain ⟨x, info, -, -, -, -, -, n, stop, hlast, -⟩ :=
    exists_staysLast hs hown hstays hkind hrun hkeeps hsettle
  have htop : sort.OnTop s := by
    cases sort with
    | simple => trivial
    | framed level modifiers early name =>
      obtain ⟨frame, frames, hframes, hlevel, -⟩ := hs
      exact ⟨frame, frames, hframes, hlevel⟩
  rw [leave_without_hooks htop hsettle hhooks hrounds, Session.beforeHooks_of_not_missesNode]
  rintro ⟨-, -, hnone⟩
  rw [hlast] at hnone
  cases hnone

open Session (start)
open Grammar (eval runRef)

/-- A name is to be consumed inside a section that leaves no node and to which a hook was left. -/
def besideHook : Session :=
  ((framed 1 {} none none).enter nameOnly (start default none)).2.addHook (.const true)

/-- The name is consumed inside a section. -/
def nameConsumed (sort : SectionSort) : Session := ((sort.enter nameOnly besideHook).2.take nameOnly ⟨3⟩).2

theorem hooksOpen_besideHook : besideHook.HooksOpen := fun h hh => by
  obtain rfl := List.mem_singleton.1 hh
  exact Nat.le_refl _

theorem hookedRun_nameConsumed (sort : SectionSort) :
    HookedRun mild nameOnly [] (sort.enter nameOnly besideHook).2 (nameConsumed sort) :=
  .aside (.calm (.take nameOnly _ ⟨3⟩))

/-- A section that commits the name is left without a fatal error, though a hook waits. -/
theorem raises_without_hooks_iff_name :
    ∃ u s', nameSection.settle nameOnly (runRef nameOnly (eval nameOnly 9)) 9
        (nameSection.enter nameOnly besideHook).1 none true false none (nameConsumed nameSection) = some u ∧
      (∀ hook, nameSection.leave nameOnly (runRef nameOnly (eval nameOnly 9)) hook 9
        (nameSection.enter nameOnly besideHook).1 none true false none (nameConsumed nameSection) =
          some s') ∧
      s'.hooks = [⟨1, .const true⟩] ∧ u.aborted = none ∧ s'.aborted = none := by
  have hg : nameOnly.grammar.Balanced fun _ => true := by decide
  have hrun : ∃ u, nameSection.settle nameOnly (runRef nameOnly (eval nameOnly 9)) 9
        (nameSection.enter nameOnly besideHook).1 none true false none (nameConsumed nameSection) = some u ∧
      u.hooks = besideHook.hooks ∧ u.aborted = none ∧ u.log.isCommitted ⟨1⟩ = true ∧
      u.log = ((({} : MarkerLog).openAt 0).2.openAt 0).2.commit ⟨1⟩ ⟨24⟩ none 1 :=
    ⟨_, rfl, rfl, rfl, rfl, rfl⟩
  obtain ⟨u, hu, hhooks, hnone, hcommitted, hlog⟩ := hrun
  have hsound : u.log.Sound := by
    rw [hlog]
    exact ((MarkerLog.Sound.empty.openAt 0).openAt 0).commit ..
  have hasked (rule : RuleRef) (level : Nat) (t : Session) (b : Bool) (t' : Session) (ht : t.HooksOpen)
      (hr : runRef nameOnly (eval nameOnly 9) rule level t = some (b, t')) :
      ∃ later, HookedRun (fun _ => True) nameOnly later t t' :=
    ⟨[], (Grammar.balanced hg 9 rule level t b t' hr).hooked ht⟩
  obtain ⟨s', hleave, -, hwait, -, hraised⟩ := raises_without_hooks_iff hooksOpen_besideHook hasked
    (hookedRun_nameConsumed nameSection) hu hhooks hsound (by decide)
  refine ⟨u, s', hu, hleave, hwait, hnone, ?_⟩
  by_contra hne
  obtain ⟨-, -, -, hno⟩ := hraised.1 (hnone ▸ hne)
  rw [hno] at hcommitted
  cases hcommitted

/-- A section that hands on its kind. -/
def handing : SectionSort := .framed 2 { upper := true } none none

/-- A section inside that hands on its kind ends the session, though no hook was left to it. -/
theorem raised_without_hooks :
    besideHook.HooksOpen ∧
      HookedRun (fun _ => True) nameOnly [] (handing.enter nameOnly besideHook).2 (nameConsumed handing) ∧
      ∃ u s' a, handing.settle nameOnly (runRef nameOnly (eval nameOnly 9)) 9
          (handing.enter nameOnly besideHook).1 (some ⟨24⟩) true false none (nameConsumed handing) = some u ∧
        u.hooks = besideHook.hooks ∧ u.aborted = none ∧
        (∀ hook, handing.leave nameOnly (runRef nameOnly (eval nameOnly 9)) hook 9
          (handing.enter nameOnly besideHook).1 (some ⟨24⟩) true false none (nameConsumed handing) =
            some s') ∧
        s'.aborted = some a ∧ ∃ kind, a.error = .nothingCommitted kind 1 :=
  ⟨hooksOpen_besideHook, hookedRun_nameConsumed _, _, _, _, rfl, rfl, rfl, fun _ => rfl, rfl, _, rfl⟩

end SectionSort

end Descent
