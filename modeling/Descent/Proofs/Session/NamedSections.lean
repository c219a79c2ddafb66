import Descent.Proofs.Grammar.Calls
import Descent.Proofs.Session.Concurring
import Descent.Proofs.Session.PairedRuns
import Descent.Proofs.Session.QuietRecovery
import Descent.Proofs.Session.Tallies

/-!
# Names of sections

A session in which sections are entered and left in pairs is tallied all the time: on the way from one state to
another, when rules are asked for items, and when rules and hooks are run while a section is left
(`Session.Reached.talliedAs`). So in all these states the counts of the open sections ascend, and when the name of a
section takes the place of its attempts, it comes behind all those that were recorded before the section and are
still there, and behind no others (`Session.Reached.replaces_own`).
-/

namespace Descent

open Attempts (Baseline)
open Session (Tallied Uncounted)

/-- A baseline keeps what was there, and its count is lost when the attempts are cleared. -/
structure Attempts.Baseline.Becomes (b b' : Baseline) : Prop where
  entries : b'.entries = b.entries
  count : b'.count ≤ b.count

/-- The session is tallied with what the baselines have become, and only fair hooks wait. -/
structure Session.TalliedAs (fair : Expr → Prop) (g : Setup) (cs : List Baseline) (s : Session) : Prop where
  tallied : ∃ bs, Tallied g bs s ∧ List.Forall₂ Baseline.Becomes cs bs
  hooks : ∀ h ∈ s.hooks, fair h.body

/-- The baselines inside a section. -/
def SectionSort.baselines (attempts : Attempts) (cs : List Baseline) : SectionSort → List Baseline
  | simple => cs
  | framed .. => attempts.baseline :: cs

variable {fair : Expr → Prop} {g : Setup} {limits : Limits} {caret : Option Nat} {s s₀ s' t : Session}
  {b c : Baseline} {bs cs ds : List Baseline} {frame : Frame} {frames : List Frame} {run run' : Runner}
  {hook hook' : HookRunner} {rounds level : Nat} {m : Marker} {kind : Option Kind} {result pinned : Bool}
  {eatMore : Option RuleRef}

namespace Attempts.Baseline.Becomes

theorem refl (b : Baseline) : b.Becomes b := ⟨rfl, Nat.le_refl _⟩

theorem trans {b₁ b₂ b₃ : Baseline} (h : b₁.Becomes b₂) (h' : b₂.Becomes b₃) : b₁.Becomes b₃ :=
  ⟨h'.entries.trans h.entries, Nat.le_trans h'.count h.count⟩

theorem giveUp (b : Baseline) (given : List Attempt) : b.Becomes (b.giveUp given) := ⟨rfl, Nat.le_refl _⟩

theorem clear (b : Baseline) : b.Becomes b.clear := ⟨rfl, Nat.zero_le _⟩

theorem forall₂_refl (bs : List Baseline) : List.Forall₂ Becomes bs bs :=
  List.forall₂_same.2 fun b _ => refl b

theorem forall₂_trans (h : List.Forall₂ Becomes bs cs) (h' : List.Forall₂ Becomes cs ds) :
    List.Forall₂ Becomes bs ds := by
  induction h generalizing ds with
  | nil => exact h'
  | cons hbc _ ih =>
    cases h' with
    | cons hcd h' => exact .cons (hbc.trans hcd) (ih h')

theorem forall₂_map (h : List.Forall₂ Becomes cs bs) {f : Baseline → Baseline}
    (hf : ∀ b : Baseline, b.Becomes (f b)) : List.Forall₂ Becomes cs (bs.map f) :=
  List.forall₂_map_right_iff.2 (h.imp fun _ b hb => hb.trans (hf b))

/-- Counts do not grow. -/
theorem count_le {n : Nat} (h : List.Forall₂ Becomes cs bs) (hcs : ∀ c ∈ cs, c.count ≤ n) :
    ∀ b ∈ bs, b.count ≤ n := by
  induction h with
  | nil => exact hcs
  | cons hb _ ih =>
    obtain ⟨hc, hcs⟩ := List.forall_mem_cons.1 hcs
    exact List.forall_mem_cons.2 ⟨Nat.le_trans hb.count hc, ih hcs⟩

end Attempts.Baseline.Becomes

namespace Session.TalliedAs

theorem start (limits : Limits) (caret : Option Nat) : (start limits caret).TalliedAs fair g [] :=
  ⟨⟨[], .start limits caret, .nil⟩, fun _ hx => nomatch hx⟩

theorem aside (h : s.TalliedAs fair g cs) (h' : s.Uncounted s') : s'.TalliedAs fair g cs := by
  obtain ⟨⟨bs, hbs, hbecomes⟩, hhooks⟩ := h
  exact ⟨⟨bs, hbs.aside h'.attempts h'.counts, hbecomes⟩, fun x hx => hhooks x (h'.hooks x hx)⟩

theorem weaken (h : s.TalliedAs fair g ds) (hcs : List.Forall₂ Baseline.Becomes cs ds) :
    s.TalliedAs fair g cs := by
  obtain ⟨⟨bs, hbs, hbecomes⟩, hhooks⟩ := h
  exact ⟨⟨bs, hbs, Baseline.Becomes.forall₂_trans hcs hbecomes⟩, hhooks⟩

theorem le_counts {n : Nat} (hbs : Tallied g bs s) (hbecomes : List.Forall₂ Baseline.Becomes cs bs)
    (hle : ∀ c ∈ cs, c.count ≤ n) : ∀ k ∈ s.counts, k ≤ n := by
  rw [← hbs.accounts.counts]
  exact List.forall_mem_map.2 (Baseline.Becomes.count_le hbecomes hle)

theorem record (h : s.TalliedAs fair g cs) (position : Nat) (target : Target) :
    (s.recordAttempt position target).TalliedAs fair g cs := by
  obtain ⟨⟨bs, hbs, hbecomes⟩, hhooks⟩ := h
  refine ⟨⟨_, hbs.record position target, Baseline.Becomes.forall₂_map hbecomes fun b => .giveUp b _⟩, ?_⟩
  unfold recordAttempt
  dsimp only
  split <;> exact hhooks

theorem addHook {body : Expr} (h : s.TalliedAs fair g cs) (hfair : fair body) :
    (s.addHook body).TalliedAs fair g cs := by
  obtain ⟨⟨bs, hbs, hbecomes⟩, hhooks⟩ := h
  exact ⟨⟨bs, hbs.aside rfl rfl, hbecomes⟩, List.forall_mem_cons.2 ⟨hfair, hhooks⟩⟩

/-! ## Entering and leaving -/

/-- A section with a frame takes the attempts as its baseline. -/
theorem enter (h : s.TalliedAs fair g cs) (sort : SectionSort) :
    (sort.enter g s).2.TalliedAs fair g (sort.baselines s.attempts cs) := by
  have hagain := Uncounted.reportAgain g s
  cases sort with
  | simple =>
    let deeper := { s.reportAgain g with level := (s.reportAgain g).level + 1 }
    have hdeeper : (s.reportAgain g).Uncounted deeper := .of_eq rfl rfl rfl
    exact h.aside (hagain.trans (hdeeper.trans (.openMarker g deeper)))
  | framed level modifiers kind name =>
    have hopen := hagain.trans (.openMarker g (s.reportAgain g))
    obtain ⟨⟨bs, hbs, hbecomes⟩, hhooks⟩ := h.aside hopen
    have hbaseline : s.attempts.baseline.Becomes ((s.reportAgain g).openMarker g).2.attempts.baseline := by
      rw [hopen.attempts]
      exact .refl _
    obtain ⟨-, -, hopened⟩ := openFrame_counts (g := g) level modifiers kind name ((s.reportAgain g).openMarker g).2
    exact ⟨⟨_, hbs.enter level modifiers kind name, .cons hbaseline hbecomes⟩,
      fun x hx => hhooks x (hopened x hx)⟩

/-- The name of a section takes the place of its attempts, and those around count no more than it. -/
theorem attemptsByName {stays : Bool} (h : s.TalliedAs fair g cs)
    (hle : ∀ c ∈ cs, c.count ≤ frame.attemptsBefore) :
    (s.attemptsByName g frame kind stays).2.TalliedAs fair g cs := by
  cases hname : s.nameFor? g frame kind stays with
  | none =>
    rw [attemptsByName_of_none hname]
    exact h
  | some name =>
    obtain ⟨⟨bs, hbs, hbecomes⟩, hhooks⟩ := h
    refine ⟨⟨_, hbs.name hname (le_counts hbs hbecomes hle), Baseline.Becomes.forall₂_map hbecomes fun b =>
      .giveUp b _⟩, ?_⟩
    rw [attemptsByName_eq, hname]
    exact hhooks

/-- So it is when the section clears the attempts. -/
theorem clearAttempts (h : s.TalliedAs fair g cs) (hle : ∀ c ∈ cs, c.count ≤ frame.attemptsBefore) :
    (s.clearAttempts frame).2.TalliedAs fair g cs := by
  obtain ⟨⟨bs, hbs, hbecomes⟩, hhooks⟩ := h
  exact ⟨⟨_, hbs.clear (le_counts hbs hbecomes hle), Baseline.Becomes.forall₂_map hbecomes .clear⟩, hhooks⟩

/-- When its frame is taken down, no section around counts more. -/
theorem exists_popped (h : s.TalliedAs fair g (c :: cs)) :
    ∃ frame frames ds, s.frames = frame :: frames ∧ { s with frames }.TalliedAs fair g ds ∧
      List.Forall₂ Baseline.Becomes cs ds ∧ ∀ d ∈ ds, d.count ≤ frame.attemptsBefore := by
  obtain ⟨⟨_, hbs, hbecomes⟩, hhooks⟩ := h
  cases hbecomes with
  | @cons _ b _ bs _ hbecomes =>
    cases hframes : s.frames with
    | nil =>
      have hcounts := hbs.accounts.counts
      rw [Session.counts, hframes] at hcounts
      cases hcounts
    | cons frame frames =>
      obtain ⟨haccounts, -, hle⟩ := hbs.accounts.leave hframes
      rw [← haccounts.counts] at hle
      exact ⟨frame, frames, bs, rfl, ⟨⟨bs, hbs.leave hframes, Baseline.Becomes.forall₂_refl bs⟩, hhooks⟩,
        hbecomes, List.forall_mem_map.1 hle⟩

/-- When a section is left, runners and hooks are asked in tallied sessions only, and it leaves one. -/
theorem leave (hs : s.TalliedAs fair g (c :: cs)) (hrun : ∀ ds, run.Concurs (TalliedAs fair g ds) run')
    (hhook : ∀ ds, hook.Concurs (TalliedAs fair g ds) hook') :
    Concur (TalliedAs fair g cs) (s.leave g run hook rounds level m kind result pinned eatMore)
      (s.leave g run' hook' rounds level m kind result pinned eatMore) := by
  obtain ⟨frame, frames, ds, hframes, hpop, hbecomes, hle⟩ := hs.exists_popped
  by_cases hlevel : frame.level = level
  · rw [leave_eq hframes hlevel, leave_eq hframes hlevel]
    have hshape := hpop.aside (uncounted_shape g frame frames m kind result pinned s)
    obtain ⟨error, attempt, hframe⟩ := exists_shape g frame frames m kind result pinned s
    generalize s.shape g frame frames m kind result pinned = x at hshape hframe
    have hcount : x.1.attemptsBefore = frame.attemptsBefore := hframe ▸ rfl
    have hsettle : Concur (TalliedAs fair g ds)
        (x.2.settleErrors g run rounds x.1 (frame.kind <|> kind) result pinned eatMore)
        (x.2.settleErrors g run' rounds x.1 (frame.kind <|> kind) result pinned eatMore) := by
      refine (hrun ds).settleErrors (fun ht heq => ht.clearAttempts ?_) (hshape.attemptsByName ?_)
        (attemptsBefore_attemptsByName ..)
      · rw [heq, hcount]
        exact hle
      · rw [hcount]
        exact hle
    refine hsettle.bind fun u _ hu => ((hhook ds).runLevelHooks hu).bind fun v _ hv => .some ?_
    have hclose : v.Uncounted v.closeLevel := .of_eq rfl rfl rfl
    exact (hv.aside hclose).weaken hbecomes
  · rw [leave_of_ne hframes hlevel, leave_of_ne hframes hlevel]
    exact .some ((hpop.aside (.leaveUnbalanced ..)).weaken hbecomes)

theorem leaveSort {attempts : Attempts} (sort : SectionSort)
    (hs : s.TalliedAs fair g (sort.baselines attempts cs))
    (hrun : ∀ ds, run.Concurs (TalliedAs fair g ds) run')
    (hhook : ∀ ds, hook.Concurs (TalliedAs fair g ds) hook') :
    Concur (TalliedAs fair g cs) (sort.leave g run hook rounds m kind result pinned eatMore s)
      (sort.leave g run' hook' rounds m kind result pinned eatMore s) := by
  cases sort with
  | simple => exact (hhook cs).leaveSimple hs
  | framed => exact hs.leave hrun hhook

end Session.TalliedAs

/-! ## Runs -/

/-- Two runners concur if the one keeps sessions tallied and the other gives the same answer in these. -/
theorem Runner.concurs_of_tallied
    (hkeeps : ∀ rule level t b t', run rule level t = some (b, t') →
      ∀ ds, t.TalliedAs fair g ds → t'.TalliedAs fair g ds)
    (hsame : ∀ rule level t, (∃ ds, t.TalliedAs fair g ds) → run' rule level t = run rule level t)
    (ds : List Baseline) :
    run.Concurs (Session.TalliedAs fair g ds) run' where
  aside ht h := ht.aside h
  answer rule level ht := ⟨hsame rule level _ ⟨ds, ht⟩, fun _ hy => hkeeps _ _ _ _ _ hy ds ht⟩

/-- A hook that waits is fair. -/
theorem HookRunner.concurs_of_tallied
    (hkeeps : ∀ body m? t m?' t', fair body → hook body m? t = some (m?', t') →
      ∀ ds, t.TalliedAs fair g ds → t'.TalliedAs fair g ds)
    (hsame : ∀ body m? t, (∃ ds, t.TalliedAs fair g ds) → hook' body m? t = hook body m? t)
    (ds : List Baseline) :
    hook.Concurs (Session.TalliedAs fair g ds) hook' where
  aside ht h := ht.aside h
  answer {t x hooks} m? ht hhooks := by
    have hpop : { t with hooks }.TalliedAs fair g ds :=
      ht.aside ⟨rfl, rfl, fun _ hy => hhooks ▸ List.mem_cons_of_mem x hy⟩
    have hfair : fair x.body := ht.hooks x (hhooks ▸ List.mem_cons_self)
    exact ⟨hsame _ _ _ ⟨ds, hpop⟩, fun _ hy => hkeeps _ _ _ _ _ hfair hy ds hpop⟩

/-- A paired run keeps the session tallied, and the sections that were open stay so. -/
theorem PairedRun.talliedAs (h : PairedRun fair g s s') :
    ∀ cs, s.TalliedAs fair g cs → s'.TalliedAs fair g cs := by
  induction h with
  | aside h => exact fun _ hs => hs.aside h
  | trans _ _ ih ih' => exact fun cs hs => ih' cs (ih cs hs)
  | record position target => exact fun _ hs => hs.record position target
  | hook hfair => exact fun _ hs => hs.addHook hfair
  | group _ h ih =>
    intro cs hs
    have hrun := Runner.concurs_of_tallied ih (fun _ _ _ _ => rfl) cs
    exact (hrun.groupRun hs).holds _ h
  | @inside sort _ _ _ _ _ _ _ s _ _ _ _ _ hleave ihrun ihhook ih =>
    intro cs hs
    have hbody := ih _ (hs.enter sort)
    exact (hbody.leaveSort sort (Runner.concurs_of_tallied ihrun fun _ _ _ _ => rfl)
      (HookRunner.concurs_of_tallied ihhook fun _ _ _ _ => rfl)).holds _ hleave

theorem Runner.Paired.concurs (h : run.Paired fair g)
    (hsame : ∀ rule level t, (∃ ds, t.TalliedAs fair g ds) → run' rule level t = run rule level t)
    (ds : List Baseline) : run.Concurs (Session.TalliedAs fair g ds) run' :=
  concurs_of_tallied (fun _ _ _ _ _ hr => (h _ _ _ _ _ hr).talliedAs) hsame ds

theorem HookRunner.Paired.concurs (h : hook.Paired fair g)
    (hsame : ∀ body m? t, (∃ ds, t.TalliedAs fair g ds) → hook' body m? t = hook body m? t)
    (ds : List Baseline) : hook.Concurs (Session.TalliedAs fair g ds) hook' :=
  concurs_of_tallied (fun _ _ _ _ _ hfair hr => (h _ _ _ _ _ hfair hr).talliedAs) hsame ds

namespace Session

/-- The states that a session comes to in which sections are entered and left in pairs: on its way, also inside
sections, and wherever a rule or a hook is run meanwhile. -/
inductive Reached (fair : Expr → Prop) (g : Setup) (limits : Limits) (caret : Option Nat) : Session → Prop
  | start : Reached fair g limits caret (start limits caret)
  | run {s t : Session} (h : Reached fair g limits caret s) (hrun : PairedRun fair g s t) :
    Reached fair g limits caret t
  | enter {s : Session} (h : Reached fair g limits caret s) (sort : SectionSort) :
    Reached fair g limits caret (sort.enter g s).2
  /-- A rule is run for a grouped run. -/
  | grouping {run : Runner} {rounds level at' : Nat} {kind : Kind} {minds : Bool} {item eatMore rule : RuleRef}
    {s t : Session} (h : Reached fair g limits caret s) (hrun : run.Paired fair g)
    (hasks : Asks (fun run => s.groupRun g run rounds level kind minds item eatMore) run rule at' t) :
    Reached fair g limits caret t
  /-- A rule is run when a section is left. -/
  | leaving {sort : SectionSort} {run : Runner} {hook : HookRunner} {rounds at' : Nat} {kind : Option Kind}
    {result pinned : Bool} {eatMore : Option RuleRef} {rule : RuleRef} {s s₁ t : Session}
    (h : Reached fair g limits caret s) (hrun : run.Paired fair g) (hhook : hook.Paired fair g)
    (hbody : PairedRun fair g (sort.enter g s).2 s₁)
    (hasks : Asks (fun run => sort.leave g run hook rounds (sort.enter g s).1 kind result pinned eatMore s₁) run
      rule at' t) : Reached fair g limits caret t
  /-- A hook is run when a section is left. -/
  | hooking {sort : SectionSort} {run : Runner} {hook : HookRunner} {rounds : Nat} {kind : Option Kind}
    {result pinned : Bool} {eatMore : Option RuleRef} {body : Expr} {m? : Option Marker} {s s₁ t : Session}
    (h : Reached fair g limits caret s) (hrun : run.Paired fair g) (hhook : hook.Paired fair g)
    (hbody : PairedRun fair g (sort.enter g s).2 s₁)
    (hasks : Consults (fun hook => sort.leave g run hook rounds (sort.enter g s).1 kind result pinned eatMore s₁)
      hook body m? t) : Reached fair g limits caret t

/-- All these states are tallied. -/
theorem Reached.talliedAs (h : Reached fair g limits caret s) : ∃ cs, s.TalliedAs fair g cs := by
  induction h with
  | start => exact ⟨[], .start limits caret⟩
  | run _ hrun ih =>
    obtain ⟨cs, hcs⟩ := ih
    exact ⟨cs, hrun.talliedAs cs hcs⟩
  | enter _ sort ih =>
    obtain ⟨cs, hcs⟩ := ih
    exact ⟨_, hcs.enter sort⟩
  | grouping _ hrun hasks ih =>
    obtain ⟨cs, hcs⟩ := ih
    refine hasks.of_congr (P := fun t => ∃ cs, t.TalliedAs fair g cs) fun run' hsame => ?_
    exact ((hrun.concurs hsame cs).groupRun hcs).same
  | @leaving sort _ _ _ _ _ _ _ _ _ s _ _ _ hrun hhook hbody hasks ih =>
    obtain ⟨cs, hcs⟩ := ih
    have hbody := hbody.talliedAs _ (hcs.enter sort)
    refine hasks.of_congr (P := fun t => ∃ cs, t.TalliedAs fair g cs) fun run' hsame => ?_
    exact (hbody.leaveSort sort (hrun.concurs hsame) (hhook.concurs fun _ _ _ _ => rfl)).same
  | @hooking sort _ _ _ _ _ _ _ _ _ s _ _ _ hrun hhook hbody hasks ih =>
    obtain ⟨cs, hcs⟩ := ih
    have hbody := hbody.talliedAs _ (hcs.enter sort)
    refine hasks.of_congr (P := fun t => ∃ cs, t.TalliedAs fair g cs) fun hook' hsame => ?_
    exact (hbody.leaveSort sort (hrun.concurs fun _ _ _ _ => rfl) (hhook.concurs hsame)).same

/-- Inside a section the baseline on top has the attempts that were there when the section was entered. -/
theorem Reached.exists_baseline {modifiers : Modifiers} {name : Option String}
    (h : Reached fair g limits caret s₀) (hbody : PairedRun fair g (s₀.enter g level modifiers kind name).2 s) :
    ∃ b bs, Tallied g (b :: bs) s ∧ b.entries = s₀.attempts.expected.toList := by
  obtain ⟨cs, hcs⟩ := h.talliedAs
  obtain ⟨⟨_, hbs, hbecomes⟩, -⟩ := hbody.talliedAs _ (hcs.enter (.framed level modifiers kind name))
  cases hbecomes with
  | cons hb _ => exact ⟨_, _, hbs, hb.entries⟩

/-- In whatever state a session is in which sections are entered and left in pairs, what has been given up,
replaced by the names of sections or cleared by recoveries meanwhile: the counts of the open sections ascend from the
outermost to the innermost one, and none is greater than the number of attempts. Also it is known for each open
section which attempts were there when it was entered, and which of them have been given up since. When the section
is left and its name takes the place of its attempts, exactly those are left that were there and have not been
given up, with the name behind them, at the position where the section began. -/
theorem Reached.replaces_own (h : Reached fair g limits caret s) :
    s.counts.Pairwise (fun inner outer => outer ≤ inner) ∧ (∀ n ∈ s.counts, n ≤ s.attempts.count) ∧
      (∃ bs, Tallied g bs s) ∧
      (∀ s₀ level modifiers kind name, Reached fair g limits caret s₀ →
        PairedRun fair g (s₀.enter g level modifiers kind name).2 s →
          ∃ b bs, Tallied g (b :: bs) s ∧ b.entries = s₀.attempts.expected.toList) ∧
      ∀ b bs frame frames m kind result pinned name x, Tallied g (b :: bs) s → s.frames = frame :: frames →
        s.shape g frame frames m kind result pinned = x →
        x.2.nameFor? g x.1 (frame.kind <|> kind) (result || pinned) = some name →
        x.2.lookahead.positive = true →
          ∃ list, (b.giveUp ((s.attempts.truncate b.count).drivenOut true)).Restored list ∧
            (s.recovering g frame frames m kind result pinned).attempts.expected.toList =
              list ++ [⟨frame.position, .name name⟩] := by
  obtain ⟨cs, ⟨bs, hbs, -⟩, -⟩ := h.talliedAs
  refine ⟨hbs.accounts.ordered, hbs.accounts.le_count, ⟨bs, hbs⟩, ?_, ?_⟩
  · intro s₀ level modifiers kind name h₀ hbody
    exact h₀.exists_baseline hbody
  intro b bs frame frames m kind result pinned name x hb hframes hx hname hpositive
  obtain ⟨list, hrestored, hlist⟩ := hb.accounts.replaced hframes hx hname hpositive
  refine ⟨list, hrestored, ?_⟩
  unfold recovering
  dsimp only
  rw [hx]
  exact hlist

/-- Tokens of these kinds are looked for, one after another. -/
def consumeEach (g : Setup) (kinds : List UInt16) (s : Session) : Session :=
  kinds.foldl (fun s kind => (s.consume g ⟨kind⟩).2) s

theorem pairedRun_consumeEach (kinds : List UInt16) (s : Session) : PairedRun fair g s (s.consumeEach g kinds) := by
  induction kinds generalizing s with
  | nil => exact .refl s
  | cons kind kinds ih => exact (PairedRun.consume ⟨kind⟩ s).trans (ih _)

/-- A name, and lists that hold no more than eight attempts. -/
def narrow : Setup where
  source := { text := "a", tokens := [⟨⟨3⟩, ⟨0, 1⟩⟩] }
  language := LanguageTable.toBareLanguage {}
  limits := Limits.withAttemptCapacity default 8

/-- Tokens of these kinds were looked for at the beginning. -/
def soughtFirst (kinds : List UInt16) : List Attempt := kinds.map fun kind => ⟨0, .token ⟨kind⟩⟩

def missedSix : Session := (start narrow.limits none).consumeEach narrow [11, 12, 13, 14, 15, 16]

/-- After six tokens that were not there three more were looked for in a section with a name. -/
def missedNine : Session := (missedSix.enter narrow 0 {} none (some "value")).2.consumeEach narrow [17, 18, 19]

/-- The last one drives out the first two, which were there when the section was entered. The name comes behind the
other four. -/
theorem replaces_own_missedNine :
    Reached (fun _ => True) narrow narrow.limits none missedNine ∧
      ∃ frame b bs, missedNine.frames = [frame] ∧ Tallied narrow (b :: bs) missedNine ∧
        b.entries = soughtFirst [11, 12, 13, 14, 15, 16] ∧
        (b.giveUp ((missedNine.attempts.truncate b.count).drivenOut true)).Restored
          (soughtFirst [13, 14, 15, 16]) ∧
        (missedNine.recovering narrow frame [] ⟨0⟩ none false false).attempts.expected.toList =
          soughtFirst [13, 14, 15, 16] ++ [⟨0, .name "value"⟩] := by
  have hsix : Reached (fun _ => True) narrow narrow.limits none missedSix :=
    .run .start (pairedRun_consumeEach ..)
  have hbody : PairedRun (fun _ => True) narrow (missedSix.enter narrow 0 {} none (some "value")).2 missedNine :=
    pairedRun_consumeEach ..
  have hnine : Reached (fun _ => True) narrow narrow.limits none missedNine :=
    .run (hsix.enter (.framed 0 {} none (some "value"))) hbody
  obtain ⟨-, -, -, hbaseline, hreplaced⟩ := hnine.replaces_own
  obtain ⟨b, bs, hb, hentries⟩ := hbaseline _ _ _ _ _ hsix hbody
  obtain ⟨frame, x, hframes, hx, hposition, hname, hpositive, hexpected⟩ : ∃ frame x,
      missedNine.frames = [frame] ∧ missedNine.shape narrow frame [] ⟨0⟩ none false false = x ∧
      frame.position = 0 ∧ x.2.nameFor? narrow x.1 (frame.kind <|> none) false = some "value" ∧
      x.2.lookahead.positive = true ∧
      (missedNine.recovering narrow frame [] ⟨0⟩ none false false).attempts.expected.toList =
        soughtFirst [13, 14, 15, 16] ++ [⟨0, .name "value"⟩] := ⟨_, _, rfl, rfl, rfl, rfl, rfl, rfl⟩
  obtain ⟨list, hrestored, hlist⟩ := hreplaced _ _ _ _ _ _ _ _ _ x hb hframes hx hname hpositive
  have hfour : list = soughtFirst [13, 14, 15, 16] := by
    rw [hposition, hexpected] at hlist
    exact (List.append_cancel_right hlist).symm
  exact ⟨hnine, frame, b, bs, hframes, hb, hentries, hfour ▸ hrestored, hexpected⟩

end Session

end Descent
