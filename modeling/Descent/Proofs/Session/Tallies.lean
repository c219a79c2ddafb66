import Descent.Proofs.Attempt.Baselines
import Descent.Proofs.Session.Seeking
import Descent.Proofs.Session.Uncounted

/-!
# Tallies

A section counts the expected attempts when it is entered, and its name may later stand for all that were recorded
since. Until then attempts inside may have driven out others, the names of sections inside may have taken the
place of theirs, and a recovery may have cleared all of them and set the counts of the sections around to nothing.

A session is `Tallied` with what is to be known of the expected attempts before each open section: those that were
there when it was entered, and how many of them have been given up since. So the counts always ascend from the
outermost section to the innermost one, up to the number of attempts (`Session.Tallied.accounts`), and when the
name of a section takes the place of its attempts, those before it that are left stay (`Session.Accounts.replaced`).
-/

namespace Descent.Session

open Attempts (Baseline)

variable {g : Setup} {s s' : Session} {b : Baseline} {bs : List Baseline} {frame : Frame} {frames : List Frame}
  {kind : Option Kind} {stays : Bool}

/-! ## Names -/

/-- The name that is to stand for all that a section looked for: it failed where it began, and had not come
further. If it has a kind, some attempts are to have been recorded. -/
def nameFor? (g : Setup) (frame : Frame) (kind : Option Kind) (stays : Bool) (s : Session) : Option String :=
  let slack := if kind.isSome then g.limits.nameSlack else 0
  frame.name.filter fun _ => !stays && s.position == frame.position && frame.attemptAt == some frame.position &&
    decide (frame.attemptsBefore + slack ≤ s.attempts.count)

theorem attemptsByName_eq (g : Setup) (frame : Frame) (kind : Option Kind) (stays : Bool) (s : Session) :
    s.attemptsByName g frame kind stays =
      match s.nameFor? g frame kind stays with
      | none => (frame, s)
      | some name => (if s.lookahead.positive then frame.recordAttempt s.position else frame,
        { s with
          attempts := (s.attempts.truncate frame.attemptsBefore).push s.lookahead.positive
            ⟨s.position, .name name⟩ }) := by
  unfold attemptsByName nameFor?
  cases frame.name with
  | none => rfl
  | some name =>
    rw [Option.filter_some]
    dsimp only
    generalize (if kind.isSome then g.limits.nameSlack else 0) = slack
    split <;> rfl

theorem attemptsByName_of_none (h : s.nameFor? g frame kind stays = none) :
    s.attemptsByName g frame kind stays = (frame, s) := by
  rw [attemptsByName_eq, h]

theorem attemptsBefore_attemptsByName (g : Setup) (frame : Frame) (kind : Option Kind) (stays : Bool)
    (s : Session) : (s.attemptsByName g frame kind stays).1.attemptsBefore = frame.attemptsBefore := by
  rw [attemptsByName_eq]
  split
  · rfl
  · dsimp only
    split <;> rfl

/-- A section whose name stands for its attempts failed where it began. -/
theorem position_of_nameFor? {name : String} (h : s.nameFor? g frame kind stays = some name) :
    s.position = frame.position := by
  obtain ⟨-, hwhen⟩ := Option.filter_eq_some_iff.1 h
  simp only [Bool.and_eq_true, beq_iff_eq] at hwhen
  exact hwhen.1.1.2

/-! ## Histories -/

/-- The session has come to `s`, and for each open section, the innermost first, its baseline is followed. -/
inductive Tallied (g : Setup) : List Baseline → Session → Prop
  | start (limits : Limits) (caret : Option Nat) : Tallied g [] (start limits caret)
  | aside {bs : List Baseline} {s s' : Session} (h : Tallied g bs s) (hattempts : s'.attempts = s.attempts)
    (hcounts : s'.counts = s.counts) : Tallied g bs s'
  /-- An attempt is recorded, for which others may be given up. -/
  | record {bs : List Baseline} {s : Session} (h : Tallied g bs s) (position : Nat) (target : Target) :
    Tallied g (bs.map (·.giveUp (s.attempts.drivenOut s.lookahead.positive)))
      (s.recordAttempt position target)
  /-- The frame of a section is put up. -/
  | enter {bs : List Baseline} {s : Session} (h : Tallied g bs s) (level : Nat) (modifiers : Modifiers)
    (kind : Option Kind) (name : Option String) :
    Tallied g (s.attempts.baseline :: bs) (s.openFrame g level modifiers kind name)
  /-- The frame of a section is taken down. -/
  | leave {b : Baseline} {bs : List Baseline} {s : Session} {frame : Frame} {frames : List Frame}
    (h : Tallied g (b :: bs) s) (hframes : s.frames = frame :: frames) : Tallied g bs { s with frames }
  /-- The name of a section that was further in takes the place of its attempts. -/
  | name {bs : List Baseline} {s : Session} {frame : Frame} {kind : Option Kind} {stays : Bool} {name : String}
    (h : Tallied g bs s) (hname : s.nameFor? g frame kind stays = some name)
    (hframe : ∀ n ∈ s.counts, n ≤ frame.attemptsBefore) :
    Tallied g (bs.map (·.giveUp ((s.attempts.truncate frame.attemptsBefore).drivenOut s.lookahead.positive)))
      (s.attemptsByName g frame kind stays).2
  /-- A section that was further in has recovered. -/
  | clear {bs : List Baseline} {s : Session} {frame : Frame} (h : Tallied g bs s)
    (hframe : ∀ n ∈ s.counts, n ≤ frame.attemptsBefore) :
    Tallied g (bs.map .clear) (s.clearAttempts frame).2

/-- The baselines account for the counts of the open sections, and each still holds. -/
structure Accounts (bs : List Baseline) (s : Session) : Prop where
  counts : bs.map (·.count) = s.counts
  ordered : s.counts.Pairwise fun inner outer => outer ≤ inner
  holds : ∀ b ∈ bs, b.Holds s.attempts

namespace Accounts

/-- No section counts more attempts than there are. -/
theorem le_count (h : s.Accounts bs) : ∀ n ∈ s.counts, n ≤ s.attempts.count := by
  intro n hn
  rw [← h.counts] at hn
  obtain ⟨b, hb, rfl⟩ := List.mem_map.1 hn
  exact (h.holds b hb).count_le

theorem aside (h : s.Accounts bs) (hattempts : s'.attempts = s.attempts) (hcounts : s'.counts = s.counts) :
    s'.Accounts bs :=
  ⟨h.counts.trans hcounts.symm, hcounts ▸ h.ordered, hattempts ▸ h.holds⟩

/-- What is given up does not change the counts. -/
theorem giveUp {given : List Attempt} (h : s.Accounts bs) (hcounts : s'.counts = s.counts)
    (hholds : ∀ b ∈ bs, (b.giveUp given).Holds s'.attempts) : s'.Accounts (bs.map (·.giveUp given)) where
  counts := by
    rw [List.map_map, hcounts, ← h.counts]
    rfl
  ordered := hcounts ▸ h.ordered
  holds := List.forall_mem_map.2 hholds

theorem record (h : s.Accounts bs) (position : Nat) (target : Target) :
    (s.recordAttempt position target).Accounts
      (bs.map (·.giveUp (s.attempts.drivenOut s.lookahead.positive))) := by
  refine h.giveUp ?_ fun b hb => ?_
  · have hmark (t : Session) : t.Uncounted (t.modifyFrame (·.recordAttempt position)) := by
      refine .modifyFrame ?_ t
      exact fun _ => rfl
    unfold recordAttempt
    dsimp only
    split
    · exact (hmark _).counts
    · rfl
  · rw [attempts_recordAttempt]
    exact (h.holds b hb).push ..

theorem enter (h : s.Accounts bs) (level : Nat) (modifiers : Modifiers) (kind : Option Kind)
    (name : Option String) :
    (s.openFrame g level modifiers kind name).Accounts (s.attempts.baseline :: bs) := by
  obtain ⟨hattempts, hcounts, -⟩ := openFrame_counts (g := g) level modifiers kind name s
  refine ⟨?_, ?_, ?_⟩
  · rw [hcounts, List.map_cons, h.counts]
    rfl
  · rw [hcounts]
    exact List.pairwise_cons.2 ⟨h.le_count, h.ordered⟩
  · rw [hattempts]
    exact List.forall_mem_cons.2 ⟨Attempts.Baseline.holds_baseline _, h.holds⟩

theorem counts_cons (hframes : s.frames = frame :: frames) :
    s.counts = frame.attemptsBefore :: Session.counts { s with frames } := by
  rw [Session.counts, hframes]
  rfl

theorem leave (h : s.Accounts (b :: bs)) (hframes : s.frames = frame :: frames) :
    { s with frames }.Accounts bs ∧ b.count = frame.attemptsBefore ∧
      ∀ n ∈ Session.counts { s with frames }, n ≤ frame.attemptsBefore := by
  have hcounts := h.counts
  have hordered := h.ordered
  rw [counts_cons hframes] at hcounts hordered
  obtain ⟨hcount, hrest⟩ := List.cons_eq_cons.1 hcounts
  obtain ⟨hle, hordered⟩ := List.pairwise_cons.1 hordered
  exact ⟨⟨hrest, hordered, (List.forall_mem_cons.1 h.holds).2⟩, hcount, hle⟩

theorem name {name : String} (h : s.Accounts bs) (hname : s.nameFor? g frame kind stays = some name)
    (hframe : ∀ n ∈ s.counts, n ≤ frame.attemptsBefore) :
    (s.attemptsByName g frame kind stays).2.Accounts
      (bs.map (·.giveUp ((s.attempts.truncate frame.attemptsBefore).drivenOut s.lookahead.positive))) := by
  rw [attemptsByName_eq, hname]
  refine h.giveUp rfl fun b hb => ?_
  have hcount : b.count ≤ frame.attemptsBefore := hframe _ (h.counts ▸ List.mem_map_of_mem hb)
  exact ((h.holds b hb).truncate hcount).push ..

/-! ### Clearing -/

/-- All counts up to the first that is nothing are reset, and behind it there is no other. -/
theorem counts_resetCounts {fs : List Frame}
    (h : (fs.map (·.attemptsBefore)).Pairwise fun inner outer => outer ≤ inner) :
    (resetCounts fs).map (·.attemptsBefore) = fs.map fun _ => 0 := by
  induction fs with
  | nil => rfl
  | cons f fs ih =>
    obtain ⟨hle, hrest⟩ := List.pairwise_cons.1 h
    unfold resetCounts
    split
    · next hzero =>
      refine List.map_congr_left fun x hx => ?_
      rcases List.mem_cons.1 hx with rfl | hx
      · exact hzero
      · have hx : x.attemptsBefore ≤ f.attemptsBefore := hle _ (List.mem_map_of_mem hx)
        omega
    · exact congrArg (0 :: ·) (ih hrest)

/-- When a section that was further in clears the attempts, the sections around count none. -/
theorem counts_clearAttempts (h : s.Accounts bs) (hframe : ∀ n ∈ s.counts, n ≤ frame.attemptsBefore) :
    (s.clearAttempts frame).2.counts = s.frames.map fun _ => 0 := by
  unfold clearAttempts Session.counts
  dsimp only
  split
  · exact counts_resetCounts h.ordered
  · refine List.map_congr_left fun f hf => ?_
    have hle := hframe _ (List.mem_map_of_mem hf)
    omega

theorem clear (h : s.Accounts bs) (hframe : ∀ n ∈ s.counts, n ≤ frame.attemptsBefore) :
    (s.clearAttempts frame).2.Accounts (bs.map .clear) where
  counts := by
    rw [h.counts_clearAttempts hframe, List.map_map]
    have hnone := congrArg (List.map fun _ => 0) h.counts
    rw [Session.counts, List.map_map, List.map_map] at hnone
    exact hnone
  ordered := by
    rw [h.counts_clearAttempts hframe]
    exact List.pairwise_map.2 (List.pairwise_of_forall fun _ _ => Nat.le_refl 0)
  holds := List.forall_mem_map.2 fun b _ => b.holds_clear s.attempts

end Accounts

/-- Whatever happens, the baselines account for the counts. -/
theorem Tallied.accounts (h : Tallied g bs s) : s.Accounts bs := by
  induction h with
  | start => exact ⟨rfl, .nil, fun _ hb => nomatch hb⟩
  | aside _ hattempts hcounts ih => exact ih.aside hattempts hcounts
  | record _ position target ih => exact ih.record position target
  | enter _ level modifiers kind name ih => exact ih.enter level modifiers kind name
  | leave _ hframes ih => exact (ih.leave hframes).1
  | name _ hname hframe ih => exact ih.name hname hframe
  | clear _ hframe ih => exact ih.clear hframe

/-- When a section is left and its name takes the place of its attempts, the expected attempts are those before
the section that are left, and the name where the section began. -/
theorem Accounts.replaced {m : Marker} {result pinned : Bool} {name : String} (h : s.Accounts (b :: bs))
    (hframes : s.frames = frame :: frames) {x : Frame × Session}
    (hx : s.shape g frame frames m kind result pinned = x)
    (hname : x.2.nameFor? g x.1 (frame.kind <|> kind) (result || pinned) = some name)
    (hpositive : x.2.lookahead.positive = true) :
    ∃ list, (b.giveUp ((s.attempts.truncate b.count).drivenOut true)).Restored list ∧
      (x.2.attemptsByName g x.1 (frame.kind <|> kind) (result || pinned)).2.attempts.expected.toList =
        list ++ [⟨frame.position, .name name⟩] := by
  obtain ⟨-, hcount, -⟩ := h.leave hframes
  have hattempts := (uncounted_shape g frame frames m kind result pinned s).attempts
  obtain ⟨error, attempt, hframe⟩ := exists_shape g frame frames m kind result pinned s
  have hposition := position_of_nameFor? hname
  rw [hx] at hattempts hframe
  rw [hframe] at hposition
  rw [attemptsByName_eq, hname, hpositive, hattempts, hposition, hframe, ← hcount]
  exact (h.holds b List.mem_cons_self).replace _

end Descent.Session
