import Descent.Attempt
import Mathlib.Data.List.Basic

/-!
# Baselines of attempts

A section takes the number of expected attempts as a baseline, and later the attempts may be cut back to it.
Meanwhile the oldest ones may have been given up, even some that came after the baseline, and the attempts may
have been cut back to baselines that were taken later. A history of all that is watched
(`Attempts.Watched`): for each baseline that may still be used, what was there when it was taken, and what has
been given up since.

What was there is still what the list begins with, but for what was given up (`Attempts.Baseline.Holds`).
Every act keeps that, and so cutting back to a baseline gives exactly what was there and was not given up
(`Attempts.restores_of_cut`).
-/

namespace Descent.Attempts

variable {a : Attempts} {x : Attempt} {n : Nat}

/-! ## What a list gives up -/

/-- What a list gives up for one more attempt. -/
def overflow (a : Attempts) (list : Array Attempt) : List Attempt :=
  if a.capacity ≤ list.size then list.toList.take a.quarter else []

/-- What a list gives up is what it begins with, and the attempt comes behind what is left. -/
theorem overflow_append_pushTo (a : Attempts) (list : Array Attempt) (x : Attempt) :
    a.overflow list ++ (a.pushTo list x).toList = list.toList ++ [x] := by
  unfold overflow pushTo
  split
  · have hrest : (list.extract a.quarter list.size).toList = list.toList.drop a.quarter := by
      rw [Array.toList_extract, List.extract_eq_take_drop]
      exact List.take_of_length_le (by simp)
    rw [Array.toList_push, hrest, ← List.append_assoc, List.take_append_drop]
  · rw [Array.toList_push, List.nil_append]

/-- What is left of a list has the attempt behind it. -/
theorem exists_pushTo (a : Attempts) (list : Array Attempt) (x : Attempt) :
    ∃ rest, (a.pushTo list x).toList = rest ++ [x] ∧ a.overflow list ++ rest = list.toList := by
  have hpush := overflow_append_pushTo a list x
  unfold pushTo at hpush ⊢
  rw [Array.toList_push, ← List.append_assoc] at hpush
  exact ⟨_, Array.toList_push .., List.append_cancel_right hpush⟩

/-- The expected attempts that are given up for one more attempt. -/
def drivenOut (a : Attempts) (isExpected : Bool) : List Attempt :=
  if isExpected then a.overflow a.expected else []

/-- A list that gives up a quarter when it is full never holds more than it may. -/
theorem size_pushTo_le (hcapacity : 4 ≤ a.capacity) {list : Array Attempt} (hlist : list.size ≤ a.capacity)
    (x : Attempt) : (a.pushTo list x).size ≤ a.capacity := by
  have hquarter : 1 ≤ a.quarter := Nat.div_pos hcapacity (by decide)
  unfold pushTo
  split
  · rw [Array.size_push, Array.size_extract]
    omega
  · rw [Array.size_push]
    omega

theorem givenUp_push_expected (a : Attempts) (x : Attempt) :
    (a.push true x).givenUp = a.givenUp + (a.overflow a.expected).length := by
  have hquarter : a.quarter ≤ a.capacity := Nat.div_le_self ..
  unfold push overflow
  rw [if_pos rfl]
  split
  · rw [List.length_take, Array.length_toList]
    dsimp only
    omega
  · rfl

theorem expected_truncate (a : Attempts) (n : Nat) :
    (a.truncate n).expected.toList = a.expected.toList.take (n - a.givenUp) := by
  simp [truncate]

/-! ## Baselines -/

/-- A count that was taken as a baseline: the expected attempts that were there, and those that have been
given up since, in that order. -/
structure Baseline where
  count : Nat
  entries : List Attempt
  gone : List Attempt := []
  deriving DecidableEq, Repr

/-- The count of expected attempts as a baseline. -/
def baseline (a : Attempts) : Baseline := { count := a.count, entries := a.expected.toList }

namespace Baseline

variable {b : Baseline} {list : List Attempt}

/-- Attempts are given up. -/
def giveUp (b : Baseline) (given : List Attempt) : Baseline := { b with gone := b.gone ++ given }

/-- All is given up when the attempts are cleared, and counting begins anew. -/
def clear (b : Baseline) : Baseline := { b with count := 0, gone := b.entries }

/-- The list has exactly what was there and was not given up: it is what follows on what was given up, unless
all that was there was given up. -/
def Restored (b : Baseline) (list : List Attempt) : Prop :=
  b.gone ++ list = b.entries ∨ list = [] ∧ b.entries <+: b.gone

/-- Behind what was given up the list goes on with what was there, and the baseline counts both. -/
structure Holds (b : Baseline) (a : Attempts) : Prop where
  count : b.count + b.gone.length = a.givenUp + b.entries.length
  entries : b.entries <+: b.gone ++ a.expected.toList

theorem holds_baseline (a : Attempts) : a.baseline.Holds a where
  count := rfl
  entries := List.prefix_rfl

/-- More attempts do not matter, and those that they drive out are given up. -/
theorem Holds.push_expected (h : b.Holds a) (x : Attempt) :
    (b.giveUp (a.overflow a.expected)).Holds (a.push true x) where
  count := by
    have hcount := h.count
    rw [givenUp_push_expected]
    simp only [giveUp, List.length_append]
    omega
  entries := by
    have hpush : (a.push true x).expected = a.pushTo a.expected x := rfl
    have hlist : b.gone ++ a.overflow a.expected ++ (a.push true x).expected.toList =
        b.gone ++ a.expected.toList ++ [x] := by
      rw [hpush, List.append_assoc, overflow_append_pushTo, List.append_assoc]
    show b.entries <+: b.gone ++ a.overflow a.expected ++ (a.push true x).expected.toList
    rw [hlist]
    exact h.entries.trans (List.prefix_append ..)

theorem Holds.push_unexpected (h : b.Holds a) (x : Attempt) : b.Holds (a.push false x) :=
  ⟨h.count, h.entries⟩

theorem Holds.push (h : b.Holds a) (isExpected : Bool) (x : Attempt) :
    (b.giveUp (a.drivenOut isExpected)).Holds (a.push isExpected x) := by
  cases isExpected with
  | true => exact h.push_expected x
  | false =>
    have hnone : b.giveUp (a.drivenOut false) = b := congrArg (Baseline.mk _ _) (List.append_nil b.gone)
    rw [hnone]
    exact h.push_unexpected x

theorem holds_clear (b : Baseline) (a : Attempts) : b.clear.Holds a.clear where
  count := rfl
  entries := List.prefix_append ..

theorem Holds.count_le (h : b.Holds a) : b.count ≤ a.count := by
  have hcount := h.count
  have hlength := h.entries.length_le
  rw [List.length_append, Array.length_toList] at hlength
  unfold Attempts.count
  omega

/-- Cutting back to a baseline that was taken later does not matter. -/
theorem Holds.truncate (h : b.Holds a) (hn : b.count ≤ n) : b.Holds (a.truncate n) where
  count := h.count
  entries := by
    have hcount := h.count
    have hlength := h.entries.length_le
    rw [List.length_append] at hlength
    rw [expected_truncate]
    refine List.prefix_of_prefix_length_le h.entries ?_ ?_
    · exact (List.prefix_append_right_inj _).2 (List.take_prefix ..)
    · rw [List.length_append, List.length_take]
      omega

/-- Cutting back to the baseline leaves what was there, but for what was given up. -/
theorem Holds.restored (h : b.Holds a) : b.Restored (a.truncate b.count).expected.toList := by
  have hcount := h.count
  rw [expected_truncate]
  rcases Nat.le_total b.gone.length b.entries.length with hle | hle
  · left
    have hkeep : b.count - a.givenUp = b.entries.length - b.gone.length := by omega
    rw [hkeep]
    conv_rhs => rw [List.prefix_iff_eq_take.1 h.entries, List.take_append, List.take_of_length_le hle]
  · right
    have hnone : b.count - a.givenUp = 0 := by omega
    rw [hnone]
    exact ⟨rfl, List.prefix_of_prefix_length_le h.entries (List.prefix_append ..) hle⟩

/-- What is left may be given up later. -/
theorem Restored.giveUp {given : List Attempt} (h : b.Restored (given ++ list)) :
    (b.giveUp given).Restored list := by
  rcases h with heq | ⟨hnone, hprefix⟩
  · exact .inl ((List.append_assoc ..).trans heq)
  · obtain ⟨rfl, rfl⟩ := List.append_eq_nil_iff.1 hnone
    exact .inr ⟨rfl, hprefix.trans (List.prefix_append ..)⟩

/-- When one attempt replaces all that came after the baseline, it is behind what was there and is not given
up. -/
theorem Holds.replace (h : b.Holds a) (x : Attempt) :
    ∃ list, (b.giveUp ((a.truncate b.count).drivenOut true)).Restored list ∧
      ((a.truncate b.count).push true x).expected.toList = list ++ [x] := by
  obtain ⟨rest, hpush, hlist⟩ := exists_pushTo (a.truncate b.count) (a.truncate b.count).expected x
  exact ⟨rest, Restored.giveUp (hlist ▸ h.restored), hpush⟩

end Baseline

/-! ## Histories -/

/-- What may be done with the attempts. -/
inductive Act where
  | push (isExpected : Bool) (x : Attempt)
  /-- The count is taken as a baseline. -/
  | take
  /-- The expected attempts are cut back to a baseline. -/
  | cut (count : Nat)
  | clear
  deriving DecidableEq, Repr

/-- Attempts, and the baselines that they may be cut back to, the latest first. -/
structure Watched where
  attempts : Attempts
  baselines : List Baseline := []
  deriving DecidableEq, Repr

namespace Watched

/-- Does an act. Cutting back needs a baseline with that count, and those that were taken after it can no longer
be used; nor can any when the attempts are cleared. -/
def act (w : Watched) : Act → Option Watched
  | .push true x =>
    let given := w.attempts.overflow w.attempts.expected
    some ⟨w.attempts.push true x, w.baselines.map (·.giveUp given)⟩
  | .push false x => some { w with attempts := w.attempts.push false x }
  | .take => some { w with baselines := w.attempts.baseline :: w.baselines }
  | .cut n =>
    match w.baselines.dropWhile (·.count ≠ n) with
    | [] => none
    | b :: older => some ⟨w.attempts.truncate n, b :: older⟩
  | .clear => some ⟨w.attempts.clear, []⟩

/-- Does acts one after another. -/
def run (w : Watched) (acts : List Act) : Option Watched := acts.foldlM act w

/-- What holds in all histories. -/
structure Sound (capacity : Nat) (w : Watched) : Prop where
  atMost : w.attempts.capacity = max capacity 4
  expected : w.attempts.expected.size ≤ max capacity 4
  unexpected : w.attempts.unexpected.size ≤ max capacity 4
  ordered : w.baselines.Pairwise fun later b => b.count ≤ later.count
  holds : ∀ b ∈ w.baselines, b.Holds w.attempts

variable {capacity : Nat} {w w' : Watched}

theorem sound_ofCapacity (capacity : Nat) : Sound capacity ⟨.ofCapacity capacity, []⟩ :=
  ⟨rfl, Nat.zero_le _, Nat.zero_le _, .nil, fun _ h => nomatch h⟩

theorem dropWhile_eq_cons {b : Baseline} {older : List Baseline}
    (h : w.baselines.dropWhile (·.count ≠ n) = b :: older) :
    b.count = n ∧ b :: older <:+ w.baselines := by
  have hb := List.head?_dropWhile_not (fun b : Baseline => decide (b.count ≠ n)) w.baselines
  rw [h] at hb
  exact ⟨by simpa using hb, h ▸ List.dropWhile_suffix _⟩

theorem Sound.act (hw : w.Sound capacity) {x : Act} (h : w.act x = some w') : w'.Sound capacity := by
  have hcapacity : 4 ≤ w.attempts.capacity := hw.atMost ▸ Nat.le_max_right ..
  cases x with
  | push isExpected x =>
    cases isExpected with
    | true =>
      obtain rfl := Option.some.inj h
      refine ⟨hw.atMost, ?_, hw.unexpected, List.pairwise_map.2 hw.ordered, List.forall_mem_map.2 ?_⟩
      · exact hw.atMost ▸ size_pushTo_le hcapacity (hw.atMost ▸ hw.expected) x
      · exact fun b hb => (hw.holds b hb).push_expected x
    | false =>
      obtain rfl := Option.some.inj h
      refine ⟨hw.atMost, hw.expected, ?_, hw.ordered, fun b hb => (hw.holds b hb).push_unexpected x⟩
      exact hw.atMost ▸ size_pushTo_le hcapacity (hw.atMost ▸ hw.unexpected) x
  | take =>
    obtain rfl := Option.some.inj h
    exact ⟨hw.atMost, hw.expected, hw.unexpected,
      List.pairwise_cons.2 ⟨fun b hb => (hw.holds b hb).count_le, hw.ordered⟩,
      List.forall_mem_cons.2 ⟨Baseline.holds_baseline _, hw.holds⟩⟩
  | cut n =>
    simp only [Watched.act] at h
    split at h
    · cases h
    · next b older hb =>
      obtain rfl := Option.some.inj h
      obtain ⟨hcount, hsuffix⟩ := dropWhile_eq_cons hb
      have hordered := hw.ordered.sublist hsuffix.sublist
      -- what was taken earlier counts no more than what is cut back to
      have hle : ∀ b' ∈ b :: older, b'.count ≤ n := List.forall_mem_cons.2
        ⟨Nat.le_of_eq hcount, fun b' hb' => hcount ▸ (List.pairwise_cons.1 hordered).1 b' hb'⟩
      refine ⟨hw.atMost, ?_, hw.unexpected, hordered, fun b' hb' => ?_⟩
      · have hsize : (w.attempts.truncate n).expected.size =
            min (n - w.attempts.givenUp) w.attempts.expected.size := by simp [truncate]
        exact Nat.le_trans (hsize ▸ Nat.min_le_right ..) hw.expected
      · exact (hw.holds b' (hsuffix.subset hb')).truncate (hle b' hb')
  | clear =>
    obtain rfl := Option.some.inj h
    exact ⟨hw.atMost, Nat.zero_le _, Nat.zero_le _, .nil, fun _ h => nomatch h⟩

theorem Sound.run (hw : w.Sound capacity) {acts : List Act} (h : w.run acts = some w') :
    w'.Sound capacity := by
  induction acts generalizing w with
  | nil =>
    obtain rfl := Option.some.inj h
    exact hw
  | cons x acts ih =>
    obtain ⟨w₁, hx, h⟩ := Option.bind_eq_some_iff.1 h
    exact ih (hw.act hx) h

end Watched

/-- In every history of attempts, whatever their capacity: when they are cut back to a baseline that may still
be used, exactly those are left that were there when it was taken and have not been given up since. Neither list
ever holds more than the capacity, and an attempt that is pushed drives out nothing but what its own list begins
with. -/
theorem restores_of_cut (capacity : Nat) {acts : List Act} {w : Watched}
    (h : Watched.run ⟨.ofCapacity capacity, []⟩ acts = some w) :
    (∀ n w', w.act (.cut n) = some w' → w'.attempts = w.attempts.truncate n ∧
      (∃ b ∈ w.baselines, b.count = n) ∧
      ∀ b ∈ w.baselines, b.count = n → b.Restored w'.attempts.expected.toList) ∧
    w.attempts.expected.size ≤ max capacity 4 ∧ w.attempts.unexpected.size ≤ max capacity 4 ∧
    ∀ x, (w.attempts.overflow w.attempts.expected ++ (w.attempts.push true x).expected.toList =
        w.attempts.expected.toList ++ [x] ∧
      (w.attempts.push true x).unexpected = w.attempts.unexpected) ∧
      w.attempts.overflow w.attempts.unexpected ++ (w.attempts.push false x).unexpected.toList =
        w.attempts.unexpected.toList ++ [x] ∧
      (w.attempts.push false x).expected = w.attempts.expected := by
  have hsound := (Watched.sound_ofCapacity capacity).run h
  refine ⟨fun n w' hcut => ?_, hsound.expected, hsound.unexpected, fun x => ?_⟩
  · simp only [Watched.act] at hcut
    split at hcut
    · cases hcut
    · next b older hb =>
      obtain rfl := Option.some.inj hcut
      obtain ⟨hcount, hsuffix⟩ := Watched.dropWhile_eq_cons hb
      refine ⟨rfl, ⟨b, hsuffix.subset List.mem_cons_self, hcount⟩, fun b' hb' hn => ?_⟩
      exact hn ▸ (hsound.holds b' hb').restored
  · exact ⟨⟨overflow_append_pushTo .., rfl⟩, overflow_append_pushTo .., rfl⟩

/-- A name is looked for at a position. -/
private def nameAt (position : Nat) : Attempt := ⟨position, .token ⟨3⟩⟩

/-- Two baselines are taken, attempts are given up, and they are cut back to the later baseline. -/
def crowded : List Act :=
  [0, 1, 2].map (.push true <| nameAt ·) ++ .take :: .push true (nameAt 3) :: .take ::
    [4, 5].map (.push true <| nameAt ·) ++ .cut 4 :: [6, 7].map (.push true <| nameAt ·)

theorem restores_of_cut_crowded :
    ∃ w w', Watched.run ⟨.ofCapacity 1, []⟩ crowded = some w ∧ w.act (.cut 3) = some w' ∧
      ∃ b ∈ w.baselines, b.entries = [nameAt 0, nameAt 1, nameAt 2] ∧ b.gone = [nameAt 0, nameAt 1] ∧
        b.Restored w'.attempts.expected.toList ∧ w'.attempts.expected = #[nameAt 2] := by
  let b : Baseline := ⟨3, [nameAt 0, nameAt 1, nameAt 2], [nameAt 0, nameAt 1]⟩
  let full : Attempts :=
    { expected := #[nameAt 2, nameAt 3, nameAt 6, nameAt 7], givenUp := 2, capacity := 4 }
  let w : Watched := ⟨full, [⟨4, b.entries ++ [nameAt 3], b.gone⟩, b]⟩
  have hw : Watched.run ⟨.ofCapacity 1, []⟩ crowded = some w := by decide +kernel
  have hcut : w.act (.cut 3) = some ⟨{ full with expected := #[nameAt 2] }, [b]⟩ := by decide
  obtain ⟨hcuts, -⟩ := restores_of_cut 1 hw
  obtain ⟨-, -, hrestored⟩ := hcuts 3 _ hcut
  have hb : b ∈ w.baselines := List.mem_cons_of_mem _ List.mem_cons_self
  exact ⟨w, _, hw, hcut, b, hb, rfl, rfl, hrestored b hb rfl, rfl⟩

end Descent.Attempts
