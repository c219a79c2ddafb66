import Descent.Completion
import Mathlib.Data.List.Basic
import Mathlib.Order.Fin.Basic

/-!
# Abbreviations

A text abbreviates a candidate if its characters have places in the candidate that ascend from the first one
on, each right behind the one before or at the start of a word (`Completion.IsPlacing`). The search for such
places goes back to every choice it had, so it finds them whenever there are any
(`Completion.abbreviates_iff`). The literal beginnings of a candidate are among its abbreviations: a blank
that is read as an underscore is so on both sides, since no other character has the blank as its lowercase
form.
-/

namespace Descent

/-! ## Letters up to case -/

namespace Text

theorem sameLetter_iff {a b : Char} : sameLetter a b = true ↔ lowercase a = lowercase b := by
  rw [sameLetter, Bool.or_eq_true, beq_iff_eq, beq_iff_eq]
  exact ⟨fun h => h.elim (congrArg lowercase) id, .inr⟩

theorem startsWithLetters_iff {text start : List Char} :
    startsWithLetters text start = true ↔ start.map lowercase <+: text.map lowercase := by
  induction start generalizing text with
  | nil => simp [startsWithLetters]
  | cons p start ih =>
    cases text with
    | nil => simp [startsWithLetters]
    | cons t text =>
      rw [startsWithLetters, Bool.and_eq_true, sameLetter_iff, ih, List.map_cons, List.map_cons,
        List.cons_prefix_cons, eq_comm]

/-- A character is moved by the shift of a run that begins no later, if it is moved at all. -/
theorem lowercaseShift_cases (runs : List (Nat × Nat × Nat × Int)) (n : Nat) :
    lowercaseShift runs n = 0 ∨ ∃ run ∈ runs, run.1 ≤ n ∧ lowercaseShift runs n = run.2.2.2 := by
  induction runs with
  | nil => exact .inl rfl
  | cons run runs ih =>
    obtain ⟨first, last, step, shift⟩ := run
    rw [lowercaseShift]
    split
    · exact .inl rfl
    · next hfirst =>
      split
      · exact .inr ⟨_, List.mem_cons_self, Nat.le_of_not_lt hfirst, rfl⟩
      · refine ih.imp id ?_
        rintro ⟨run, hrun, hle, hshift⟩
        exact ⟨run, List.mem_cons_of_mem _ hrun, hle, hshift⟩

theorem toNat_eq_of_ofNat_eq {n : Nat} {d : Char} (hd : d ≠ Char.ofNat 0) (h : Char.ofNat n = d) :
    n = d.toNat := by
  by_cases hn : n.isValidChar
  · have htoNat : (Char.ofNat n).toNat = n := by
      rw [Char.ofNat, dif_pos hn]
      rfl
    rw [← h, htoNat]
  · rw [Char.ofNat, dif_neg hn] at h
    exact absurd h.symm hd

/-- No other character has a sign in front of the small letters as its lowercase form: all runs are moved to
places behind it. -/
theorem eq_of_lowercase {c d : Char} (hne : d ≠ Char.ofNat 0) (hd : d.toNat < 97)
    (h : lowercase c = [d]) : c = d := by
  rw [lowercase] at h
  split at h
  · simp at h
  · have hbehind : ∀ run ∈ lowercaseShifts, (96 : Int) < run.1 + run.2.2.2 := by
      decide +kernel
    have hcode := toNat_eq_of_ofNat_eq hne (List.cons.inj h).1
    have hsame : c.toNat = d.toNat := by
      rcases lowercaseShift_cases lowercaseShifts c.toNat with hzero | ⟨run, hrun, hle, hshift⟩
      · omega
      · have hlt := hbehind run hrun
        omega
    rw [← Char.ofNat_toNat c, hsame, Char.ofNat_toNat]

theorem eq_blank_of_lowercase {c : Char} (h : lowercase c = [' ']) : c = ' ' := by
  apply eq_of_lowercase _ _ h
  · decide
  · decide

end Text

namespace Completion

/-- The same letter up to case is the same letter when blanks are read as underscores. -/
theorem lowercase_underscored {a b : Char} (h : Text.lowercase a = Text.lowercase b) :
    Text.lowercase (underscored a) = Text.lowercase (underscored b) := by
  have hblank : Text.lowercase ' ' = [' '] := by decide
  rw [underscored, underscored]
  split
  · next ha =>
    rw [ha, hblank] at h
    rw [if_pos (Text.eq_blank_of_lowercase h.symm)]
  · next ha =>
    split
    · next hb =>
      rw [hb, hblank] at h
      exact absurd (Text.eq_blank_of_lowercase h) ha
    · exact h

/-! ## Places of an abbreviation -/

/-- A word of a name starts at its beginning, behind a sign that divides words, at an uppercase letter behind
a lowercase one, and at a digit behind anything else. -/
def WordStart (name : List Char) (i : Nat) : Prop :=
  ∃ c, name[i]? = some c ∧ ∀ j d, i = j + 1 → name[j]? = some d →
    d ∈ ['_', '-', '.'] ∨ (Text.isUppercase c = true ∧ Text.isLowercase d = true) ∨
      (c.isDigit = true ∧ d.isDigit = false)

theorem startsWord_iff {name : List Char} {i : Nat} :
    startsWord name i = true ↔ WordStart name i := by
  unfold startsWord WordStart
  cases hc : name[i]? with
  | none => simp
  | some c =>
    cases i with
    | zero => simp
    | succ j =>
      have hj : j < name.length := by
        have hlt := (List.getElem?_eq_some_iff.1 hc).1
        omega
      obtain ⟨d, hd⟩ : ∃ d, name[j]? = some d := ⟨_, List.getElem?_eq_getElem hj⟩
      simp only [hd]
      constructor
      · intro h
        refine ⟨c, rfl, ?_⟩
        rintro _ d' ⟨⟩ hd'
        obtain rfl := Option.some.inj (hd.symm.trans hd')
        simpa [or_assoc] using h
      · rintro ⟨_, ⟨⟩, h⟩
        simpa [or_assoc] using h j d rfl hd

/-- The characters of a pattern have the places `f` in a name. -/
structure IsPlacing (name pattern : List Char) (f : Fin pattern.length → Fin name.length) : Prop where
  ascending : StrictMono f
  first : ∀ i : Fin pattern.length, (i : Nat) = 0 → (f i : Nat) = 0
  matching : ∀ i, Text.lowercase name[f i] = Text.lowercase pattern[i]
  onward : ∀ i j : Fin pattern.length, (j : Nat) = i + 1 →
    (f j : Nat) = f i + 1 ∨ WordStart name (f j)

/-- The characters of a pattern have places in a name, of which the first is `i`. -/
structure IsTrail (name pattern : List Char) (i : Nat) (f : Nat → Nat) : Prop where
  first : f 0 = i
  matching : ∀ k c, pattern[k]? = some c → ∃ d, name[f k]? = some d ∧
    Text.lowercase d = Text.lowercase c
  onward : ∀ k, k + 1 < pattern.length →
    f (k + 1) = f k + 1 ∨ (f k < f (k + 1) ∧ WordStart name (f (k + 1)))

variable {name ps pattern : List Char} {p : Char} {i : Nat} {f : Nat → Nat}

/-- One step of the search: what comes next is the next character or the start of a word further on. -/
theorem follows_cons_iff : follows name (p :: ps) i = true ↔
    (∃ d, name[i]? = some d ∧ Text.lowercase d = Text.lowercase p) ∧
      (ps = [] ∨ ∃ j, (j = i + 1 ∨ (i < j ∧ WordStart name j)) ∧ follows name ps j = true) := by
  have hfirst : name[i]?.any (Text.sameLetter · p) = true ↔
      ∃ d, name[i]? = some d ∧ Text.lowercase d = Text.lowercase p := by
    simp [Option.any_eq_true, Text.sameLetter_iff]
  have hnext : (follows name ps (i + 1) || (List.range' (i + 2) (name.length - (i + 2))).any fun j =>
      startsWord name j && follows name ps j) = true ↔
        ∃ j, (j = i + 1 ∨ (i < j ∧ WordStart name j)) ∧ follows name ps j = true := by
    simp only [Bool.or_eq_true, List.any_eq_true, List.mem_range'_1, Bool.and_eq_true, startsWord_iff]
    constructor
    · rintro (h | ⟨j, ⟨hle, -⟩, hword, h⟩)
      · exact ⟨i + 1, .inl rfl, h⟩
      · exact ⟨j, .inr ⟨by omega, hword⟩, h⟩
    · rintro ⟨j, rfl | ⟨hlt, hword⟩, h⟩
      · exact .inl h
      · rcases Nat.eq_or_lt_of_le (show i + 1 ≤ j from hlt) with rfl | hlt'
        · exact .inl h
        · have ⟨c, hc, _⟩ := hword
          have hsize := (List.getElem?_eq_some_iff.1 hc).1
          exact .inr ⟨j, ⟨by omega, by omega⟩, hword, h⟩
  rw [follows, Bool.and_eq_true, hfirst, Bool.or_assoc, Bool.or_eq_true, List.isEmpty_iff, hnext]

namespace IsTrail

theorem cons {j : Nat} (hfirst : ∃ d, name[i]? = some d ∧ Text.lowercase d = Text.lowercase p)
    (hnext : ps = [] ∨ ((j = i + 1 ∨ (i < j ∧ WordStart name j)) ∧ IsTrail name ps j f)) :
    IsTrail name (p :: ps) i fun | 0 => i | k + 1 => f k where
  first := rfl
  matching k c hc := by
    cases k with
    | zero =>
      obtain rfl : p = c := by simpa using hc
      exact hfirst
    | succ k =>
      rcases hnext with rfl | ⟨-, h⟩
      · simp at hc
      · exact h.matching k c (by simpa using hc)
  onward k hk := by
    rcases hnext with rfl | ⟨hj, h⟩
    · simp at hk
    · cases k with
      | zero => simpa [h.first] using hj
      | succ k => exact h.onward k (by simpa using hk)

theorem tail (h : IsTrail name (p :: ps) i f) : IsTrail name ps (f 1) fun k => f (k + 1) where
  first := rfl
  matching k c hc := h.matching (k + 1) c (by simpa using hc)
  onward k hk := h.onward (k + 1) (by simpa using hk)

end IsTrail

/-- The search finds the places of a pattern exactly if it has some. -/
theorem follows_iff (hne : pattern ≠ []) :
    follows name pattern i = true ↔ ∃ f, IsTrail name pattern i f := by
  induction pattern generalizing i with
  | nil => exact absurd rfl hne
  | cons p ps ih =>
    rw [follows_cons_iff]
    constructor
    · rintro ⟨hfirst, rfl | ⟨j, hj, h⟩⟩
      · exact ⟨_, .cons (f := id) (j := 0) hfirst (.inl rfl)⟩
      · by_cases hps : ps = []
        · exact ⟨_, .cons (f := id) (j := 0) hfirst (.inl hps)⟩
        · obtain ⟨f, hf⟩ := (ih hps).1 h
          exact ⟨_, .cons hfirst (.inr ⟨hj, hf⟩)⟩
    · rintro ⟨f, h⟩
      refine ⟨by simpa [h.first] using h.matching 0 p rfl, ?_⟩
      by_cases hps : ps = []
      · exact .inl hps
      · have hlength : 0 + 1 < (p :: ps).length := by
          have hpos := List.length_pos_iff.2 hps
          simpa using hpos
        exact .inr ⟨f 1, by simpa [h.first] using h.onward 0 hlength, (ih hps).2 ⟨_, h.tail⟩⟩

/-- Places that are numbers, each below the length of the name. -/
theorem exists_placing_iff (hne : pattern ≠ []) :
    (∃ f, IsTrail name pattern 0 f) ↔ ∃ f, IsPlacing name pattern f := by
  constructor
  · rintro ⟨f, h⟩
    have hmatch (k : Fin pattern.length) : ∃ hlt : f k < name.length,
        Text.lowercase name[f k] = Text.lowercase pattern[k] := by
      obtain ⟨d, hd, hlower⟩ := h.matching k pattern[k] (by simp)
      obtain ⟨hlt, rfl⟩ := List.getElem?_eq_some_iff.1 hd
      exact ⟨hlt, hlower⟩
    have hstep (k : Nat) (hk : k + 1 < pattern.length) : f k < f (k + 1) := by
      rcases h.onward k hk with he | ⟨hlt, -⟩ <;> omega
    have hmono (k l : Nat) (hlt : k < l) (hl : l < pattern.length) : f k < f l := by
      induction hlt with
      | refl => exact hstep k hl
      | step _ ih => exact Nat.lt_trans (ih (by omega)) (hstep _ hl)
    refine ⟨fun k => ⟨f k, (hmatch k).1⟩, ?_, ?_, fun k => (hmatch k).2, ?_⟩
    · exact fun k l hlt => hmono k l hlt l.isLt
    · exact fun k hk => by simpa [hk] using h.first
    · intro k l hl
      have honward := h.onward k (hl ▸ l.isLt)
      rw [← hl] at honward
      exact honward.imp_right And.right
  · rintro ⟨f, h⟩
    have hpos := List.length_pos_iff.2 hne
    let place (k : Nat) : Nat := if hk : k < pattern.length then f ⟨k, hk⟩ else 0
    have hplace (k : Nat) (hk : k < pattern.length) : place k = f ⟨k, hk⟩ := dif_pos hk
    refine ⟨place, ?_, ?_, ?_⟩
    · exact (hplace 0 hpos).trans (h.first ⟨0, hpos⟩ rfl)
    · intro k c hc
      obtain ⟨hk, rfl⟩ := List.getElem?_eq_some_iff.1 hc
      rw [hplace k hk]
      exact ⟨name[f ⟨k, hk⟩], by simp, h.matching ⟨k, hk⟩⟩
    · intro k hk
      rw [hplace k (by omega), hplace (k + 1) hk]
      exact (h.onward ⟨k, by omega⟩ ⟨k + 1, hk⟩ rfl).imp_right fun hword =>
        ⟨h.ascending (Fin.mk_lt_mk.2 (Nat.lt_succ_self k)), hword⟩

/-- A literal beginning has its places one behind the other. -/
theorem isTrail_id {text candidate : List Char}
    (h : text.map Text.lowercase <+: candidate.map Text.lowercase) :
    IsTrail (candidate.map underscored) (text.map underscored) 0 id where
  first := rfl
  matching k c hc := by
    rw [List.getElem?_map, Option.map_eq_some_iff] at hc
    obtain ⟨a, ha, rfl⟩ := hc
    have hlower : (text.map Text.lowercase)[k]? = some (Text.lowercase a) := by simp [ha]
    obtain ⟨rest, hrest⟩ := h
    have hlt := (List.getElem?_eq_some_iff.1 hlower).1
    have hboth : (candidate.map Text.lowercase)[k]? = some (Text.lowercase a) := by
      rw [← hrest, List.getElem?_append_left hlt, hlower]
    rw [List.getElem?_map, Option.map_eq_some_iff] at hboth
    obtain ⟨b, hb, hba⟩ := hboth
    exact ⟨underscored b, by simp [hb], lowercase_underscored hba⟩
  onward _ _ := .inl rfl

/-- A text abbreviates a candidate exactly if, blanks read as underscores, it is empty or its characters have
places in the candidate, and if it is a literal beginning where it ends in white space. Every literal
beginning abbreviates the candidate. -/
theorem abbreviates_iff (text candidate : String) :
    (abbreviates text candidate = true ↔
      (text = "" ∨ ∃ f, IsPlacing (candidate.toList.map underscored) (text.toList.map underscored) f) ∧
        ((∃ c, text.toList.getLast? = some c ∧ Text.isBlank c = true) →
          text.toList.map Text.lowercase <+: candidate.toList.map Text.lowercase)) ∧
      (text.toList.map Text.lowercase <+: candidate.toList.map Text.lowercase →
        abbreviates text candidate = true) := by
  have hempty : text.toList = [] ↔ text = "" := by simp
  have hplaces : (text.toList.isEmpty ||
      follows (candidate.toList.map underscored) (text.toList.map underscored) 0) = true ↔
        text = "" ∨ ∃ f, IsPlacing (candidate.toList.map underscored) (text.toList.map underscored) f := by
    rw [Bool.or_eq_true, List.isEmpty_iff, hempty]
    by_cases htext : text = ""
    · simp [htext]
    · have hne : text.toList.map underscored ≠ [] := by simpa using htext
      rw [follows_iff hne, exists_placing_iff hne]
  have hblank : (!text.toList.getLast?.any Text.isBlank ||
      Text.startsWithLetters candidate.toList text.toList) = true ↔
        ((∃ c, text.toList.getLast? = some c ∧ Text.isBlank c = true) →
          text.toList.map Text.lowercase <+: candidate.toList.map Text.lowercase) := by
    rw [Bool.or_eq_true, Bool.not_eq_true', ← Bool.not_eq_true, Option.any_eq_true,
      Text.startsWithLetters_iff, imp_iff_not_or]
  have hiff := and_congr hplaces hblank
  rw [← Bool.and_eq_true] at hiff
  refine ⟨hiff, fun h => hiff.2 ⟨?_, fun _ => h⟩⟩
  by_cases htext : text = ""
  · exact .inl htext
  · exact .inr ((exists_placing_iff (by simpa using htext)).1 ⟨id, isTrail_id h⟩)

-- a jump to a later word, which white space at the end rules out
example : abbreviates "fB" "foo bar Baz" = true ∧ abbreviates "fB " "foo bar Baz" = false := by
  decide +kernel

end Completion

end Descent
