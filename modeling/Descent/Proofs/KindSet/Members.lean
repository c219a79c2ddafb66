import Descent.KindSet

/-!
# What a set of kinds has in it

However a set is built, it has the kinds that were put in and no others, its cursor lists them in
ascending order, each once, and two sets are equal exactly if they have the same kinds
(`KindSet.Recipe.build_faithful`). The last needs two facts that no operation states. No set has an
empty word at its end, so a row of words is determined by its bits (`KindSet.words_ext`). And no set
has a word for numbers that are no kinds, so its kinds determine all of its bits.
-/

namespace Descent

theorem Kind.lt_iff_toNat_lt {a b : Kind} : a < b ↔ a.toNat < b.toNat := UInt16.lt_iff_toNat_lt

namespace KindSet

variable {x y : BitVec 64} {xs ys : List (BitVec 64)} {s t : KindSet} {k : Kind} {n : Nat}

/-! ## Rows of words and their bits -/

@[simp] theorem bit_nil (word i : Nat) : bit [] word i = false := by simp [bit]

@[simp] theorem bit_cons_zero (x : BitVec 64) (xs : List (BitVec 64)) (i : Nat) :
    bit (x :: xs) 0 i = x.getLsbD i := rfl

@[simp] theorem bit_cons_succ (x : BitVec 64) (xs : List (BitVec 64)) (word i : Nat) :
    bit (x :: xs) (word + 1) i = bit xs word i := by simp [bit]

theorem bit_of_length_le {word : Nat} (h : xs.length ≤ word) (i : Nat) : bit xs word i = false := by
  simp [bit, List.getElem?_eq_none h]

theorem bit_of_le {i : Nat} (h : 64 ≤ i) (word : Nat) : bit xs word i = false :=
  BitVec.getLsbD_of_ge _ i h

theorem last_tail_ne_zero (h : (x :: xs).getLast? ≠ some 0) : xs.getLast? ≠ some 0 := by
  cases xs with
  | nil => simp
  | cons y ys => rwa [List.getLast?_cons_cons] at h

/-- A row without bits that does not end in an empty word has no words. -/
theorem eq_nil_of_bit (h : xs.getLast? ≠ some 0) (hbit : ∀ word i, bit xs word i = false) :
    xs = [] := by
  induction xs with
  | nil => rfl
  | cons x xs ih =>
    have hxs : xs = [] := by
      apply ih (last_tail_ne_zero h)
      intro word i
      simpa using hbit (word + 1) i
    have hx : x = 0 := by
      apply BitVec.eq_of_getLsbD_eq
      intro i _
      simpa using hbit 0 i
    subst hxs hx
    simp at h

/-- Rows that do not end in an empty word are equal if their bits are. -/
theorem words_ext (hx : xs.getLast? ≠ some 0) (hy : ys.getLast? ≠ some 0)
    (h : ∀ word i, bit xs word i = bit ys word i) : xs = ys := by
  induction xs generalizing ys with
  | nil =>
    have hnone : ys = [] := eq_nil_of_bit hy fun word i => by simpa using (h word i).symm
    exact hnone.symm
  | cons x xs ih =>
    cases ys with
    | nil => exact eq_nil_of_bit hx fun word i => by simpa using h word i
    | cons y ys =>
      have hfirst : x = y := by
        apply BitVec.eq_of_getLsbD_eq
        intro i _
        simpa using h 0 i
      have hrest : xs = ys := by
        apply ih (last_tail_ne_zero hx) (last_tail_ne_zero hy)
        intro word i
        simpa using h (word + 1) i
      rw [hfirst, hrest]

theorem length_setBit (xs : List (BitVec 64)) (word i : Nat) :
    (setBit xs word i).length = max xs.length (word + 1) := by
  fun_induction setBit xs word i with
  | case1 => rfl
  | case2 word i ih => simp only [List.length_cons, ih]; simp
  | case3 => simp
  | case4 x xs word i ih => simp only [List.length_cons, ih]; omega

theorem length_orWords (xs ys : List (BitVec 64)) :
    (orWords xs ys).length = max xs.length ys.length := by
  fun_induction orWords xs ys with
  | case1 => simp
  | case2 => simp
  | case3 x xs y ys ih => simp only [List.length_cons, ih]; omega

/-- A word without a bit is empty. -/
theorem bitCount_eq_zero_iff : bitCount x = 0 ↔ x = 0 := by
  rw [bitCount, List.countP_eq_zero]
  constructor
  · intro h
    apply BitVec.eq_of_getLsbD_eq
    intro i hi
    simpa using h i (List.mem_range.2 hi)
  · rintro rfl
    simp

theorem wordsCount_eq_zero_iff : wordsCount xs = 0 ↔ ∀ x ∈ xs, x = 0 := by
  induction xs with
  | nil => simp [wordsCount]
  | cons x xs ih =>
    rw [wordsCount] at ih
    simp [wordsCount, ih, bitCount_eq_zero_iff]

/-! ## The cursor -/

namespace Cursor

variable {word : Nat} {bits : BitVec 64} {rest : List (BitVec 64)} {c c' : Cursor}

/-- The bit with a number is left, counted from the first word on. -/
def Has (c : Cursor) (n : Nat) : Prop :=
  c.word ≤ n / 64 ∧ bit (c.bits :: c.rest) (n / 64 - c.word) (n % 64) = true

/-- Nothing is lost with an empty word. -/
theorem has_zero_cons : Has ⟨word, 0, x :: rest⟩ n ↔ Has ⟨word + 1, x, rest⟩ n := by
  show word ≤ n / 64 ∧ bit (0 :: x :: rest) (n / 64 - word) (n % 64) = true ↔
    word + 1 ≤ n / 64 ∧ bit (x :: rest) (n / 64 - (word + 1)) (n % 64) = true
  by_cases h : word + 1 ≤ n / 64
  · rw [show n / 64 - word = n / 64 - (word + 1) + 1 by omega, bit_cons_succ]
    simp only [h, show word ≤ n / 64 by omega]
  · refine iff_of_false (fun ⟨hle, hbit⟩ => ?_) (fun ⟨hle, _⟩ => h hle)
    rw [show n / 64 - word = 0 by omega] at hbit
    simp at hbit

theorem not_has_zero_nil : ¬ Has ⟨word, 0, []⟩ n := by
  rintro ⟨-, hbit⟩
  change bit [0] (n / 64 - word) (n % 64) = true at hbit
  cases hn : n / 64 - word with
  | zero => simp [hn] at hbit
  | succ m => simp [hn] at hbit

/-- Going on to a word with a bit left loses no bit. -/
theorem has_of_settle? (h : settle? word bits rest = some c) :
    c.Has n ↔ Has ⟨word, bits, rest⟩ n := by
  fun_induction settle? word bits rest with
  | case1 => cases h
  | case2 => cases h; rfl
  | case3 word x rest ih => rw [ih h, has_zero_cons]
  | case4 => cases h; rfl

theorem not_has_of_settle? (h : settle? word bits rest = none) : ¬ Has ⟨word, bits, rest⟩ n := by
  fun_induction settle? word bits rest with
  | case1 => exact not_has_zero_nil
  | case2 => cases h
  | case3 word x rest ih => rw [has_zero_cons]; exact ih h
  | case4 => cases h

theorem count_of_settle?_none (h : settle? word bits rest = none) :
    count ⟨word, bits, rest⟩ = 0 := by
  fun_induction settle? word bits rest with
  | case1 =>
    show wordsCount [0] = 0
    decide
  | case2 => cases h
  | case3 word x rest ih => simpa [count, wordsCount, bitCount_eq_zero_iff] using ih h
  | case4 => cases h

/-- The last word stays where it is. -/
theorem last_of_settle? (h : settle? word bits rest = some c) :
    c.word + c.rest.length = word + rest.length := by
  fun_induction settle? word bits rest with
  | case1 => cases h
  | case2 => cases h; rfl
  | case3 word x rest ih => rw [ih h, List.length_cons]; omega
  | case4 => cases h; rfl

/-- At a word with a bit left the lowest bit is the first of all. -/
theorem has_lowest (h : c.bits ≠ 0) : c.Has c.lowest ∧ ∀ n, c.Has n → c.lowest ≤ n := by
  have hlt := ctz_lt h
  constructor
  · refine ⟨by simp only [lowest]; omega, ?_⟩
    rw [show c.lowest / 64 - c.word = 0 by simp only [lowest]; omega,
      show c.lowest % 64 = c.bits.ctz.toNat by simp only [lowest]; omega]
    exact BitVec.getLsbD_true_ctz_of_ne_zero h
  · rintro n ⟨hword, hbit⟩
    by_cases hn : n / 64 = c.word
    · rw [show n / 64 - c.word = 0 by omega, bit_cons_zero] at hbit
      by_cases hbelow : n % 64 < c.bits.ctz.toNat
      · rw [BitVec.getLsbD_false_of_lt_ctz hbelow] at hbit
        cases hbit
      · simp only [lowest]; omega
    · simp only [lowest]; omega

theorem has_clearLowest (h : c.bits ≠ 0) : c.clearLowest.Has n ↔ c.Has n ∧ n ≠ c.lowest := by
  have hlt := ctz_lt h
  show c.word ≤ n / 64 ∧ bit ((c.bits &&& (c.bits - 1)) :: c.rest) (n / 64 - c.word) (n % 64) = true ↔
    (c.word ≤ n / 64 ∧ bit (c.bits :: c.rest) (n / 64 - c.word) (n % 64) = true) ∧ n ≠ c.lowest
  by_cases hn : n / 64 = c.word
  · have hlowest : n ≠ c.lowest ↔ n % 64 ≠ c.bits.ctz.toNat := by simp only [lowest]; omega
    rw [hn, Nat.sub_self, bit_cons_zero, bit_cons_zero, getLsbD_and_sub_one h, hlowest]
    simp
  · have hlowest : n ≠ c.lowest := by simp only [lowest]; omega
    cases hm : n / 64 - c.word with
    | zero =>
      have hword : ¬ c.word ≤ n / 64 := by omega
      simp [hword]
    | succ m => simp [hlowest]

/-- A step yields the first bit that is left, and leaves the others. -/
theorem next?_eq_some (h : c.next? = some (k, c')) (hlast : c.word + c.rest.length < 1024) :
    (c.Has k.toNat ∧ ∀ n, c.Has n → k.toNat ≤ n) ∧ (∀ n, c'.Has n ↔ c.Has n ∧ n ≠ k.toNat) ∧
      c'.word + c'.rest.length < 1024 := by
  obtain ⟨c₁, hsettle, heq⟩ := Option.map_eq_some_iff.1 h
  cases heq
  have hne := bits_ne_zero_of_settle? hsettle
  have hend := last_of_settle? hsettle
  have hlt := ctz_lt hne
  have hk : (Kind.ofNat c₁.lowest).toNat = c₁.lowest := by
    apply Kind.toNat_ofNat
    simp only [lowest]
    omega
  rw [hk]
  obtain ⟨hhas, hfirst⟩ := has_lowest hne
  refine ⟨⟨(has_of_settle? hsettle).1 hhas, fun n hn => hfirst n ((has_of_settle? hsettle).2 hn)⟩,
    fun n => ?_, by simp only [clearLowest]; omega⟩
  rw [has_clearLowest hne, has_of_settle? hsettle]

theorem not_has_of_next? (h : c.next? = none) : ¬ c.Has n :=
  not_has_of_settle? (Option.map_eq_none_iff.1 h)

/-- The cursor yields the kinds of the bits that are left. -/
theorem mem_drain (hlast : c.word + c.rest.length < 1024) : k ∈ c.drain ↔ c.Has k.toNat := by
  fun_induction drain c with
  | case1 c h => simp [not_has_of_next? h]
  | case2 c first c' h _ ih =>
    obtain ⟨⟨hfirst, -⟩, hleft, hlast'⟩ := next?_eq_some h hlast
    rw [List.mem_cons, ih hlast', hleft, Ne, Kind.toNat_inj]
    by_cases hk : k = first
    · simp [hk, hfirst]
    · simp [hk]

/-- Each kind is before all that come later. -/
theorem pairwise_drain (hlast : c.word + c.rest.length < 1024) : c.drain.Pairwise (· < ·) := by
  fun_induction drain c with
  | case1 => exact .nil
  | case2 c first c' h _ ih =>
    obtain ⟨⟨-, hfirst⟩, hleft, hlast'⟩ := next?_eq_some h hlast
    refine .cons (fun k hk => ?_) (ih hlast')
    obtain ⟨hhas, hne⟩ := (hleft k.toNat).1 ((mem_drain hlast').1 hk)
    have hle := hfirst k.toNat hhas
    rw [Kind.lt_iff_toNat_lt]
    omega

/-- There are as many kinds as bits. -/
theorem length_drain (c : Cursor) : c.drain.length = c.count := by
  fun_induction drain c with
  | case1 c h => exact (count_of_settle?_none (Option.map_eq_none_iff.1 h)).symm
  | case2 c first c' h _ ih => rw [List.length_cons, ih, count_next? h]

end Cursor

/-! ## Sets -/

theorem has_cursor (s : KindSet) : s.cursor.Has n ↔ bit s.words (n / 64) (n % 64) = true := by
  obtain ⟨words, hlast⟩ := s
  cases words with
  | nil =>
    rw [bit_nil]
    exact iff_of_false Cursor.not_has_zero_nil Bool.false_ne_true
  | cons x xs => simp [cursor, Cursor.Has]

theorem last_cursor (h : s.words.length ≤ 1024) :
    s.cursor.word + s.cursor.rest.length < 1024 := by
  simp only [cursor, List.length_tail]
  omega

/-- The kinds of a set are those that its cursor lists. -/
theorem mem_toList (h : s.words.length ≤ 1024) : k ∈ s.toList ↔ s.contains k = true := by
  rw [toList, Cursor.mem_drain (last_cursor h), has_cursor, contains_eq_bit]

theorem pairwise_toList (h : s.words.length ≤ 1024) : s.toList.Pairwise (· < ·) :=
  Cursor.pairwise_drain (last_cursor h)

theorem length_toList (s : KindSet) : s.toList.length = s.size := by
  rw [toList, Cursor.length_drain, size]
  obtain ⟨words, hlast⟩ := s
  cases words with
  | nil =>
    show wordsCount [0] = wordsCount []
    decide
  | cons x xs => rfl

theorem isEmpty_iff (s : KindSet) : s.isEmpty = true ↔ s.toList = [] := by
  rw [← List.length_eq_zero_iff, length_toList, size, wordsCount_eq_zero_iff]
  simp [isEmpty]

/-- Sets without words for numbers that are no kinds are equal if they have the same kinds. -/
theorem eq_of_contains (hs : s.words.length ≤ 1024) (ht : t.words.length ≤ 1024)
    (h : ∀ k, s.contains k = true ↔ t.contains k = true) : s = t := by
  have hwords : s.words = t.words := by
    apply words_ext s.last_ne_zero t.last_ne_zero
    intro word i
    by_cases hi : i < 64
    · by_cases hword : word < 1024
      · have hk : (Kind.ofNat (64 * word + i)).toNat = 64 * word + i := by
          apply Kind.toNat_ofNat
          omega
        have hsame := h (.ofNat (64 * word + i))
        rw [contains_eq_bit, contains_eq_bit, hk, show (64 * word + i) / 64 = word by omega,
          show (64 * word + i) % 64 = i by omega] at hsame
        exact Bool.eq_iff_iff.2 hsame
      · rw [bit_of_length_le (by omega), bit_of_length_le (by omega)]
    · rw [bit_of_le (by omega), bit_of_le (by omega)]
  cases s
  cases t
  simp_all

/-! ## Ways to build a set -/

/-- A way to build a set. Sets that have been built are extended and united any number of times. -/
inductive Recipe where
  | empty
  | insert (r : Recipe) (k : Kind)
  | ofList (ks : List Kind)
  | union (r t : Recipe)

namespace Recipe

/-- The set that is built. -/
def build : Recipe → KindSet
  | empty => ∅
  | insert r k => r.build.insert k
  | ofList ks => .ofList ks
  | union r t => r.build.union t.build

/-- The kinds that are put in, in whatever order and however often. -/
def kinds : Recipe → List Kind
  | empty => []
  | insert r k => k :: r.kinds
  | ofList ks => ks
  | union r t => r.kinds ++ t.kinds

end Recipe

theorem contains_foldl_insert (ks : List Kind) (s : KindSet) :
    (ks.foldl insert s).contains k = true ↔ s.contains k = true ∨ k ∈ ks := by
  induction ks generalizing s with
  | nil => simp
  | cons j ks ih =>
    rw [List.foldl_cons, ih, contains_insert]
    simp [or_assoc]

theorem length_words_insert (h : s.words.length ≤ 1024) (k : Kind) :
    (s.insert k).words.length ≤ 1024 := by
  have hk := k.toNat_lt
  show (setBit s.words (k.toNat / 64) (k.toNat % 64)).length ≤ 1024
  rw [length_setBit]
  omega

theorem length_words_foldl_insert (ks : List Kind) (h : s.words.length ≤ 1024) :
    (ks.foldl insert s).words.length ≤ 1024 := by
  induction ks generalizing s with
  | nil => exact h
  | cons k ks ih => exact ih (length_words_insert h k)

namespace Recipe

/-- No set has a word for numbers that are no kinds. -/
theorem length_words_build (r : Recipe) : r.build.words.length ≤ 1024 := by
  induction r with
  | empty => decide
  | insert r k ih => exact length_words_insert ih k
  | ofList ks =>
    apply length_words_foldl_insert ks
    decide
  | union r t ihr iht =>
    show (orWords r.build.words t.build.words).length ≤ 1024
    rw [length_orWords]
    omega

/-- A set has the kinds that were put in. -/
theorem contains_build (r : Recipe) : r.build.contains k = true ↔ k ∈ r.kinds := by
  induction r with
  | empty => simp [build, kinds]
  | insert r j ih =>
    rw [build, contains_insert, kinds, List.mem_cons, ← ih]
    simp [or_comm]
  | ofList ks => simp [build, kinds, KindSet.ofList, contains_foldl_insert]
  | union r t ihr iht =>
    rw [build, contains_union, kinds, List.mem_append, ← ihr, ← iht, Bool.or_eq_true]

/-- However a set is built, it has exactly the kinds that were put in. They are listed in ascending order,
each once, and they are counted. A union has the kinds of either set, and two sets are equal, word by
word, exactly if they have the same kinds. -/
theorem build_faithful (r : Recipe) :
    (∀ k, r.build.contains k = true ↔ k ∈ r.kinds) ∧
      (∀ k, k ∈ r.build.toList ↔ k ∈ r.kinds) ∧ r.build.toList.Pairwise (· < ·) ∧
      r.build.size = r.build.toList.length ∧ (r.build.isEmpty = true ↔ r.build.toList = []) ∧
      ∀ t : Recipe,
        (∀ k, (r.build.union t.build).contains k = true ↔ k ∈ r.kinds ∨ k ∈ t.kinds) ∧
        ((r.build == t.build) = true ↔ ∀ k, k ∈ r.kinds ↔ k ∈ t.kinds) := by
  have hlength := r.length_words_build
  refine ⟨fun k => r.contains_build, fun k => ?_, pairwise_toList hlength, (length_toList _).symm,
    isEmpty_iff _, fun t => ⟨fun k => ?_, ?_⟩⟩
  · rw [mem_toList hlength, r.contains_build]
  · rw [contains_union, Bool.or_eq_true, r.contains_build, t.contains_build]
  · rw [beq_iff_eq]
    constructor
    · intro heq k
      rw [← r.contains_build, heq, t.contains_build]
    · intro h
      apply eq_of_contains hlength t.length_words_build
      intro k
      rw [r.contains_build, t.contains_build, h k]

-- the first, the last and a middle bit of a word, put in twice and in another order
example : (Recipe.ofList [⟨128⟩, ⟨63⟩, ⟨64⟩, ⟨63⟩]).build =
    ((Recipe.ofList [⟨64⟩]).union (.insert (.insert .empty ⟨128⟩) ⟨63⟩)).build := by
  decide

end Recipe

end KindSet

end Descent
