import Descent.Kind

/-!
# Sets of kinds

A set of kinds is a list of 64-bit words: bit `i` of word `w` stands for the kind `64 * w + i`.
The last word is never zero, so a set has one representation and equality of sets is equality of
their words.

The kinds of a set are listed by a cursor, which takes the lowest bit away from the word at hand and
goes on to the next word when none is left. Each step leaves one bit less
(`KindSet.Cursor.count_next?`), so the list ends.
-/

namespace Descent

/-- A set of kinds as a row of bits, without empty words at the end. -/
structure KindSet where
  words : List (BitVec 64) := []
  last_ne_zero : words.getLast? ≠ some 0 := by simp
  deriving DecidableEq

namespace KindSet

/-- Sets one bit of a row of words, which grows as needed. -/
def setBit : List (BitVec 64) → (word bit : Nat) → List (BitVec 64)
  | [], 0, bit => [BitVec.twoPow 64 bit]
  | [], word + 1, bit => 0 :: setBit [] word bit
  | x :: xs, 0, bit => (x ||| BitVec.twoPow 64 bit) :: xs
  | x :: xs, word + 1, bit => x :: setBit xs word bit

/-- The words with the bits of either row. -/
def orWords : List (BitVec 64) → List (BitVec 64) → List (BitVec 64)
  | [], ys => ys
  | xs, [] => xs
  | x :: xs, y :: ys => (x ||| y) :: orWords xs ys

theorem setBit_ne_nil (xs : List (BitVec 64)) (word bit : Nat) : setBit xs word bit ≠ [] := by
  cases xs <;> cases word <;> simp [setBit]

theorem twoPow_ne_zero {bit : Nat} (h : bit < 64) : BitVec.twoPow 64 bit ≠ 0 := by
  intro e
  have : (BitVec.twoPow 64 bit).getLsbD bit = (0 : BitVec 64).getLsbD bit := by rw [e]
  simp [h] at this

theorem or_ne_zero {x y : BitVec 64} (h : y ≠ 0) : x ||| y ≠ 0 := by
  intro e
  exact h (BitVec.or_eq_zero_iff.1 e).2

theorem getLast?_cons_of_ne_nil {α : Type _} {x : α} {xs : List α} (h : xs ≠ []) :
    (x :: xs).getLast? = xs.getLast? := by
  cases xs with
  | nil => exact absurd rfl h
  | cons y ys => exact List.getLast?_cons_cons

theorem setBit_last {xs : List (BitVec 64)} {word bit : Nat} (hb : bit < 64)
    (hx : xs.getLast? ≠ some 0) : (setBit xs word bit).getLast? ≠ some 0 := by
  fun_induction setBit xs word bit with
  | case1 bit => simpa using twoPow_ne_zero hb
  | case2 word bit ih =>
    rw [getLast?_cons_of_ne_nil (setBit_ne_nil _ _ _)]
    exact ih hb hx
  | case3 x xs bit =>
    cases xs with
    | nil => simpa using or_ne_zero (twoPow_ne_zero hb)
    | cons y ys => simpa [List.getLast?_cons_cons] using hx
  | case4 x xs word bit ih =>
    rw [getLast?_cons_of_ne_nil (setBit_ne_nil _ _ _)]
    refine ih hb ?_
    cases xs with
    | nil => simp
    | cons y ys => simpa [List.getLast?_cons_cons] using hx

theorem orWords_eq_nil {xs ys : List (BitVec 64)} (h : orWords xs ys = []) : xs = [] ∧ ys = [] := by
  cases xs <;> cases ys <;> simp_all [orWords]

theorem orWords_last {xs ys : List (BitVec 64)} (hx : xs.getLast? ≠ some 0)
    (hy : ys.getLast? ≠ some 0) : (orWords xs ys).getLast? ≠ some 0 := by
  fun_induction orWords xs ys with
  | case1 ys => exact hy
  | case2 xs _ => exact hx
  | case3 x xs y ys ih =>
    cases xs with
    | nil =>
      cases ys with
      | nil => simpa [orWords] using or_ne_zero (by simpa using hy)
      | cons z zs => simpa [orWords, List.getLast?_cons_cons] using hy
    | cons w ws =>
      have hne : orWords (w :: ws) ys ≠ [] := fun h => by simpa using (orWords_eq_nil h).1
      rw [getLast?_cons_of_ne_nil hne]
      refine ih (by simpa [List.getLast?_cons_cons] using hx) ?_
      cases ys with
      | nil => simp
      | cons z zs => simpa [List.getLast?_cons_cons] using hy

instance : Inhabited KindSet := ⟨{}⟩
instance : EmptyCollection KindSet := ⟨{}⟩

/-- The set with one more kind. -/
def insert (s : KindSet) (k : Kind) : KindSet where
  words := setBit s.words (k.toNat / 64) (k.toNat % 64)
  last_ne_zero := setBit_last (Nat.mod_lt _ (by decide)) s.last_ne_zero

/-- Whether the set has the kind. -/
def contains (s : KindSet) (k : Kind) : Bool :=
  match s.words[k.toNat / 64]? with
  | some x => x.getLsbD (k.toNat % 64)
  | none => false

instance : Membership Kind KindSet := ⟨fun s k => s.contains k = true⟩
instance (s : KindSet) (k : Kind) : Decidable (k ∈ s) :=
  inferInstanceAs (Decidable (s.contains k = true))

/-- The kinds of either set. -/
def union (s t : KindSet) : KindSet where
  words := orWords s.words t.words
  last_ne_zero := orWords_last s.last_ne_zero t.last_ne_zero

instance : Union KindSet := ⟨union⟩

/-- The set of the kinds in a list. -/
def ofList (ks : List Kind) : KindSet := ks.foldl insert ∅

def isEmpty (s : KindSet) : Bool := s.words.all (· == 0)

/-! ## Membership -/

/-- Whether a bit of a row of words is set. -/
def bit (xs : List (BitVec 64)) (word i : Nat) : Bool := (xs[word]?.getD 0).getLsbD i

theorem contains_eq_bit (s : KindSet) (k : Kind) :
    s.contains k = bit s.words (k.toNat / 64) (k.toNat % 64) := by
  unfold contains bit
  cases s.words[k.toNat / 64]? <;> simp

theorem bit_setBit {xs : List (BitVec 64)} {word i v j : Nat} (hi : i < 64) :
    bit (setBit xs word i) v j = (bit xs v j || (decide (v = word) && decide (j = i))) := by
  fun_induction setBit xs word i generalizing v with
  | case1 i => cases v <;> simp [bit, hi, eq_comm]
  | case2 word i ih => cases v <;> simp_all [bit]
  | case3 x xs i => cases v <;> simp [bit, hi, eq_comm]
  | case4 x xs word i ih => cases v <;> simp_all [bit]

theorem bit_orWords (xs ys : List (BitVec 64)) (word i : Nat) :
    bit (orWords xs ys) word i = (bit xs word i || bit ys word i) := by
  fun_induction orWords xs ys generalizing word with
  | case1 ys => simp [bit]
  | case2 xs _ => simp [bit]
  | case3 x xs y ys ih => cases word <;> simp_all [bit]

@[simp] theorem contains_empty (k : Kind) : (∅ : KindSet).contains k = false := rfl

@[simp] theorem contains_insert (s : KindSet) (k j : Kind) :
    (s.insert k).contains j = (s.contains j || decide (j = k)) := by
  rw [contains_eq_bit, contains_eq_bit]
  simp only [insert]
  rw [bit_setBit (Nat.mod_lt _ (by decide))]
  congr 1
  rw [← Bool.decide_and, decide_eq_decide, ← Kind.toNat_inj]
  omega

@[simp] theorem contains_union (s t : KindSet) (k : Kind) :
    (s.union t).contains k = (s.contains k || t.contains k) := by
  simp only [contains_eq_bit, union]
  exact bit_orWords ..

/-! ## Counting and listing -/

/-- The number of bits set in a word. -/
def bitCount (x : BitVec 64) : Nat := (List.range 64).countP fun i => x.getLsbD i

/-- The number of bits set in a row of words, counted word by word. -/
def wordsCount (xs : List (BitVec 64)) : Nat := xs.foldr (fun x n => bitCount x + n) 0

/-- The number of kinds. -/
def size (s : KindSet) : Nat := wordsCount s.words

/-- A place in the listing: the number of the word at hand, what is left of its bits, and the words
behind it. -/
structure Cursor where
  word : Nat
  bits : BitVec 64
  rest : List (BitVec 64)
  deriving DecidableEq, Repr

namespace Cursor

/-- The number of bits that are left. -/
def count (c : Cursor) : Nat := wordsCount (c.bits :: c.rest)

/-- Goes on to a word that has a bit left. -/
def settle? (word : Nat) (bits : BitVec 64) : List (BitVec 64) → Option Cursor
  | [] => if bits = 0 then none else some ⟨word, bits, []⟩
  | x :: rest => if bits = 0 then settle? (word + 1) x rest else some ⟨word, bits, x :: rest⟩

/-- Takes the lowest bit away. -/
def clearLowest (c : Cursor) : Cursor := { c with bits := c.bits &&& (c.bits - 1) }

/-- The number of the lowest bit, counted from the first word on. -/
def lowest (c : Cursor) : Nat := 64 * c.word + c.bits.ctz.toNat

/-- The next kind and the place behind it. -/
def next? (c : Cursor) : Option (Kind × Cursor) :=
  (settle? c.word c.bits c.rest).map fun c => (.ofNat c.lowest, c.clearLowest)

variable {word : Nat} {bits : BitVec 64} {rest : List (BitVec 64)} {c c' : Cursor} {k : Kind}

theorem bits_ne_zero_of_settle? (h : settle? word bits rest = some c) : c.bits ≠ 0 := by
  fun_induction settle? word bits rest with
  | case1 => cases h
  | case2 word bits hbits => cases h; exact hbits
  | case3 word x rest ih => exact ih h
  | case4 word bits x rest hbits => cases h; exact hbits

/-- Words without a bit do not count. -/
theorem count_of_settle? (h : settle? word bits rest = some c) :
    c.count = count ⟨word, bits, rest⟩ := by
  fun_induction settle? word bits rest with
  | case1 => cases h
  | case2 => cases h; rfl
  | case3 word x rest ih =>
    have hzero : bitCount 0#64 = 0 := by decide
    rw [ih h]
    simp [count, wordsCount, hzero]
  | case4 => cases h; rfl

/-- Taking one away from a word clears the lowest bit and sets those below it. -/
theorem getLsbD_and_sub_one {x : BitVec 64} (hx : x ≠ 0) (i : Nat) :
    (x &&& (x - 1)).getLsbD i = (x.getLsbD i && decide (i ≠ x.ctz.toNat)) := by
  show (x &&& (x - 1#64)).getLsbD i = _
  rw [← BitVec.not_neg, BitVec.getLsbD_and]
  cases hi : x.getLsbD i with
  | false => rfl
  | true =>
    have hlt := BitVec.lt_of_getLsbD hi
    have hlow : (∃ j, j < i ∧ x.getLsbD j = true) ↔ i ≠ x.ctz.toNat := by
      constructor
      · rintro ⟨j, hj, hbit⟩ rfl
        rw [BitVec.getLsbD_false_of_lt_ctz hj] at hbit
        cases hbit
      · intro hne
        refine ⟨x.ctz.toNat, ?_, BitVec.getLsbD_true_ctz_of_ne_zero hx⟩
        by_cases hbelow : i < x.ctz.toNat
        · rw [BitVec.getLsbD_false_of_lt_ctz hbelow] at hi
          cases hi
        · omega
    rw [BitVec.getLsbD_not, BitVec.getLsbD_neg]
    simp only [hi, hlt, hlow]
    simp

theorem ctz_lt {x : BitVec 64} (hx : x ≠ 0) : x.ctz.toNat < 64 :=
  BitVec.lt_of_getLsbD (BitVec.getLsbD_true_ctz_of_ne_zero hx)

theorem bitCount_and_sub_one {x : BitVec 64} (hx : x ≠ 0) :
    bitCount x = bitCount (x &&& (x - 1)) + 1 := by
  have hlow := BitVec.getLsbD_true_ctz_of_ne_zero hx
  have hthis : (List.range 64).filter (· == x.ctz.toNat) = [x.ctz.toNat] := by
    have hmem : x.ctz.toNat ∈ List.range 64 := List.mem_range.2 (ctz_lt hx)
    rw [List.filter_beq, List.nodup_range.count, if_pos hmem, List.replicate_one]
  have hothers : (List.range 64).countP (fun i => (x &&& (x - 1)).getLsbD i) =
      ((List.range 64).filter (!· == x.ctz.toNat)).countP fun i => x.getLsbD i := by
    rw [List.countP_filter]
    refine List.countP_congr fun i _ => ?_
    rw [getLsbD_and_sub_one hx]
    simp
  rw [bitCount, bitCount, List.countP_eq_countP_filter_add _ _ (· == x.ctz.toNat), hthis, hothers]
  simp [hlow, Nat.add_comm]

theorem count_next? (h : c.next? = some (k, c')) : c.count = c'.count + 1 := by
  obtain ⟨c₁, hsettle, heq⟩ := Option.map_eq_some_iff.1 h
  cases heq
  have hcount := count_of_settle? hsettle
  have hbits := bitCount_and_sub_one (bits_ne_zero_of_settle? hsettle)
  simp only [count, wordsCount, clearLowest, List.foldr_cons] at hcount ⊢
  omega

/-- All kinds from a place on. -/
def drain (c : Cursor) : List Kind :=
  match h : c.next? with
  | none => []
  | some (k, c') =>
    have : c'.count < c.count := by have := count_next? h; omega
    k :: drain c'
termination_by c.count

end Cursor

/-- The place at which the listing of a set begins. -/
def cursor (s : KindSet) : Cursor := ⟨0, s.words.head?.getD 0, s.words.tail⟩

/-- The kinds of the set in ascending order. -/
def toList (s : KindSet) : List Kind := s.cursor.drain

/-- The kinds between braces. -/
def debug (s : KindSet) : String :=
  "\x7b" ++ ", ".intercalate (s.toList.map Kind.debugName) ++ "\x7d"

end KindSet

end Descent
