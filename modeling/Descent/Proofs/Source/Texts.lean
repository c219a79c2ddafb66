import Descent.Proofs.Tree.Tiling

/-!
# The texts of tokens

The tokens of a source without gaps, each cut between two characters, cut the text into their own texts.
So the texts of tokens in a row, one behind the other, are what the source reads from the offset of the
first to the offset behind the last (`Source.Contiguous.slice?_textFrom`).
-/

namespace Descent

/-! ## Slices -/

namespace Text

variable {s t u : String} {a b c : Nat} {cs ds : List Char}

/-- What is taken from one offset on and what is taken from its end on make one slice. -/
theorem sliceChars?_append {l m n : List Char} (h : sliceChars? l a b = some m)
    (h' : sliceChars? l b c = some n) : sliceChars? l a c = some (m ++ n) := by
  obtain ⟨before, rest, hl, ha, hb⟩ := sliceChars?_eq_some_iff.1 h
  obtain ⟨before', rest', hl', hb', hc⟩ := sliceChars?_eq_some_iff.1 h'
  have hdrop : dropBytes? b l = some rest := dropBytes?_eq_some_iff.2 ⟨before ++ m, hl, hb⟩
  have hdrop' : dropBytes? b l = some (n ++ rest') :=
    dropBytes?_eq_some_iff.2 ⟨before', by rw [hl', List.append_assoc], hb'⟩
  obtain rfl : rest = n ++ rest' := Option.some.inj (hdrop.symm.trans hdrop')
  refine sliceChars?_eq_some_iff.2 ⟨before, rest', by simp [hl], ha, ?_⟩
  rw [byteLength_append] at hc
  rw [← List.append_assoc, byteLength_append, hb, ← hb']
  exact hc

theorem slice?_append (h : slice? s a b = some t) (h' : slice? s b c = some u) :
    slice? s a c = some (t ++ u) := by
  obtain ⟨m, hm, rfl⟩ := Option.map_eq_some_iff.1 h
  obtain ⟨n, hn, rfl⟩ := Option.map_eq_some_iff.1 h'
  rw [slice?, sliceChars?_append hm hn, Option.map_some, String.ofList_append]

theorem byteLength_eq_utf8ByteSize (cs : List Char) : byteLength cs = (String.ofList cs).utf8ByteSize := by
  induction cs with
  | nil => rfl
  | cons c cs ih =>
    rw [byteLength, ih, ← List.singleton_append, String.ofList_append, String.utf8ByteSize_append,
      ← String.singleton_eq_ofList, String.utf8ByteSize_singleton]

/-- A slice is as long as its offsets are apart. -/
theorem utf8ByteSize_of_slice? (h : slice? s a b = some t) : a + t.utf8ByteSize = b := by
  obtain ⟨m, hm, rfl⟩ := Option.map_eq_some_iff.1 h
  obtain ⟨before, -, -, ha, hb⟩ := sliceChars?_eq_some_iff.1 hm
  rw [byteLength_append] at hb
  rw [← byteLength_eq_utf8ByteSize]
  omega

/-- There is an empty slice where another one starts. -/
theorem slice?_empty (h : slice? s a b = some t) : slice? s a a = some "" := by
  obtain ⟨m, hm, rfl⟩ := Option.map_eq_some_iff.1 h
  obtain ⟨before, rest, hs, ha, -⟩ := sliceChars?_eq_some_iff.1 hm
  have hempty : sliceChars? s.toList a a = some [] :=
    sliceChars?_eq_some_iff.2 ⟨before, m ++ rest, by simp [hs], ha, by simp [ha]⟩
  rw [slice?, hempty]
  rfl

theorem slice?_end (s : String) : slice? s s.utf8ByteSize s.utf8ByteSize = some "" := by
  have hsize : byteLength s.toList = s.utf8ByteSize := by rw [byteLength_eq_utf8ByteSize, String.ofList_toList]
  have hempty : sliceChars? s.toList s.utf8ByteSize s.utf8ByteSize = some [] :=
    sliceChars?_eq_some_iff.2 ⟨s.toList, [], by simp, hsize, by simp [hsize]⟩
  rw [slice?, hempty]
  rfl

/-- The case of a letter does not tell in its length. -/
theorem utf8Size_toLower (c : Char) : c.toLower.utf8Size = c.utf8Size := by
  unfold Char.toLower
  split
  · next h =>
    have hc : c.val.toNat ≤ 90 := h.2
    have hlower : (c.val + ('a'.val - 'A'.val)).toNat ≤ 127 := by
      rw [UInt32.toNat_add]
      change (c.val.toNat + 32) % 2 ^ 32 ≤ 127
      omega
    rw [Char.utf8Size_eq_one_iff.2 (UInt32.le_iff_toNat_le.2 hlower), eq_comm, Char.utf8Size_eq_one_iff]
    exact UInt32.le_iff_toNat_le.2 (Nat.le_trans hc (by decide))
  · rfl

theorem utf8ByteSize_of_equalAsciiLetters (h : equalAsciiLetters s t = true) :
    s.utf8ByteSize = t.utf8ByteSize := by
  have hlower (cs : List Char) : byteLength (cs.map Char.toLower) = byteLength cs := by
    induction cs with
    | nil => rfl
    | cons c cs ih => rw [List.map_cons, byteLength, byteLength, ih, utf8Size_toLower]
  have hmap : s.toList.map Char.toLower = t.toList.map Char.toLower := eq_of_beq h
  have hlength := congrArg byteLength hmap
  rwa [hlower, hlower, byteLength_eq_utf8ByteSize, byteLength_eq_utf8ByteSize, String.ofList_toList,
    String.ofList_toList] at hlength

end Text

/-! ## Tokens in a row -/

namespace Source

/-- Every token is cut between two characters of the text. -/
def WellCut (source : Source) : Prop :=
  ∀ token ∈ source.tokens, (Text.slice? source.text token.span.start token.span.stop).isSome

instance (source : Source) : Decidable source.WellCut :=
  inferInstanceAs (Decidable (∀ token ∈ source.tokens, _))

/-- The texts of `n` tokens in a row, one behind the other. -/
def textFrom (source : Source) (i n : Nat) : String :=
  String.join (((source.tokens.drop i).take n).map (source.textOf ·.span))

variable {source : Source} {i n : Nat}

theorem textFrom_zero (source : Source) (i : Nat) : source.textFrom i 0 = "" := by
  rw [textFrom, List.take_zero, List.map_nil, String.join_nil]

theorem textFrom_succ (h : i + n < source.size) :
    source.textFrom i (n + 1) = source.textFrom i n ++ source.textAt (i + n) := by
  have hget : source.tokens[i + n]? = some source.tokens[i + n] := List.getElem?_eq_getElem h
  rw [textFrom, List.take_add_one, List.getElem?_drop, hget, List.map_append, String.join_append, textAt, hget]
  simp [textFrom]

/-- There is a slice of nothing at the start of every token and behind the last one. -/
theorem WellCut.slice?_start (h : source.WellCut) (i : Nat) :
    Text.slice? source.text (source.start i) (source.start i) = some "" := by
  rw [start, span]
  cases hi : source.tokens[i]? with
  | none => exact Text.slice?_end source.text
  | some token =>
    obtain ⟨text, htext⟩ := Option.isSome_iff_exists.1 (h token (List.mem_of_getElem? hi))
    exact Text.slice?_empty htext

namespace Contiguous

/-- A token stops where the next one starts. -/
theorem stop_eq_start (h : source.Contiguous) {token : Token} (hi : source.tokens[i]? = some token) :
    token.span.stop = source.start (i + 1) := by
  obtain ⟨hlt, rfl⟩ := List.getElem?_eq_some_iff.1 hi
  have hrest := h.drop i
  rw [List.drop_eq_getElem_cons hlt, List.map_cons] at hrest
  cases hrest with
  | cons _ hrest => exact hrest.start_unique (h.drop (i + 1))

/-- A token reads as the source does from where it starts to where the next one starts. -/
theorem slice?_textAt (h : source.Contiguous) (hcut : source.WellCut) (hi : i < source.size) :
    Text.slice? source.text (source.start i) (source.start (i + 1)) = some (source.textAt i) := by
  have hget : source.tokens[i]? = some source.tokens[i] := List.getElem?_eq_getElem hi
  have hstart : source.start i = source.tokens[i].span.start := by rw [start, span, hget]
  obtain ⟨text, htext⟩ := Option.isSome_iff_exists.1 (hcut _ (List.getElem_mem hi))
  have htextAt : source.textAt i = text := by simp only [textAt, hget, textOf, htext, Option.getD_some]
  rw [hstart, ← h.stop_eq_start hget, htext, htextAt]

/-- Tokens in a row read as the source does from the first to behind the last. -/
theorem slice?_textFrom (h : source.Contiguous) (hcut : source.WellCut) (hn : i + n ≤ source.size) :
    Text.slice? source.text (source.start i) (source.start (i + n)) = some (source.textFrom i n) := by
  induction n with
  | zero => rw [textFrom_zero]; exact hcut.slice?_start i
  | succ n ih =>
    rw [textFrom_succ hn]
    exact Text.slice?_append (ih (Nat.le_of_succ_le hn)) (h.slice?_textAt hcut hn)

/-- So they are as long as their offsets are apart. -/
theorem start_add_textFrom (h : source.Contiguous) (hcut : source.WellCut) (hn : i + n ≤ source.size) :
    source.start i + (source.textFrom i n).utf8ByteSize = source.start (i + n) :=
  Text.utf8ByteSize_of_slice? (h.slice?_textFrom hcut hn)

end Contiguous

end Source

end Descent
