/-!
# Slices by byte offset

Offsets into a text count the bytes of its UTF-8 form. A slice exists when both ends lie inside
the text and between two characters.
-/

namespace Descent.Text

/-- The characters after the first `n` bytes. -/
def dropBytes? : Nat → List Char → Option (List Char)
  | 0, cs => some cs
  | _ + 1, [] => none
  | n + 1, c :: cs => if c.utf8Size ≤ n + 1 then dropBytes? (n + 1 - c.utf8Size) cs else none

/-- The characters within the first `n` bytes. -/
def takeBytes? : Nat → List Char → Option (List Char)
  | 0, _ => some []
  | _ + 1, [] => none
  | n + 1, c :: cs =>
    if c.utf8Size ≤ n + 1 then (takeBytes? (n + 1 - c.utf8Size) cs).map (c :: ·) else none

/-- The characters from byte `start` up to byte `stop`. -/
def sliceChars? (cs : List Char) (start stop : Nat) : Option (List Char) :=
  if start ≤ stop then (dropBytes? start cs).bind (takeBytes? (stop - start)) else none

/-- The length in bytes. -/
def byteLength : List Char → Nat
  | [] => 0
  | c :: cs => c.utf8Size + byteLength cs

theorem byteLength_append (l r : List Char) :
    byteLength (l ++ r) = byteLength l + byteLength r := by
  induction l with
  | nil => simp [byteLength]
  | cons c l ih => simp [byteLength, ih, Nat.add_assoc]

/-- Bytes can be dropped exactly where the text splits. -/
theorem dropBytes?_eq_some_iff {n : Nat} {cs r : List Char} :
    dropBytes? n cs = some r ↔ ∃ l, cs = l ++ r ∧ byteLength l = n := by
  constructor
  · intro h
    fun_induction dropBytes? n cs with
    | case1 cs => exact ⟨[], by simpa using h, rfl⟩
    | case2 => simp at h
    | case3 n c cs hc ih =>
      obtain ⟨l, rfl, hl⟩ := ih h
      exact ⟨c :: l, rfl, by simp only [byteLength]; omega⟩
    | case4 => simp at h
  · rintro ⟨l, rfl, rfl⟩
    induction l with
    | nil => simp [byteLength, dropBytes?]
    | cons c l ih =>
      have := c.utf8Size_pos
      obtain ⟨n, hn⟩ : ∃ n, c.utf8Size + byteLength l = n + 1 :=
        ⟨_, (Nat.succ_pred (by omega)).symm⟩
      rw [byteLength, hn, List.cons_append, dropBytes?, if_pos (by omega),
        show n + 1 - c.utf8Size = byteLength l by omega]
      exact ih

/-- Bytes can be taken exactly where the text splits. -/
theorem takeBytes?_eq_some_iff {n : Nat} {cs l : List Char} :
    takeBytes? n cs = some l ↔ ∃ r, cs = l ++ r ∧ byteLength l = n := by
  constructor
  · intro h
    fun_induction takeBytes? n cs generalizing l with
    | case1 cs => exact ⟨cs, by simp_all [byteLength]⟩
    | case2 => simp at h
    | case3 n c cs hc ih =>
      obtain ⟨m, hm, rfl⟩ := Option.map_eq_some_iff.1 h
      obtain ⟨r, rfl, hr⟩ := ih hm
      exact ⟨r, rfl, by simp only [byteLength]; omega⟩
    | case4 => simp at h
  · rintro ⟨r, rfl, rfl⟩
    induction l with
    | nil => simp [byteLength, takeBytes?]
    | cons c l ih =>
      have := c.utf8Size_pos
      obtain ⟨n, hn⟩ : ∃ n, c.utf8Size + byteLength l = n + 1 :=
        ⟨_, (Nat.succ_pred (by omega)).symm⟩
      rw [byteLength, hn, List.cons_append, takeBytes?, if_pos (by omega),
        show n + 1 - c.utf8Size = byteLength l by omega, ih]
      rfl

/-- A slice is a part that has the offsets of the slice before and behind it. -/
theorem sliceChars?_eq_some_iff {cs m : List Char} {start stop : Nat} :
    sliceChars? cs start stop = some m ↔
      ∃ l r, cs = l ++ m ++ r ∧ byteLength l = start ∧ byteLength (l ++ m) = stop := by
  simp only [sliceChars?]
  constructor
  · intro h
    split at h
    · obtain ⟨x, hx, hm⟩ := Option.bind_eq_some_iff.1 h
      obtain ⟨l, rfl, hl⟩ := dropBytes?_eq_some_iff.1 hx
      obtain ⟨r, rfl, hr⟩ := takeBytes?_eq_some_iff.1 hm
      exact ⟨l, r, by simp, hl, by rw [byteLength_append]; omega⟩
    · simp at h
  · rintro ⟨l, r, rfl, rfl, rfl⟩
    rw [byteLength_append, if_pos (by omega), List.append_assoc,
      dropBytes?_eq_some_iff.2 ⟨l, rfl, rfl⟩]
    exact takeBytes?_eq_some_iff.2 ⟨r, rfl, by omega⟩

/-- The part of the text from byte `start` up to byte `stop`. -/
def slice? (s : String) (start stop : Nat) : Option String :=
  (sliceChars? s.toList start stop).map String.ofList

/-- Equality up to the case of the ASCII letters. -/
def equalAsciiLetters (a b : String) : Bool :=
  a.toList.map Char.toLower == b.toList.map Char.toLower

/-- The first `max` characters, followed by three dots if any are left out. -/
def shorten (s : String) (max : Nat) : String :=
  if s.toList.length ≤ max then s else String.ofList (s.toList.take max ++ ['.', '.', '.'])

end Descent.Text
