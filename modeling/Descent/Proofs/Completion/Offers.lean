import Descent.Proofs.Completion.Abbreviations
import Descent.Proofs.Source.Texts

/-!
# What is accepted before the caret

With the caret at or behind a token that has a text, a candidate is accepted if it is worth offering and
the source from the token to the caret is empty or abbreviates it, but only if it has at least as many
bytes as the source there (`Completion.accepts_iff_fragment`). An abbreviation has no more characters than
its candidate. It can have more bytes, though: a letter may be longer in one case than in the other, as the
Kelvin sign is longer than `k` (`Completion.not_accepts_kelvin`). Where no letter of the text is longer than
the same letter of the candidate, the comparison of lengths rules nothing out.
-/

namespace Descent

/-! ## Between two boundaries -/

namespace Text

variable {s : String} {a b : Nat}

/-- An offset between two characters, or at an end of the text. -/
def IsBoundary (s : String) (n : Nat) : Prop := Text.slice? s n n = some ""

instance (s : String) (n : Nat) : Decidable (IsBoundary s n) := inferInstanceAs (Decidable (_ = _))

theorem byteLength_eq_zero_iff {cs : List Char} : byteLength cs = 0 ↔ cs = [] := by
  cases cs with
  | nil => simp [byteLength]
  | cons c cs =>
    have hpos := c.utf8Size_pos
    simp only [byteLength, reduceCtorEq, iff_false]
    omega

theorem byteLength_drop_le (cs : List Char) (n : Nat) : byteLength (cs.drop n) ≤ byteLength cs := by
  have hsum := byteLength_append (cs.take n) (cs.drop n)
  rw [List.take_append_drop] at hsum
  omega

theorem IsBoundary.exists_append (h : IsBoundary s a) :
    ∃ l r, s.toList = l ++ r ∧ byteLength l = a := by
  obtain ⟨m, hm, -⟩ := Option.map_eq_some_iff.1 h
  obtain ⟨l, r, hs, hl, -⟩ := sliceChars?_eq_some_iff.1 hm
  exact ⟨l, m ++ r, by rw [hs, List.append_assoc], hl⟩

/-- There is a slice from one boundary to any later one. -/
theorem IsBoundary.exists_slice? (ha : IsBoundary s a) (hb : IsBoundary s b) (hab : a ≤ b) :
    ∃ t, slice? s a b = some t := by
  obtain ⟨l, r, hl, rfl⟩ := ha.exists_append
  obtain ⟨l', r', hl', rfl⟩ := hb.exists_append
  have hslice (m : List Char) (hm : l' = l ++ m) :
      ∃ t, slice? s (byteLength l) (byteLength l') = some t := by
    have hchars : sliceChars? s.toList (byteLength l) (byteLength l') = some m :=
      sliceChars?_eq_some_iff.2 ⟨l, r', by rw [hl', hm], rfl, by rw [hm]⟩
    exact ⟨String.ofList m, by rw [slice?, hchars, Option.map_some]⟩
  rcases List.append_eq_append_iff.1 (hl.symm.trans hl') with ⟨m, hm, -⟩ | ⟨m, hm, -⟩
  · exact hslice m hm
  · have hzero : byteLength m = 0 := by
      rw [hm, byteLength_append] at hab
      omega
    rw [byteLength_eq_zero_iff.1 hzero, List.append_nil] at hm
    exact hslice [] (by rw [hm, List.append_nil])

end Text

/-! ## Lengths of abbreviations -/

namespace Completion

variable {name pattern : List Char} {i : Nat} {text candidate : String}

/-- No letter of a text is longer than the same letter of a candidate. -/
def NoLonger (text candidate : List Char) : Prop :=
  ∀ c ∈ text, ∀ d ∈ candidate, Text.sameLetter d c = true → c.utf8Size ≤ d.utf8Size

/-- Letters of one byte are as short as any. -/
theorem noLonger_of_utf8Size {text : List Char} (h : ∀ c ∈ text, c.utf8Size = 1) (candidate : List Char) :
    NoLonger text candidate := by
  intro c hc d _ _
  have hpos := d.utf8Size_pos
  have hone := h c hc
  omega

@[simp] theorem utf8Size_underscored (c : Char) : (underscored c).utf8Size = c.utf8Size := by
  rw [underscored]
  split
  · next hc => rw [hc]; decide
  · rfl

theorem byteLength_underscored (cs : List Char) :
    Text.byteLength (cs.map underscored) = Text.byteLength cs := by
  induction cs with
  | nil => rfl
  | cons c cs ih => simp [Text.byteLength, ih]

/-- What reads as an underscore is one byte long. -/
theorem utf8Size_of_lowercase_underscored {c : Char}
    (h : Text.lowercase (underscored c) = ['_']) : c.utf8Size = 1 := by
  have hsign : underscored c = '_' := by
    apply Text.eq_of_lowercase _ _ h
    · decide
    · decide
  rw [← utf8Size_underscored, hsign]
  decide

/-- Reading blanks as underscores makes no letter longer than another one. -/
theorem NoLonger.underscored (h : NoLonger text.toList candidate.toList) :
    NoLonger (text.toList.map underscored) (candidate.toList.map underscored) := by
  have hsign : Text.lowercase '_' = ['_'] := by decide
  intro c hc d hd hsame
  obtain ⟨a, ha, rfl⟩ := List.mem_map.1 hc
  obtain ⟨b, hb, rfl⟩ := List.mem_map.1 hd
  have hlower := Text.sameLetter_iff.1 hsame
  have hpos := b.utf8Size_pos
  rw [utf8Size_underscored, utf8Size_underscored]
  by_cases hblank : a = ' ' ∨ b = ' '
  · have hone : a.utf8Size = 1 := by
      apply utf8Size_of_lowercase_underscored
      rcases hblank with rfl | rfl
      · exact hsign
      · rw [← hlower]
        exact hsign
    omega
  · obtain ⟨hna, hnb⟩ := not_or.1 hblank
    simp only [Completion.underscored, if_neg hna, if_neg hnb] at hsame
    exact h a ha b hb hsame

/-- The places of a pattern leave room for all of its characters. -/
theorem byteLength_le_of_follows (hsize : NoLonger pattern name) (h : follows name pattern i = true) :
    Text.byteLength pattern ≤ Text.byteLength (name.drop i) := by
  induction pattern generalizing i with
  | nil => exact Nat.zero_le _
  | cons p ps ih =>
    obtain ⟨⟨d, hd, hlower⟩, hnext⟩ := follows_cons_iff.1 h
    obtain ⟨hi, rfl⟩ := List.getElem?_eq_some_iff.1 hd
    have hfirst : p.utf8Size ≤ name[i].utf8Size :=
      hsize p List.mem_cons_self _ (List.getElem_mem hi) (Text.sameLetter_iff.2 hlower)
    have hrest : Text.byteLength ps ≤ Text.byteLength (name.drop (i + 1)) := by
      rcases hnext with rfl | ⟨j, hj, hfollows⟩
      · exact Nat.zero_le _
      · have hle : i + 1 ≤ j := by
          rcases hj with rfl | ⟨hlt, -⟩ <;> omega
        have hps := ih (fun c hc => hsize c (List.mem_cons_of_mem _ hc)) hfollows
        have hdrop := Text.byteLength_drop_le (name.drop (i + 1)) (j - (i + 1))
        rw [List.drop_drop, show i + 1 + (j - (i + 1)) = j by omega] at hdrop
        exact Nat.le_trans hps hdrop
    rw [List.drop_eq_getElem_cons hi]
    simp only [Text.byteLength]
    omega

/-- An abbreviation of letters that are no longer is no longer. -/
theorem utf8ByteSize_le_of_abbreviates (hsize : NoLonger text.toList candidate.toList)
    (h : abbreviates text candidate = true) : text.utf8ByteSize ≤ candidate.utf8ByteSize := by
  have hbytes (s : String) : s.utf8ByteSize = Text.byteLength s.toList := by
    rw [Text.byteLength_eq_utf8ByteSize, String.ofList_toList]
  rw [hbytes, hbytes]
  obtain ⟨hplaces, -⟩ := Bool.and_eq_true_iff.1 h
  rcases Bool.or_eq_true_iff.1 hplaces with hempty | hfollows
  · rw [List.isEmpty_iff.1 hempty]
    exact Nat.zero_le _
  · have hle := byteLength_le_of_follows hsize.underscored hfollows
    rwa [List.drop_zero, byteLength_underscored, byteLength_underscored] at hle

/-! ## Candidates -/

variable {source : Source} {language : Language} {caret p : Nat} {fragment : String}

/-- With the caret at or behind a position, the text up to the caret decides, and its length. -/
theorem fits_iff (h : Text.slice? source.text (source.start p) caret = some fragment) :
    fits source language caret p candidate = true ↔
      fragment = "" ∨
        (abbreviates fragment candidate = true ∧ fragment.utf8ByteSize ≤ candidate.utf8ByteSize) := by
  have hsize := Text.utf8ByteSize_of_slice? h
  unfold fits fragmentAbbreviates
  dsimp only
  by_cases hhere : caret = source.start p
  · have hempty : fragment = "" := by
      apply String.utf8ByteSize_eq_zero_iff.1
      omega
    simp [hhere, hempty]
  · have hne : fragment ≠ "" := by
      rintro rfl
      apply hhere
      simpa using hsize.symm
    rw [if_neg hhere, if_pos (by omega), h, Option.any_some, Bool.and_eq_true, decide_eq_true_eq,
      show caret - source.start p = fragment.utf8ByteSize by omega]
    simp [hne, and_comm]

/-- In a source without gaps only a token without text starts where the next one does. -/
theorem accepts_eq (hsource : source.Contiguous)
    (hlength : ∀ token, source.tokens[p]? = some token → token.span.start < token.span.stop) :
    accepts source language caret p candidate =
      (isOfferable candidate && fits source language caret p candidate) := by
  unfold accepts
  rw [if_neg]
  intro hcond
  simp only [Bool.and_eq_true, decide_eq_true_eq] at hcond
  obtain ⟨hsome, hstart⟩ := hcond
  obtain ⟨kind, hkind⟩ := Option.isSome_iff_exists.1 hsome
  obtain ⟨token, htoken, -⟩ := Option.map_eq_some_iff.1 hkind
  have hlt := hlength token htoken
  have hhere : source.start p = token.span.start := by rw [Source.start, Source.span, htoken]
  have hnext := hsource.stop_eq_start htoken
  omega

/-- With the caret on a boundary at or behind a token that has a text, or at the end of the source, there is
a text from there to the caret. A candidate is accepted exactly if it is worth offering and that text is
empty or abbreviates it without being longer in bytes. If no letter of the text is longer than the same
letter of the candidate, abbreviating it is enough. -/
theorem accepts_iff_fragment (hsource : source.Contiguous) (hcut : source.WellCut) (language : Language)
    (hboundary : Text.IsBoundary source.text caret) (hcaret : source.start p ≤ caret)
    (hlength : ∀ token, source.tokens[p]? = some token → token.span.start < token.span.stop)
    (candidate : String) :
    ∃ fragment, Text.slice? source.text (source.start p) caret = some fragment ∧
      (accepts source language caret p candidate = true ↔ isOfferable candidate = true ∧
        (fragment = "" ∨ (abbreviates fragment candidate = true ∧
          fragment.utf8ByteSize ≤ candidate.utf8ByteSize))) ∧
      (NoLonger fragment.toList candidate.toList →
        (accepts source language caret p candidate = true ↔
          isOfferable candidate = true ∧ (fragment = "" ∨ abbreviates fragment candidate = true))) := by
  have hstart : Text.IsBoundary source.text (source.start p) := hcut.slice?_start p
  obtain ⟨fragment, hslice⟩ := hstart.exists_slice? hboundary hcaret
  have hiff : accepts source language caret p candidate = true ↔ isOfferable candidate = true ∧
      (fragment = "" ∨ (abbreviates fragment candidate = true ∧
        fragment.utf8ByteSize ≤ candidate.utf8ByteSize)) := by
    rw [accepts_eq hsource hlength, Bool.and_eq_true, fits_iff hslice]
  refine ⟨fragment, hslice, hiff, fun hsize => ?_⟩
  rw [hiff]
  constructor
  · rintro ⟨hoffer, hempty | ⟨habbreviates, -⟩⟩
    · exact ⟨hoffer, .inl hempty⟩
    · exact ⟨hoffer, .inr habbreviates⟩
  · rintro ⟨hoffer, hempty | habbreviates⟩
    · exact ⟨hoffer, .inl hempty⟩
    · exact ⟨hoffer, .inr ⟨habbreviates, utf8ByteSize_le_of_abbreviates hsize habbreviates⟩⟩

/-- A name of two letters. -/
def twoLetters : Source where
  text := "fB"
  tokens := [⟨⟨3⟩, ⟨0, 2⟩⟩]

theorem accepts_iff_fragment_twoLetters :
    twoLetters.Contiguous ∧ twoLetters.WellCut ∧ Text.IsBoundary twoLetters.text 2 ∧
      twoLetters.start 0 ≤ 2 ∧
      (∀ token, twoLetters.tokens[0]? = some token → token.span.start < token.span.stop) ∧
      NoLonger "fB".toList "foo_bar".toList ∧
      (accepts twoLetters ({} : LanguageTable).toLanguage 2 0 "foo_bar" = true ↔
        isOfferable "foo_bar" = true ∧ ("fB" = "" ∨ abbreviates "fB" "foo_bar" = true)) ∧
      accepts twoLetters ({} : LanguageTable).toLanguage 2 0 "foo_bar" = true := by
  have hsource : twoLetters.Contiguous := .cons rfl (.nil _)
  have hcut : twoLetters.WellCut := by decide
  have hboundary : Text.IsBoundary twoLetters.text 2 := by decide
  have hcaret : twoLetters.start 0 ≤ 2 := by decide
  have hlength : ∀ token, twoLetters.tokens[0]? = some token → token.span.start < token.span.stop := by
    rintro token ⟨⟩
    decide
  have hsize : NoLonger "fB".toList "foo_bar".toList := by
    have hall : ("fB".toList.all fun c => c.utf8Size == 1) = true := by decide
    apply noLonger_of_utf8Size
    intro c hc
    exact eq_of_beq (List.all_eq_true.1 hall c hc)
  obtain ⟨fragment, hslice, -, hiff⟩ :=
    accepts_iff_fragment hsource hcut ({} : LanguageTable).toLanguage hboundary hcaret hlength "foo_bar"
  obtain rfl : "fB" = fragment := Option.some.inj (Eq.trans (by decide) hslice)
  have habbreviates : abbreviates "fB" "foo_bar" = true := by decide +kernel
  exact ⟨hsource, hcut, hboundary, hcaret, hlength, hsize, hiff hsize,
    (hiff hsize).2 ⟨by decide, .inr habbreviates⟩⟩

/-- The Kelvin sign, which is the letter `k` in another case and takes three bytes. -/
def kelvin : Source where
  text := "\u212A"
  tokens := [⟨⟨3⟩, ⟨0, 3⟩⟩]

/-- An abbreviation is refused because it has more bytes than its candidate. -/
theorem not_accepts_kelvin :
    kelvin.Contiguous ∧ kelvin.WellCut ∧ Text.IsBoundary kelvin.text 3 ∧ kelvin.start 0 ≤ 3 ∧
      (∀ token, kelvin.tokens[0]? = some token → token.span.start < token.span.stop) ∧
      Text.slice? kelvin.text (kelvin.start 0) 3 = some "\u212A" ∧ isOfferable "ke" = true ∧
      abbreviates "\u212A" "ke" = true ∧
      accepts kelvin ({} : LanguageTable).toLanguage 3 0 "ke" = false := by
  refine ⟨.cons rfl (.nil _), by decide, by decide, by decide, ?_, by decide, by decide,
    by decide +kernel, by decide +kernel⟩
  rintro token ⟨⟩
  decide

end Completion

end Descent
