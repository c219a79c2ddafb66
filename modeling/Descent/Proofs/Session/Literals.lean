import Descent.Proofs.Session.Seeking
import Descent.Proofs.Source.Texts
import Mathlib.Data.Nat.Find
import Mathlib.Tactic.ByContra

/-!
# Literals

A literal is looked up in the source by bytes and stepped over by tokens. Where the tokens leave no gaps
and are cut between characters, the two agree: a literal is consumed if tokens in a row read like it, as few
of them as will do, and nothing is consumed otherwise (`Session.consumeLiteral_iff_reads`).
-/

namespace Descent

/-- Some tokens from a position on, trivia and tokens without a text counted, read like a literal; it is for
the language to say whether the case of letters matters. -/
def Setup.Reads (g : Setup) (literal : String) (i n : Nat) : Prop :=
  1 ≤ n ∧ i + n ≤ g.source.size ∧ Session.sameText g.language (g.source.textFrom i n) literal = true

/-- Texts that are the same to a language are of one length. -/
theorem Session.utf8ByteSize_of_sameText {language : Language} {a b : String}
    (h : sameText language a b = true) : a.utf8ByteSize = b.utf8ByteSize := by
  unfold sameText at h
  split at h
  · rw [eq_of_beq h]
  · exact Text.utf8ByteSize_of_equalAsciiLetters h

namespace Session

section

variable {g : Setup} {literal : String} {s : Session} {n : Nat}
  (hgap : g.source.Contiguous) (hcut : g.source.WellCut)
include hgap hcut

/-- Tokens that read like a literal end where the literal does, and the source reads like it up to there. -/
theorem reads_iff {i : Nat} (hn : 1 ≤ n) (hsize : i + n ≤ g.source.size) :
    g.Reads literal i n ↔ g.source.start (i + n) = g.source.start i + literal.utf8ByteSize ∧
      (Text.slice? g.source.text (g.source.start i) (g.source.start i + literal.utf8ByteSize)).any
        (sameText g.language · literal) = true := by
  have hslice := hgap.slice?_textFrom hcut hsize
  constructor
  · rintro ⟨-, -, hsame⟩
    have hstop : g.source.start (i + n) = g.source.start i + literal.utf8ByteSize := by
      rw [← utf8ByteSize_of_sameText hsame, hgap.start_add_textFrom hcut hsize]
    rw [← hstop, hslice]
    exact ⟨rfl, hsame⟩
  · rintro ⟨hstop, hany⟩
    rw [← hstop, hslice] at hany
    exact ⟨hn, hsize, hany⟩

theorem start_le_start {i j : Nat} (h : i ≤ j) (hj : j ≤ g.source.size) :
    g.source.start i ≤ g.source.start j := by
  obtain ⟨n, rfl⟩ := Nat.exists_eq_add_of_le h
  rw [← hgap.start_add_textFrom hcut hj]
  exact Nat.le_add_right ..

/-- The length of a literal is the least number of tokens that read like it. -/
theorem literalLength?_eq_some_iff (hliteral : literal ≠ "") :
    s.literalLength? g literal = some n ↔
      g.Reads literal s.position n ∧ ∀ m, g.Reads literal s.position m → n ≤ m := by
  have hne : (!literal.isEmpty) = true := by rw [String.isEmpty_eq_false_iff.2 hliteral, Bool.not_false]
  simp only [literalLength?, offset, hne, Bool.true_and]
  constructor
  · intro h
    split at h
    · next htext =>
      obtain ⟨hfind, hstop⟩ := Option.filter_eq_some_iff.1 h
      obtain ⟨-, hrange, hfirst⟩ := List.find?_range'_eq_some.1 hfind
      rw [List.mem_range'_1] at hrange
      refine ⟨(reads_iff hgap hcut hrange.1 (by omega)).2 ⟨of_decide_eq_true hstop, htext⟩, fun m hm => ?_⟩
      by_contra hlt
      have hstop := ((reads_iff hgap hcut hm.1 hm.2.1).1 hm).1
      have hbefore := hfirst m hm.1 (Nat.lt_of_not_le hlt)
      rw [hstop] at hbefore
      simp at hbefore
    · cases h
  · rintro ⟨hreads, hleast⟩
    obtain ⟨hn, hsize, -⟩ := id hreads
    obtain ⟨hstop, htext⟩ := (reads_iff hgap hcut hn hsize).1 hreads
    rw [if_pos htext, Option.filter_eq_some_iff]
    refine ⟨List.find?_range'_eq_some.2 ⟨by simp [hstop], List.mem_range'_1.2 (by omega), fun m hm hlt => ?_⟩,
      by simp [hstop]⟩
    -- a shorter row that reaches as far ends at the same offset, and so it reads like the literal too
    rw [Bool.not_eq_true']
    refine decide_eq_false fun hreach => ?_
    have hle := start_le_start hgap hcut (Nat.add_le_add_left (Nat.le_of_lt hlt) s.position) hsize
    have hreads := (reads_iff hgap hcut hm (by omega)).2 ⟨Nat.le_antisymm (hstop ▸ hle) hreach, htext⟩
    exact absurd (hleast m hreads) (Nat.not_le_of_lt hlt)

/-- A literal has a length if tokens read like it. -/
theorem isSome_literalLength?_iff (hliteral : literal ≠ "") :
    (s.literalLength? g literal).isSome = true ↔ ∃ n, g.Reads literal s.position n := by
  classical
  rw [Option.isSome_iff_exists]
  constructor
  · rintro ⟨n, hn⟩
    exact ⟨n, ((literalLength?_eq_some_iff hgap hcut hliteral).1 hn).1⟩
  · intro h
    exact ⟨Nat.find h, (literalLength?_eq_some_iff hgap hcut hliteral).2
      ⟨Nat.find_spec h, fun m hm => Nat.find_min' h hm⟩⟩

/-- A literal is consumed if tokens in a row from the next significant one on read like it. It takes the
fewest that do, which are as long as it is. Otherwise nothing but trivia is passed. To look for a literal
gives the same answer and passes nothing but trivia. -/
theorem consumeLiteral_iff_reads (hliteral : literal ≠ "") (hs : s.isAborted = false) :
    ((s.consumeLiteral g literal).1 = true ↔ ∃ n, g.Reads literal (g.significant s.position) n) ∧
    ((s.consumeLiteral g literal).1 = true → ∃ n, g.Reads literal (g.significant s.position) n ∧
      (∀ m, g.Reads literal (g.significant s.position) m → n ≤ m) ∧
      (s.consumeLiteral g literal).2.position = g.significant s.position + n ∧
      (s.consumeLiteral g literal).2.offset g =
        g.source.start (g.significant s.position) + literal.utf8ByteSize) ∧
    ((s.consumeLiteral g literal).1 = false →
      (s.consumeLiteral g literal).2.position = g.significant s.position) ∧
    (s.completion = none → (s.nextLiteral g literal).1 = (s.consumeLiteral g literal).1 ∧
      (s.nextLiteral g literal).2.position = g.significant s.position) := by
  have hposition : (s.expect g (.text literal)).position = g.significant s.position :=
    (Seeks.expect g (.text literal) s).position
  have hlength := isSome_literalLength?_iff hgap hcut hliteral (s := s.expect g (.text literal))
  have hnext (hc : s.completion = none) : s.nextLiteral g literal =
      (((s.expect g (.text literal)).literalLength? g literal).isSome, s.expect g (.text literal)) := by
    simp [nextLiteral, hs, hc]
  rw [hposition] at hlength
  cases hn : (s.expect g (.text literal)).literalLength? g literal with
  | none =>
    have hconsume : s.consumeLiteral g literal = (false, s.expect g (.text literal)) := by
      simp [consumeLiteral, hs, hn]
    rw [hn] at hlength hnext
    rw [hconsume]
    exact ⟨by simpa using hlength, fun h => by simp at h, fun _ => hposition,
      fun hc => by rw [hnext hc]; exact ⟨rfl, hposition⟩⟩
  | some n =>
    have hconsume : s.consumeLiteral g literal =
        (true, { s.expect g (.text literal) with position := (s.expect g (.text literal)).position + n }) := by
      simp [consumeLiteral, hs, hn]
    rw [hn] at hlength hnext
    obtain ⟨hreads, hleast⟩ := (literalLength?_eq_some_iff hgap hcut hliteral).1 hn
    rw [hposition] at hreads hleast
    rw [hconsume, hposition]
    refine ⟨by simpa using hlength, fun _ => ⟨n, hreads, hleast, rfl, ?_⟩, fun h => by simp at h,
      fun hc => by rw [hnext hc]; exact ⟨rfl, hposition⟩⟩
    exact ((reads_iff hgap hcut hreads.1 hreads.2.1).1 hreads).1

end

/-- Behind a blank, a literal over three tokens, one of them without a text. The case of its ASCII letters
does not matter, and its first letter takes two bytes. -/
theorem consumeLiteral_iff_reads_threeTokens :
    let word : Kind := ⟨2⟩
    let blank : Kind := ⟨3⟩
    let g : Setup :=
      { source := ⟨" \u00C0B-", [⟨blank, 0, 1⟩, ⟨word, 1, 3⟩, ⟨word, 3, 3⟩, ⟨word, 3, 4⟩, ⟨word, 4, 5⟩]⟩
        language := { nameOf := fun _ => "", isTrivia := fun k => k == blank, caseSensitive := false } }
    let s : Session := {}
    g.source.Contiguous ∧ g.source.WellCut ∧ "\u00C0b" ≠ "" ∧ s.isAborted = false ∧
      (∃ n, g.Reads "\u00C0b" 1 n) ∧ (s.consumeLiteral g "\u00C0b").2.position = 4 := by
  intro word blank g s
  have hgap : g.source.Contiguous := .cons rfl (.cons rfl (.cons rfl (.cons rfl (.cons rfl (.nil 5)))))
  have hcut : g.source.WellCut := by decide
  have hreads := consumeLiteral_iff_reads (s := s) hgap hcut (show "\u00C0b" ≠ "" by decide) rfl
  exact ⟨hgap, hcut, by decide, rfl, hreads.1.1 (by decide +kernel), by decide +kernel⟩

end Session

end Descent
