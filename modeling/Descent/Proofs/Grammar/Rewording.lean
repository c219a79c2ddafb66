import Descent.Proofs.Grammar.Abreast
import Descent.Proofs.Tree.MapErrors
import Mathlib.Data.Option.Basic

/-!
# Rewording

How errors are put into words does not influence a parse (`Session.inOtherWords_parse`). Two things that
are rendered are looked at again: an error is made by whether the list of what would have been accepted
is empty, and by whether the text that it quotes is. Neither depends on the renderer or on the limits,
as long as a list may have one target.
-/

namespace Descent

/-! ## What is looked at again -/

namespace Attempts

theorem listed_ne_empty (s : String) : listed s ≠ "" := by
  intro h
  have hlist := congrArg String.toList h
  unfold listed at hlist
  split at hlist
  · next hs =>
    split at hlist
    · rw [hs] at hlist
      cases hlist
    · simp at hlist
  · simp at hlist

/-- A list is empty only if there is nothing to list. -/
theorem isEmpty_joinTexts {limit : Nat} (hlimit : 1 ≤ limit) (texts : List String)
    (render : Renderer) : (joinTexts texts render limit).isEmpty = texts.isEmpty := by
  obtain ⟨limit, rfl⟩ := Nat.exists_eq_add_of_le' hlimit
  cases texts with
  | nil => rfl
  | cons text texts =>
    rw [List.isEmpty_cons, String.isEmpty_eq_false_iff]
    simp only [joinTexts, List.take_succ_cons, List.map_cons, List.isEmpty_cons]
    split
    · simp [String.append_eq_empty_iff]
    · cases (texts.take limit).map listed with
      | nil => exact listed_ne_empty text
      | cons => simp [String.append_eq_empty_iff]

theorem isEmpty_listAt {limit limit' : Nat} (hlimit : 1 ≤ limit) (hlimit' : 1 ≤ limit')
    (attempts : List Attempt) (position : Nat) (language : Language) (render render' : Renderer) :
    (listAt attempts position language render' limit').isEmpty =
      (listAt attempts position language render limit).isEmpty := by
  unfold listAt
  rw [isEmpty_joinTexts hlimit, isEmpty_joinTexts hlimit']

end Attempts

theorem Text.isEmpty_shorten (s : String) (max : Nat) : (shorten s max).isEmpty = s.isEmpty := by
  unfold shorten
  split
  · rfl
  · next hlong =>
    have hne : s ≠ "" := by
      rintro rfl
      exact hlong (Nat.zero_le max)
    rw [String.isEmpty_eq_false_iff.2 hne, String.isEmpty_eq_false_iff]
    simp

namespace Setup

theorem isEmpty_quotedText_reword (g : Setup) (w : Wording) (position : Nat) :
    ((g.reword w).quotedText position).isEmpty = (g.quotedText position).isEmpty := by
  unfold quotedText
  rw [Text.isEmpty_shorten, Text.isEmpty_shorten]
  rfl

theorem reword_reword (g : Setup) (w : Wording) : (g.reword w).reword g.wording = g := rfl

end Setup

/-! ## Outputs without words -/

/-- The error without words. -/
def SyntaxError.wordless (e : SyntaxError) : SyntaxError := { e with message := "", label := "" }

/-- A diagnostic without words: its code and its places. -/
def Diagnostic.sites (d : Diagnostic) : Code × List Span := (d.code, d.labels.map (·.span))

theorem Tree.sites_diagnostics_wordless (t : Tree) :
    (t.mapErrors SyntaxError.wordless).diagnostics.map (·.sites) = t.diagnostics.map (·.sites) := by
  have hnode (t : Tree) : (t.mapErrors SyntaxError.wordless).diagnostic?.map (·.sites) =
      t.diagnostic?.map (·.sites) := by
    unfold diagnostic?
    rw [error?_mapErrors, span_mapErrors]
    cases t.error? <;> rfl
  unfold diagnostics
  rw [nodes_mapErrors, List.filterMap_map, List.map_filterMap, List.map_filterMap]
  exact congrArg (List.filterMap · t.nodes) (funext hnode)

/-- Two outputs are the same but for the words that errors are put into. -/
structure Output.InOtherWords (o o' : Output) : Prop where
  tree : o'.tree.mapErrors SyntaxError.wordless = o.tree.mapErrors SyntaxError.wordless
  diagnostics : o'.diagnostics.map (·.sites) = o.diagnostics.map (·.sites)
  fatal : o'.fatal = o.fatal
  completions : o'.completions = o.completions
  calls : o'.calls = o.calls

theorem Session.wordless_errorHere (g : Setup) (expected : String) (s : Session) :
    (s.errorHere g expected).wordless =
      { code :=
          if !expected.isEmpty then .expected
          else if !(g.quotedText s.position).isEmpty then .unexpected
          else .leftover
        message := ""
        label := "" } := by
  unfold errorHere
  dsimp only
  split
  · rfl
  · split <;> rfl

/-! ## Parses in other words -/

/-- Parses are compared up to the words of errors. -/
def Comparison.apartFromWords (g : Setup) (w : Wording) : Comparison g where
  wording := w
  error := SyntaxError.wordless
  aborted a := { a with label := "" }
  completion := id
  ends _ := False
  allows _ := true
  isEmpty_expectedHere s :=
    Attempts.isEmpty_listAt g.limits.listedTargets_ge w.listedTargets_ge ..
  error_errorHere s := by
    have hexpected : (s.expectedHere (g.reword w)).isEmpty = (s.expectedHere g).isEmpty :=
      Attempts.isEmpty_listAt g.limits.listedTargets_ge w.listedTargets_ge ..
    rw [s.wordless_errorHere, s.wordless_errorHere, hexpected, g.isEmpty_quotedText_reword w]
  aborted_label _ _ _ := rfl
  completion_offer {c c'} h position text := by
    have h : c' = c := h
    rw [h]

namespace Session

variable {g : Setup} {w : Wording} {s t : Session}

theorem Twins.inOtherWords_output (h : s.Twins (.apartFromWords g w) t) (root : Kind) :
    (s.output g root).InOtherWords (t.output (g.reword w) root) := by
  have htree : (t.output (g.reword w) root).tree.mapErrors SyntaxError.wordless =
      (s.output g root).tree.mapErrors SyntaxError.wordless := by
    have hlog : t.log.mapErrors SyntaxError.wordless = s.log.mapErrors SyntaxError.wordless := h.log
    have htree := congrArg (·.toTree g.source g.language root) hlog
    rwa [MarkerLog.toTree_mapErrors, MarkerLog.toTree_mapErrors] at htree
  have hdiagnostics : (t.output (g.reword w) root).tree.diagnostics.map (·.sites) =
      (s.output g root).tree.diagnostics.map (·.sites) := by
    rw [← Tree.sites_diagnostics_wordless, htree, Tree.sites_diagnostics_wordless]
  have hcompletion : t.completion = s.completion := h.completion
  have haborted : t.aborted.map (fun a => (a.error, a.span)) =
      s.aborted.map (fun a => (a.error, a.span)) := by
    have haborted := congrArg (·.map fun a : Aborted => (a.error, a.span)) h.aborted
    rwa [Option.map_map, Option.map_map] at haborted
  refine ⟨htree, ?_, ?_, ?_, congrArg List.reverse h.calls⟩
  · have hfatal := congrArg (·.toList.map fun x : Fatal × Span => (x.1.code, [x.2])) haborted
    simp only [Option.toList_map, List.map_map] at hfatal
    simp only [output, List.map_append, List.map_map]
    exact congrArg₂ (· ++ ·) hdiagnostics hfatal
  · have hfatal := congrArg (·.map Prod.fst) haborted
    rwa [Option.map_map, Option.map_map] at hfatal
  · simp only [output, hcompletion]

theorem Twins.parsed_reword (h : s.Twins (.apartFromWords g w) t) (fuel : Nat) (root : Kind)
    (rule : RuleRef) {z : Session} (hz : s.parsed g fuel root rule = some z) :
    ∃ z', t.parsed (g.reword w) fuel root rule = some z' ∧ z.Twins (.apartFromWords g w) z' := by
  have hsteps : (Comparison.apartFromWords g w).Steps :=
    Comparison.Collects.steps fun h => congrArg Option.isSome h
  have habreast := h.parsed hsteps (fun rule _ => rule.2.all_eq_true) fuel root rule
  obtain ⟨z', htwins, ⟨_, _, hends⟩ | ⟨-, hz'⟩⟩ := habreast.exists_twin z hz
  · exact hends.elim
  · exact ⟨z', hz', htwins⟩

/-- Two parses that differ only in how errors are put into words come to the same but for these
words, and if one of them ends so does the other. -/
theorem inOtherWords_parse (g : Setup) (w : Wording) (fuel : Nat) (root : Kind) (rule : RuleRef)
    (s : Session) :
    Option.Rel Output.InOtherWords (s.parse g fuel root rule)
      (s.parse (g.reword w) fuel root rule) := by
  have hrefl {g : Setup} {w : Wording} : s.Twins (.apartFromWords g w) s :=
    .refl fun hook _ => hook.body.all_eq_true
  rw [parse_eq_map, parse_eq_map]
  cases hz : s.parsed g fuel root rule with
  | some z =>
    obtain ⟨z', hz', htwins⟩ := Twins.parsed_reword hrefl fuel root rule hz
    rw [hz']
    exact .some (htwins.inOtherWords_output root)
  | none =>
    cases hz' : s.parsed (g.reword w) fuel root rule with
    | none => exact .none
    | some z' =>
      -- put back into the first words, the second parse is the first one
      obtain ⟨z, hz₁, -⟩ :=
        Twins.parsed_reword (g := g.reword w) (w := g.wording) hrefl fuel root rule hz'
      rw [Setup.reword_reword, hz] at hz₁
      cases hz₁

end Session

end Descent
