import Descent.Proofs.Grammar.Finality
import Mathlib.Data.List.TakeWhile

/-!
# What the labels of errors say

Wherever an error is reported or a fatal error raised, its label is about the next significant token. If
there is none left, it says that the input has ended, and if the token has a text with anything but white
space in it, it quotes this. The labels go by the text, though, not by the tokens: a token without such a
text is passed off as the end of the input (`Session.labels_of_passes`), be it in the middle of the source
(`Session.not_end_at_lineBreak`).
-/

namespace Descent

/-! ## Quoted texts -/

namespace Text

variable {cs : List Char} {s : String} {max : Nat}

/-- Trimming leaves nothing exactly of white space. -/
theorem trimChars_eq_nil_iff : trimChars cs = [] ↔ ∀ c ∈ cs, isBlank c = true := by
  rw [trimChars, List.reverse_eq_nil_iff, List.dropWhile_eq_nil_iff]
  constructor
  · intro h c hc
    rw [← List.takeWhile_append_dropWhile (p := isBlank) (l := cs), List.mem_append] at hc
    rcases hc with hc | hc
    · exact List.mem_takeWhile_imp hc
    · exact h c (List.mem_reverse.2 hc)
  · intro h c hc
    exact h c ((List.dropWhile_sublist _).subset (List.mem_reverse.1 hc))

/-- Nothing is cut down to nothing, whatever the limit. -/
theorem shorten_eq_empty_iff : shorten s max = "" ↔ s = "" := by
  unfold shorten
  split
  · rfl
  · next hlong =>
    constructor
    · intro h
      simp at h
    · rintro rfl
      simp at hlong

end Text

namespace Setup

variable {g : Setup} {p : Nat}

theorem quotedText_eq_empty_iff :
    g.quotedText p = "" ↔ ∀ c ∈ (g.source.textAt p).toList, Text.isBlank c = true := by
  rw [quotedText, Text.shorten_eq_empty_iff, Text.trim, ← Text.trimChars_eq_nil_iff]
  simp

/-- What the label of an error at a position says. -/
structure Labels (g : Setup) (p : Nat) (label : String) : Prop where
  significant : g.significant p = p
  /-- Where no token is left, the input has ended. -/
  ended : g.source.tokens[p]? = none → label = g.render .foundEndOfInput
  /-- A token with more than white space in its text is quoted. -/
  found : ∀ token, g.source.tokens[p]? = some token →
    (∃ c ∈ (g.source.textOf token.span).toList, Text.isBlank c = false) →
    g.quotedText p ≠ "" ∧ label = g.render (.found (g.quotedText p))
  /-- Any other token is passed off as the end of the input. -/
  textless : ∀ token, g.source.tokens[p]? = some token →
    (∀ c ∈ (g.source.textOf token.span).toList, Text.isBlank c = true) →
    label = g.render .foundEndOfInput

/-- Labels are made from what is quoted. -/
theorem labels_labelFor (h : g.significant p = p) : g.Labels p (g.labelFor (g.quotedText p)) := by
  have hend (hquoted : g.quotedText p = "") :
      g.labelFor (g.quotedText p) = g.render .foundEndOfInput := by
    rw [labelFor, hquoted]
    rfl
  refine ⟨h, fun hp => hend ?_, fun token hp htext => ?_, fun token hp htext => hend ?_⟩
  · rw [quotedText_eq_empty_iff, Source.textAt, hp]
    simp
  · have hquoted : g.quotedText p ≠ "" := by
      rw [ne_eq, quotedText_eq_empty_iff, Source.textAt, hp]
      obtain ⟨c, hc, hblank⟩ := htext
      intro hall
      rw [hall c hc] at hblank
      cases hblank
    refine ⟨hquoted, ?_⟩
    rw [labelFor, if_neg (by simpa using hquoted)]
  · rw [quotedText_eq_empty_iff, Source.textAt, hp]
    exact htext

end Setup

/-! ## Reports and fatal errors -/

namespace Session

variable {g : Setup} {paired : Bool} {s s₁ s' t u : Session} {a : Aborted}

theorem aborted_of_abort (h : s.aborted = none) (error : Fatal) :
    (s.abort g error).aborted = some ⟨error, .point error.offset,
      g.labelFor (g.quotedText (g.significant s.position))⟩ := by
  have hnot : s.isAborted = false := by rw [isAborted, h]; rfl
  unfold abort
  rw [hnot]
  rfl

/-- The error is reported at the position of a state. -/
def ReportsAt (g : Setup) (u : Session) (position : Nat) (error : SyntaxError) : Prop :=
  u.position = position ∧ g.significant position = position ∧ error = u.errorHere g (u.expectedHere g)

/-- Whatever comes up from `s` to `s'` comes up in a state that acts lead to. -/
structure ComesUp (g : Setup) (paired : Bool) (s s' : Session) : Prop where
  reports : ∀ position error advance inner, .errorReported position error advance inner ∈ s'.trace →
    .errorReported position error advance inner ∈ s.trace ∨
      ∃ u, s.Acts g paired u ∧ u.ReportsAt g position error
  fatal : s'.aborted = s.aborted ∨
    ∃ u error, s.Acts g paired u ∧ u.aborted = none ∧ s'.aborted = (u.abort g error).aborted

namespace ComesUp

/-- Neutral events bring up nothing. -/
theorem neutral {later : List Event} (htrace : s'.trace = later ++ s.trace)
    (hlater : ∀ e ∈ later, e.isNeutral = true) (haborted : s'.aborted = s.aborted) :
    ComesUp g paired s s' := by
  refine ⟨fun position error advance inner hmem => .inl ?_, .inl haborted⟩
  rw [htrace] at hmem
  refine (List.mem_append.1 hmem).resolve_left fun hmem => ?_
  cases hlater _ hmem

theorem same (htrace : s'.trace = s.trace) (haborted : s'.aborted = s.aborted) :
    ComesUp g paired s s' :=
  neutral (show s'.trace = [] ++ s.trace from htrace) (by simp) haborted

theorem note {e : Event} (he : e.isNeutral = true) (htrace : s'.trace = e :: s.trace)
    (haborted : s'.aborted = s.aborted) : ComesUp g paired s s' :=
  neutral (show s'.trace = [e] ++ s.trace from htrace) (by simpa using he) haborted

theorem trans (hacts : s.Acts g paired s₁) (h : ComesUp g paired s s₁)
    (h' : ComesUp g paired s₁ s') : ComesUp g paired s s' where
  reports position error advance inner hmem := by
    rcases h'.reports position error advance inner hmem with hmem | ⟨u, hu, hreport⟩
    · exact h.reports position error advance inner hmem
    · exact .inr ⟨u, hacts.trans hu, hreport⟩
  fatal := by
    rcases h'.fatal with haborted | ⟨u, error, hu, hnone, haborted⟩
    · rw [haborted]
      exact h.fatal
    · exact .inr ⟨u, error, hacts.trans hu, hnone, haborted⟩

end ComesUp

/-- Reports come up at the position, fatal errors where there was none. -/
theorem Acts.comesUp (h : s.Acts g paired s') : ComesUp g paired s s' := by
  induction h with
  | still h =>
    obtain ⟨later, htrace, hlater⟩ := h.trace
    exact .neutral htrace hlater h.aborted
  | trans h _ ih ih' => exact .trans h ih ih'
  | openMarker | drop | put | take | lose => exact .same rfl rfl
  | commit m kind error s =>
    unfold Session.commit
    split
    · exact .same rfl rfl
    · exact .same rfl rfl
    · exact .note (e := .commitNotOpen ..) rfl rfl rfl
  | wrap m s =>
    unfold Session.wrap
    dsimp only
    split
    · exact .same rfl rfl
    · exact .note (e := .wrapUnstarted ..) rfl rfl rfl
  | rollback m s =>
    unfold Session.rollback
    split <;> exact .same rfl rfl
  | reported advance inner s h hseek =>
    refine ⟨fun position error advance' inner' hmem => ?_, .inl rfl⟩
    rcases List.mem_cons.1 hmem with heq | hmem
    · cases heq
      exact .inr ⟨s, .refl s, rfl, hseek, rfl⟩
    · exact .inl hmem
  | abort error s h =>
    cases hs : s.aborted with
    | some a =>
      have hsame : s.abort g error = s := by
        unfold Session.abort isAborted
        rw [hs]
        rfl
      rw [hsame]
      exact .same rfl rfl
    | none =>
      refine ⟨fun position error' advance inner hmem => .inl ?_, .inr ⟨s, error, .refl s, hs, rfl⟩⟩
      have htrace : (s.abort g error).trace = .aborted error :: s.trace := by
        unfold Session.abort isAborted
        rw [hs]
        rfl
      rw [htrace] at hmem
      exact (List.mem_cons.1 hmem).resolve_left nofun

theorem ReportsAt.labels {position : Nat} {error : SyntaxError} (h : u.ReportsAt g position error) :
    g.Labels position error.label := by
  obtain ⟨rfl, hseek, rfl⟩ := h
  exact Setup.labels_labelFor hseek

/-- The label of a fatal error is that of the place where it was raised. -/
theorem labels_of_abort {error : Fatal} (hu : u.aborted = none)
    (ha : (u.abort g error).aborted = some a) :
    a.error = error ∧ g.Labels (g.significant u.position) a.label := by
  rw [aborted_of_abort hu] at ha
  cases ha
  exact ⟨rfl, Setup.labels_labelFor (significant_significant g u.position)⟩

/-- What was reported since the start was reported in a state that acts lead to. -/
theorem Acts.exists_report {limits : Limits} {caret : Option Nat} {position : Nat} {error : SyntaxError}
    {advance inner : Bool} (h : (start limits caret).Acts g paired t)
    (hmem : .errorReported position error advance inner ∈ t.trace) :
    ∃ u, (start limits caret).Acts g paired u ∧ u.ReportsAt g position error := by
  rcases h.comesUp.reports position error advance inner hmem with hmem | hreport
  · exact absurd hmem List.not_mem_nil
  · exact hreport

/-- The fatal error was raised in a state that acts lead to. -/
theorem Acts.exists_abort {limits : Limits} {caret : Option Nat}
    (h : (start limits caret).Acts g paired t) (ha : t.aborted = some a) :
    ∃ u, (start limits caret).Acts g paired u ∧ u.aborted = none ∧
      (u.abort g a.error).aborted = some a := by
  rcases h.comesUp.fatal with hsame | ⟨u, error, hu, hnone, habort⟩
  · cases hsame.symm.trans ha
  · rw [ha] at habort
    obtain ⟨rfl, -⟩ := labels_of_abort hnone habort.symm
    exact ⟨u, hu, hnone, habort.symm⟩

/-- The diagnostics are those of errors that were reported, and of the fatal error. -/
theorem Acts.label_cases {limits : Limits} {caret : Option Nat} {root : Kind} {d : Diagnostic} {l : Label}
    (h : (start limits caret).Acts g paired t) (hd : d ∈ (t.output g root).diagnostics)
    (hl : l ∈ d.labels) : (∃ error, ReportedIn t.trace error ∧ l.message = error.label) ∨
      ∃ a, t.aborted = some a ∧ l.message = a.label := by
  rcases List.mem_append.1 hd with hd | hd
  · obtain ⟨n, hn, hd⟩ := List.mem_filterMap.1 hd
    obtain ⟨error, herror, rfl⟩ := Option.map_eq_some_iff.1 hd
    have hmem : error ∈ (t.log.toTree g.source g.language root).errors :=
      List.mem_filterMap.2 ⟨n, hn, herror⟩
    rw [MarkerLog.errors_toTree] at hmem
    obtain ⟨m, -, hm⟩ := List.mem_filterMap.1 hmem
    have hbacked : Backed t.trace t.log := h.backed .empty
    obtain ⟨-, hreported⟩ := hbacked.error hm
    obtain rfl := List.mem_singleton.1 hl
    exact .inl ⟨error, hreported error rfl, rfl⟩
  · obtain ⟨a, ha, rfl⟩ := List.mem_map.1 hd
    obtain rfl := List.mem_singleton.1 hl
    exact .inr ⟨a, Option.mem_toList.1 ha, rfl⟩

/-- Wherever a grammar comes to, every error that was reported and the fatal error, if there is one, have
the label of the next significant token of the state that they come from, and so have the diagnostics. -/
theorem labels_of_passes {limits : Limits} {caret : Option Nat}
    (ht : (start limits caret).Passes g paired t) :
    (∀ position error advance inner, .errorReported position error advance inner ∈ t.trace →
      ∃ u, (start limits caret).Acts g paired u ∧ u.position = position ∧
        g.Labels position error.label) ∧
    (∀ a, t.aborted = some a → ∃ u, (start limits caret).Acts g paired u ∧ u.aborted = none ∧
      (u.abort g a.error).aborted = some a ∧ g.Labels (g.significant u.position) a.label) ∧
    ∀ root, ∀ d ∈ (t.output g root).diagnostics, ∀ l ∈ d.labels, ∃ u,
      (start limits caret).Acts g paired u ∧ g.Labels (g.significant u.position) l.message := by
  have hacts := ht.acts (inBounds_start g limits caret)
  refine ⟨fun position error advance inner hmem => ?_, fun a ha => ?_, fun root d hd l hl => ?_⟩
  · obtain ⟨u, hu, hreport⟩ := hacts.exists_report hmem
    exact ⟨u, hu, hreport.1, hreport.labels⟩
  · obtain ⟨u, hu, hnone, habort⟩ := hacts.exists_abort ha
    exact ⟨u, hu, hnone, habort, (labels_of_abort hnone habort).2⟩
  · rcases hacts.label_cases hd hl with ⟨error, ⟨position, advance, inner, hmem⟩, hl⟩ | ⟨a, ha, hl⟩
    · obtain ⟨u, hu, hreport⟩ := hacts.exists_report hmem
      have hlabels := hreport.labels
      refine ⟨u, hu, ?_⟩
      rwa [hl, hreport.1, hlabels.significant]
    · obtain ⟨u, hu, hnone, habort⟩ := hacts.exists_abort ha
      rw [hl]
      exact ⟨u, hu, (labels_of_abort hnone habort).2⟩

theorem labels_of_passes_recovering : ∃ (t : Session) (a : Aborted),
    (start {} none).Passes tooDeepRecovery false t ∧ t.aborted = some a ∧ a.label = "found 'b'" ∧
      ∃ u, (start {} none).Acts tooDeepRecovery false u ∧ u.aborted = none ∧
        (u.abort tooDeepRecovery a.error).aborted = some a ∧
        tooDeepRecovery.Labels (tooDeepRecovery.significant u.position) a.label := by
  let x := (Grammar.eval tooDeepRecovery 5 0 {} reportAndLeave (start {} none)).getD
    (true, {}, start {} none)
  have heval : Grammar.eval tooDeepRecovery 5 0 {} reportAndLeave (start {} none) =
      some (x.1, x.2.1, x.2.2) := by decide +kernel
  have hlabel : x.2.2.aborted.map (·.label) = some "found 'b'" := by decide +kernel
  obtain ⟨a, ha, hl⟩ := Option.map_eq_some_iff.1 hlabel
  have ht : (start {} none).Passes tooDeepRecovery false x.2.2 :=
    .calls (Grammar.calls_eval 5 heval)
  exact ⟨x.2.2, a, ht, ha, hl, (labels_of_passes ht).2.1 a ha⟩

/-- Two names in two lines, where the line break is a token. -/
def lineBreak : Setup where
  source := { text := "a\nb", tokens := [⟨⟨3⟩, ⟨0, 1⟩⟩, ⟨⟨10⟩, ⟨1, 2⟩⟩, ⟨⟨3⟩, ⟨2, 3⟩⟩] }
  language := (LanguageTable.toBareLanguage {})
  grammar := [("names", .and (.prim (.consume ⟨3⟩)) (.prim (.consume ⟨3⟩)))]

/-- At the line break the label says that the input has ended, though two tokens are left. -/
theorem not_end_at_lineBreak : ∃ (t : Session) (error : SyntaxError),
    (start {} none).Passes lineBreak false t ∧ .errorReported 1 error true false ∈ t.trace ∧
      error.label = lineBreak.render .foundEndOfInput ∧ lineBreak.significant 1 = 1 ∧
      lineBreak.source.tokens[1]? = some ⟨⟨10⟩, ⟨1, 2⟩⟩ := by
  let error : SyntaxError := ⟨.expected, "expected: '#3'", "found end of input"⟩
  have hrun : ((start {} none).parse lineBreak 12 ⟨20⟩ (.named "names")).map
      (fun o => decide (.errorReported 1 error true false ∈ o.session.trace)) = some true := by
    decide +kernel
  obtain ⟨o, ho, hmem⟩ := Option.map_eq_some_iff.1 hrun
  exact ⟨o.session, error, .calls (calls_parse ho), of_decide_eq_true hmem, rfl, rfl, rfl⟩

end Session

end Descent
