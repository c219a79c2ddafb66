import Descent.Proofs.Grammar.Abreast

/-!
# Collecting candidates

With a caret every token test also offers what it looks for as a candidate for completion. A grammar
that neither asks what comes next, where the answer is always yes while candidates are collected, nor
consumes empty sequences does not notice: unless it ends with a fatal error, a parse comes to the same
tree and the same diagnostics wherever the caret is, if there is one at all (`Session.same_parse_of_carets`).

An offer goes over trivia. So does the test that follows it, but not after a fatal error, and so from
there on the positions may differ.
-/

namespace Descent

open Comparable (state Alike)

/-- Whether a step looks for the same tokens with candidates and without. -/
def Primitive.ignoresCandidates : Primitive → Bool
  | next _ | nextAny .. | nextLiteral _ => false
  | sequence _ kinds | trySequence _ kinds | trySequenceSilent _ kinds => !kinds.isEmpty
  | _ => true

/-- Parses are compared up to their candidates as long as there is no fatal error. -/
def Comparison.apartFromCandidates (g : Setup) : Comparison g where
  wording := g.wording
  error := id
  aborted := id
  completion := fun _ => none
  ends := fun _ => True
  allows := Primitive.ignoresCandidates
  isEmpty_expectedHere _ := rfl
  error_errorHere _ := rfl
  aborted_label _ _ _ := rfl
  completion_offer _ _ _ := rfl

namespace Session

variable {g : Setup} {s t : Session} {silent : Bool} {pin : Pin} {kinds : List Kind}

/-! ## Sequences and hooks -/

theorem hooks_consumeKinds (silent : Bool) (pin : Pin) (kinds : List Kind) (s : Session) :
    (s.consumeKinds g silent pin kinds).2.hooks = s.hooks := by
  have hreport (s : Session) : (s.reportHere g).hooks = s.hooks := by
    have hwork : Work (fun _ => true) g none s (s.reportHere g) := .reportHere s
    exact hwork.surroundings.hooks
  exact related_consumeKinds silent (R := fun s s' => s'.hooks = s.hooks) (fun _ _ h => h.hooks)
    (fun _ _ _ h h' => h'.trans h) hreport pin kinds s

theorem hooks_tryKinds (silent : Bool) (pin : Pin) (kinds : List Kind) (s : Session) :
    (s.tryKinds g silent pin kinds).2.hooks = s.hooks := by
  have hconsume : ((s.openMarker g).2.consumeKinds g silent pin kinds).2.hooks = s.hooks :=
    hooks_consumeKinds silent pin kinds (s.openMarker g).2
  rw [session_tryKinds]
  unfold rollback
  dsimp only
  split
  · exact hconsume
  · split <;> exact hconsume

/-! ## Offers where a test follows -/

theorem toSignificant_offerIfPositive (text : String) (s : Session) :
    (s.offerIfPositive g text).toSignificant g =
      ((s.toSignificant g).offerIfPositive g text).toSignificant g := by
  obtain ⟨position, _, _, lookahead, _, completion⟩ := s
  unfold offerIfPositive offer toSignificant
  dsimp only
  cases lookahead.positive <;> cases completion <;>
    simp only [significant_significant, if_true, Bool.false_eq_true, if_false]

section
variable (hs : s.isAborted = false)
include hs

theorem isAborted_offerIfPositive (text : String) :
    (s.offerIfPositive g text).isAborted = false := by
  unfold offerIfPositive offer
  split
  · split <;> exact hs
  · exact hs

/-- A test for a token begins at the next significant one. -/
theorem take_toSignificant (kind : Kind) : (s.toSignificant g).take g kind = s.take g kind := by
  have hnot : ¬s.isAborted = true := Bool.eq_false_iff.1 hs
  have hnot' : ¬(s.toSignificant g).isAborted = true := hnot
  unfold take peek peekAny
  rw [if_neg hnot, if_neg hnot', toSignificant_toSignificant]

theorem consumeOne_toSignificant (silent : Bool) (kind : Kind) :
    (if silent then (s.toSignificant g).take g kind else (s.toSignificant g).consume g kind) =
      if silent then s.take g kind else s.consume g kind := by
  have hnot : ¬s.isAborted = true := Bool.eq_false_iff.1 hs
  have hnot' : ¬(s.toSignificant g).isAborted = true := hnot
  have hconsume : (s.toSignificant g).consume g kind = s.consume g kind := by
    unfold consume expect
    rw [if_neg hnot, if_neg hnot', toSignificant_toSignificant]
  rw [take_toSignificant hs, hconsume]

theorem consumeRest_toSignificant (silent : Bool) (pin : Pin) (kind : Kind) (kinds : List Kind) :
    (s.toSignificant g).consumeRest g silent pin 0 true false (kind :: kinds) =
      s.consumeRest g silent pin 0 true false (kind :: kinds) := by
  simp only [consumeRest, consumeOne_toSignificant hs, Bool.true_or, if_true]

/-- Candidates are offered where the test that follows begins. -/
theorem takeOffered_toSignificant (kind : Kind) :
    (s.toSignificant g).takeOffered g kind = s.takeOffered g kind := by
  have hsignificant : (s.toSignificant g).isAborted = false := hs
  unfold takeOffered
  rw [← take_toSignificant (isAborted_offerIfPositive hs _),
    ← take_toSignificant (isAborted_offerIfPositive hsignificant _),
    ← toSignificant_offerIfPositive]

theorem consumeKinds_toSignificant (silent : Bool) (pin : Pin) (hkinds : kinds ≠ []) :
    (s.toSignificant g).consumeKinds g silent pin kinds = s.consumeKinds g silent pin kinds := by
  obtain ⟨kind, kinds, rfl⟩ := List.exists_cons_of_ne_nil hkinds
  have hrest {u v : Session} (hu : u.isAborted = false) (hv : v.isAborted = false)
      (huv : u.toSignificant g = v.toSignificant g) :
      ({ u with completion := none }.consumeRest g silent pin 0 true false (kind :: kinds)) =
        { v with completion := none }.consumeRest g silent pin 0 true false (kind :: kinds) := by
    have hu' : { u with completion := none }.isAborted = false := hu
    have hv' : { v with completion := none }.isAborted = false := hv
    have hsame : { u with completion := none }.toSignificant g =
        { v with completion := none }.toSignificant g :=
      congrArg (fun s : Session => { s with completion := none }) huv
    rw [← consumeRest_toSignificant hu', ← consumeRest_toSignificant hv', hsame]
  let text := " ".intercalate ((kind :: kinds).map g.language.nameOf)
  have hoffered := toSignificant_offerIfPositive (g := g) text s
  have hcompletion : (s.offerIfPositive g text).completion =
      ((s.toSignificant g).offerIfPositive g text).completion := by
    show ((s.offerIfPositive g text).toSignificant g).completion = _
    rw [hoffered]
    rfl
  have hsignificant : (s.toSignificant g).isAborted = false := hs
  unfold consumeKinds
  dsimp only
  rw [hrest (isAborted_offerIfPositive hsignificant text) (isAborted_offerIfPositive hs text)
    hoffered.symm, hcompletion]

end

end Session

/-! ## Steps -/

namespace Comparison

variable {g : Setup} {s t : Session}

theorem consumes_apartFromCandidates (h : s.Twins (apartFromCandidates g) t)
    (hs : s.isAborted = false) (silent : Bool) (pin : Pin) {kinds : List Kind} (hkinds : kinds ≠ []) :
    Alike (apartFromCandidates g) (s.consumeKinds g silent pin kinds)
      (t.consumeKinds g silent pin kinds) := by
  rw [← Session.consumeKinds_toSignificant hs silent pin hkinds,
    ← Session.consumeKinds_toSignificant (h.isAborted.trans hs) silent pin hkinds]
  exact Session.Twins.consumeKinds_of_offered
    (h.toSignificant.offerIfPositive (Session.significant_significant ..) _) silent pin rfl

theorem alike_run_apartFromCandidates (h : s.Twins (apartFromCandidates g) t)
    (hs : s.isAborted = false) {p : Primitive} (hp : p.ignoresCandidates = true) (level : Nat)
    (vars : Vars) :
    Alike (apartFromCandidates g) (p.run g level vars s) (p.run g level vars t) := by
  have hne {kinds : List Kind} (h : (!kinds.isEmpty) = true) : kinds ≠ [] := by
    rintro rfl
    cases h
  have htry (silent : Bool) (pin : Pin) {kinds : List Kind} (hkinds : kinds ≠ []) :
      Alike (apartFromCandidates g) (s.tryKinds g silent pin kinds) (t.tryKinds g silent pin kinds) :=
    h.tryKinds_of_consumed silent pin fun huv hu =>
      consumes_apartFromCandidates huv (hu.trans hs) silent pin hkinds
  cases hoffers : p.offersInPassing with
  | true => exact Primitive.twins_run h hoffers level vars
  | false =>
    cases p with
    | takeOffered kind =>
      have htake := (h.toSignificant.offerIfPositive (Session.significant_significant ..)
        (g.language.nameOf kind)).take kind
      refine Primitive.alike_test ?_
      rw [← Session.takeOffered_toSignificant hs,
        ← Session.takeOffered_toSignificant (h.isAborted.trans hs)]
      exact htake
    | sequence pin kinds =>
      exact Primitive.alike_test (consumes_apartFromCandidates h hs false pin (hne hp))
    | trySequence pin kinds => exact Primitive.alike_test (htry false pin (hne hp))
    | trySequenceSilent pin kinds => exact Primitive.alike_test (htry true pin (hne hp))
    | nextLiteral | next | nextAny => cases hp
    | _ => cases hoffers

theorem allowed_run (h : s.Twins (apartFromCandidates g) t) {p : Primitive}
    (hp : p.ignoresCandidates = true) (level : Nat) (vars : Vars) :
    ∀ hook ∈ (p.run g level vars s).session.hooks,
      hook.body.all Primitive.ignoresCandidates = true := by
  have hkeeps (hhooks : (p.run g level vars s).session.hooks = s.hooks) :
      ∀ hook ∈ (p.run g level vars s).session.hooks,
        hook.body.all Primitive.ignoresCandidates = true := by
    rw [hhooks]
    exact h.allowed
  cases hoffers : p.offersInPassing with
  | true => exact (Primitive.twins_run h hoffers level vars).2.2.2.allowed
  | false =>
    cases p with
    | takeOffered kind => exact hkeeps (Session.Calm.takeOffered g s kind).hooks
    | sequence pin kinds => exact hkeeps (Session.hooks_consumeKinds false pin kinds s)
    | trySequence pin kinds => exact hkeeps (Session.hooks_tryKinds false pin kinds s)
    | trySequenceSilent pin kinds => exact hkeeps (Session.hooks_tryKinds true pin kinds s)
    | nextLiteral | next | nextAny => cases hp
    | _ => cases hoffers

theorem steps_apartFromCandidates (g : Setup) : (apartFromCandidates g).Steps := by
  intro p hp level vars s t h
  have hacts : s.Acts g false (p.run g level vars s).session := p.acts_run level vars s
  cases hs : s.isAborted with
  | false => exact .acts (alike_run_apartFromCandidates h hs hp level vars) hacts
  | true =>
    -- nothing is compared any more, so that what the step comes to may be its own twin
    have hover : (apartFromCandidates g).Over (p.run g level vars s).session := by
      obtain ⟨a, ha⟩ := Option.isSome_iff_exists.1 hs
      exact Comparison.Over.of_acts ⟨a, ha, trivial⟩ hacts
    have hallowed := allowed_run h hp level vars
    exact ⟨fun z hz => ⟨z, Option.some.inj hz ▸ ⟨rfl, rfl, rfl, .refl hallowed⟩,
      .inl (Option.some.inj hz ▸ hover)⟩⟩

end Comparison

namespace Session

variable {g : Setup} {s t : Session}

theorem Twins.output_apartFromCandidates (h : s.Twins (.apartFromCandidates g) t) (root : Kind) :
    (t.output g root).tree = (s.output g root).tree ∧
      (t.output g root).diagnostics = (s.output g root).diagnostics ∧
      (t.output g root).fatal = (s.output g root).fatal := by
  have hlog : t.log = s.log := by
    have hlog : t.log.mapErrors id = s.log.mapErrors id := h.log
    rwa [MarkerLog.mapErrors_id, MarkerLog.mapErrors_id] at hlog
  have haborted : t.aborted = s.aborted := by
    have haborted : t.aborted.map id = s.aborted.map id := h.aborted
    rwa [Option.map_id, id, id] at haborted
  simp only [output, hlog, haborted, and_self]

theorem twins_start (g : Setup) (limits : Limits) (caret caret' : Option Nat) :
    (start limits caret).Twins (.apartFromCandidates g) (start limits caret') :=
  ⟨rfl, rfl, rfl, rfl, rfl, rfl, rfl, nofun, rfl, rfl, rfl, rfl, rfl⟩

/-- A grammar that does not ask what comes next and consumes no empty sequences parses the same
wherever the caret is and without one, unless there is a fatal error: if the parse ends, so does the
other one, with the same tree, the same diagnostics, and without a fatal error. -/
theorem same_parse_of_carets (hg : g.grammar.All Primitive.ignoresCandidates) (limits : Limits)
    (caret caret' : Option Nat) (fuel : Nat) (root : Kind) (rule : RuleRef) {o : Output}
    (ho : (start limits caret).parse g fuel root rule = some o) (hfatal : o.fatal = none) :
    ∃ o', (start limits caret').parse g fuel root rule = some o' ∧ o'.tree = o.tree ∧
      o'.diagnostics = o.diagnostics ∧ o'.fatal = none := by
  rw [parse_eq_map, Option.map_eq_some_iff] at ho
  obtain ⟨s, hs, rfl⟩ := ho
  have habreast := (twins_start g limits caret caret').parsed
    (Comparison.steps_apartFromCandidates g) hg fuel root rule
  obtain ⟨t, htwins, hover | ⟨-, ht⟩⟩ := habreast.exists_twin s hs
  · obtain ⟨a, ha, -⟩ := hover
    have ha : s.aborted = some a := ha
    rw [output, ha] at hfatal
    cases hfatal
  · obtain ⟨htree, hdiagnostics, hsame⟩ := Twins.output_apartFromCandidates htwins root
    refine ⟨t.output g root, ?_, htree, hdiagnostics, hsame.trans hfatal⟩
    rw [parse_eq_map]
    exact Option.map_eq_some_iff.2 ⟨t, ht, rfl⟩

/-- The caret is behind the first token, and a name is in the place of a semicolon. -/
def halfTyped : Setup where
  source :=
    { text := "fo x;"
      tokens := [⟨⟨3⟩, ⟨0, 2⟩⟩, ⟨⟨2⟩, ⟨2, 3⟩⟩, ⟨⟨4⟩, ⟨3, 4⟩⟩, ⟨⟨10⟩, ⟨4, 5⟩⟩] }
  language := ((({} : LanguageTable).addTrivia ⟨2⟩).addName ⟨3⟩ "forever").toBareLanguage
  grammar := [("statement",
    .seq (.prim (.enter "head" {} (some ⟨21⟩) none 0)) <|
    .seq (.set "named" (.prim (.takeOffered ⟨3⟩))) <|
    .seq (.leave "head" none (.flag "named") (.const false) none 0) <|
    .prim (.sequence .report [⟨10⟩, ⟨5⟩]))]

theorem same_parse_of_carets_halfTyped :
    halfTyped.grammar.All Primitive.ignoresCandidates ∧
      ∃ o o', (start {} none).parse halfTyped 9 ⟨20⟩ (.named "statement") = some o ∧
        (start {} (some 2)).parse halfTyped 9 ⟨20⟩ (.named "statement") = some o' ∧
        o.fatal = none ∧ o.diagnostics.length = 1 ∧ o.completions = [] ∧
        o'.completions = ["#10 #5", "forever"] ∧ o'.tree = o.tree ∧ o'.diagnostics = o.diagnostics ∧
        o'.fatal = none := by
  have hg : halfTyped.grammar.All Primitive.ignoresCandidates := by decide
  have hrun : ((start {} none).parse halfTyped 9 ⟨20⟩ (.named "statement")).map
      (fun o => (o.fatal, o.diagnostics.length, o.completions)) = some (none, 1, []) := by
    decide +kernel
  have hrun' : ((start {} (some 2)).parse halfTyped 9 ⟨20⟩ (.named "statement")).map
      (·.completions) = some ["#10 #5", "forever"] := by decide +kernel
  obtain ⟨o, ho, hout⟩ := Option.map_eq_some_iff.1 hrun
  obtain ⟨hfatal, hout⟩ := Prod.mk.inj hout
  obtain ⟨hlength, hcompletions⟩ := Prod.mk.inj hout
  obtain ⟨o', ho', htree, hdiagnostics, hfatal'⟩ :=
    same_parse_of_carets hg {} none (some 2) 9 ⟨20⟩ (.named "statement") ho hfatal
  rw [ho'] at hrun'
  exact ⟨hg, o, o', ho, ho', hfatal, hlength, hcompletions, Option.some.inj hrun', htree,
    hdiagnostics, hfatal'⟩

end Session

end Descent
