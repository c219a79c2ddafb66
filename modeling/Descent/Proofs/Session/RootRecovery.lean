import Descent.Proofs.Grammar.Balanced
import Descent.Proofs.Session.RootSection

/-!
# Recovery in the root section

What the root rule leaves over is skipped in the root section, and one error is reported for it unless
the frame counts one as reported already. So a parse that skips something reports nothing exactly
where that error is not there any more (`Session.diagnostics_parse_ne_nil_iff`), which does happen
(`Session.diagnostics_parse_unreported`).
-/

namespace Descent

open Grammar (runRef runHook eval)
open Session (Calm)

namespace Session

variable {g : Setup} {run : Runner} {rounds : Nat} {frame : Frame} {m : Marker} {s s' : Session}

/-- Steps over a token, in an error node unless an error counts as reported. -/
def skipFirst (g : Setup) (run : Runner) (frame : Frame) (reported : Bool) (s : Session) :
    Option (Bool × Frame × Session) :=
  if reported then (run g.advancer (frame.level + 1) s).map fun x => (true, frame, x.2)
  else s.reportSwallowingFor g run frame

/-- Widening a node is a matter of the log. -/
theorem widenOver_eq (node : Option Marker) (site : Nat) (s : Session) :
    (s.widenOver node site).hooks = s.hooks ∧ (s.widenOver node site).aborted = s.aborted := by
  have hwrap (x : Marker) : (s.wrap x).2.hooks = s.hooks ∧ (s.wrap x).2.aborted = s.aborted := by
    unfold wrap
    dsimp only
    split <;> exact ⟨rfl, rfl⟩
  have hcommit (x : Marker) (kind : Kind) (error : Option SyntaxError) (t : Session) :
      (t.commit x kind error).hooks = t.hooks ∧ (t.commit x kind error).aborted = t.aborted := by
    unfold commit
    split <;> exact ⟨rfl, rfl⟩
  unfold widenOver
  split
  · split
    · unfold widen
      split
      · exact ⟨rfl, rfl⟩
      · dsimp only [drop, commitAs]
        split
        · rw [(hcommit ..).1, (hcommit ..).2]
          exact hwrap _
        · rw [(hcommit ..).1, (hcommit ..).2]
          exact hwrap _
    · exact ⟨rfl, rfl⟩
  · exact ⟨rfl, rfl⟩

section
variable (hadvancer : g.advancer = .advance) (hrun : run.Standard g)
include hrun

theorem reportSkipped_always (kind : Option Kind) (result pinned : Bool) (initial : Nat)
    (eatsFirst : Bool) (s : Session) :
    s.reportSkipped g run rounds frame kind result pinned .always initial eatsFirst true =
      (s.skipFirst g run frame (frame.countsReported result initial)).bind fun x =>
        if x.2.2.isAborted then some x
        else
          (x.2.2.groupRun g run rounds (frame.level + 1) .chunk true g.advancer .always).bind
            fun y => some (x.1, x.2.1, y.2) := by
  have hcounts : (frame.errorAt == some initial || (!result && frame.hasErrorFrom frame.position)) =
      frame.countsReported result initial := rfl
  simp only [reportSkipped, skipFirst, hcounts, Bool.or_true, if_true, hrun.always,
    Option.bind_eq_bind, Option.bind_some]
  cases frame.countsReported result initial <;> rfl

include hadvancer

/-- The first step puts an error node into the outermost one unless an error counts as reported. -/
theorem exists_skipFirst (hout : s.log.Outermost m) (hhooks : s.hooks = []) (frame : Frame)
    (reported : Bool) :
    ∃ x, s.skipFirst g run frame reported = some x ∧ x.2.2.hooks = [] ∧
      (x.2.2.isAborted = true ∨ (x.2.2.log.Outermost m ∧
        (x.2.2.log.HasErrors ↔ reported = false ∨ s.log.HasErrors))) := by
  unfold skipFirst
  cases reported with
  | true =>
    have hcalm := Calm.stepOver g s
    simp only [if_true, hadvancer, hrun.advance, Option.map_some]
    refine ⟨_, rfl, hcalm.hooks.trans hhooks, .inr ?_⟩
    rw [hcalm.log]
    exact ⟨hout, by simp⟩
  | false =>
    simp only [Bool.false_eq_true, if_false, reportSwallowingFor, reportSwallowing]
    split
    · next haborted => exact ⟨_, rfl, hhooks, .inl haborted⟩
    · simp only [hadvancer, hrun.advance, Option.bind_eq_bind, Option.bind_some]
      generalize Session.errorHere g _ (s.toSignificant g) = error
      generalize hs₁ : (s.toSignificant g).note _ = s₁
      have hs₁log : s₁.log = s.log := by rw [← hs₁]; rfl
      have hs₁hooks : s₁.hooks = [] := by rw [← hs₁]; exact hhooks
      have hstep := Calm.stepOver g (s₁.openMarker g).2
      generalize ((s₁.openMarker g).2.stepOver g).2 = t at hstep
      have hlog : (t.commit (s₁.openMarker g).1 .error (some error)).log =
          (s.log.openAt (g.significant s₁.position)).2.commit s.log.fresh .error (some error)
            t.position := by
        rw [log_commit, hstep.log, ← hs₁log]
        rfl
      obtain ⟨hout', herror⟩ := hout.insertError (g.significant s₁.position) t.position error
      rw [← hlog] at hout' herror
      refine ⟨_, rfl, ?_, .inr ⟨hout', iff_of_true herror (.inl trivial)⟩⟩
      rw [toSignificant, commit]
      split <;> exact hstep.hooks.trans hs₁hooks

/-- Grouping what is left leaves the errors as they are. -/
theorem exists_reportSkipped (hout : s.log.Outermost m) (hhooks : s.hooks = [])
    (hrounds : g.source.size < rounds) (frame : Frame) (kind : Option Kind) (result pinned : Bool)
    (initial : Nat) (eatsFirst : Bool) :
    ∃ x, s.reportSkipped g run rounds frame kind result pinned .always initial eatsFirst true =
        some x ∧ x.2.2.hooks = [] ∧ (x.2.2.isAborted = true ∨ ∃ old, Spares old m x.2.2 ∧
          old.Outermost m ∧
            (old.HasErrors ↔ frame.countsReported result initial = false ∨ s.log.HasErrors)) := by
  obtain ⟨x, hx, hxhooks, hskip⟩ := exists_skipFirst hadvancer hrun hout hhooks frame
    (frame.countsReported result initial)
  rw [reportSkipped_always hrun, hx, Option.bind_some]
  split
  · next haborted => exact ⟨x, rfl, hxhooks, .inl haborted⟩
  · next haborted =>
    obtain ⟨hout', herrors⟩ := hskip.resolve_left haborted
    obtain ⟨y, hy⟩ := isSome_groupRun hadvancer hrun (frame.level + 1) .chunk true x.2.2 hrounds
    rw [hadvancer, hy, Option.bind_some]
    have hspares := (Spares.invariant g x.2.2.log m).groupRun
      (fun rule hr level s b s' hs h => hs.calm (hrun.calm hadvancer hr h))
      (Spares.intro hout'.sound hout'.oldest hxhooks) hy trivial
    exact ⟨_, rfl, hspares.hooks, .inr ⟨_, hspares, hout', herrors⟩⟩

/-- After recovery at the end of the section that spans all others there are errors unless one counts
as reported and there was none before. -/
theorem exists_recover (hout : s.log.Outermost m) (hlast : s.log.lastWidenable? = some m)
    (hhooks : s.hooks = []) (hhere : s.toSignificant g = s) (hleft : s.isAtEnd g = false)
    (hrounds : g.source.size < rounds) (frame : Frame) (kind : Kind) (result : Bool)
    (lastError : Nat) :
    ∃ x, s.recover g run rounds frame (some kind) result true .always s.position lastError =
        some x ∧ x.2.hooks = [] ∧ (x.2.isAborted = true ∨ ∀ source language root,
          (x.2.log.toTree source language root).diagnostics ≠ [] ↔
            frame.countsReported result s.position = false ∨ s.log.HasErrors) := by
  have hhere' : { s with quiet := true }.toSignificant g = { s with quiet := true } := by
    have hp : g.significant s.position = s.position := congrArg Session.position hhere
    simp only [toSignificant, hp]
  have hleft' : { s with quiet := true }.isAtEnd g = false := hleft
  obtain ⟨u, hu, hcalm⟩ := skipRun_always hadvancer hrun (frame.name.getD "<section>")
    (frame.level + 1) lastError 0 { s with quiet := true }
    (show g.source.size - s.position < rounds by omega)
  simp only [recover, hhere', hleft', hrun.always, Bool.or_true, Bool.true_or, Bool.true_and,
    Option.isSome_some, Option.bind_eq_bind, Option.bind_some, hu, Bool.false_eq_true, if_false,
    if_true]
  have hlog : (u.note (.skipped u.position lastError true)).log = s.log := hcalm.log
  have hout' : (u.note (.skipped u.position lastError true)).log.Outermost m := hlog ▸ hout
  obtain ⟨x, hx, hxhooks, hskipped⟩ := exists_reportSkipped hadvancer hrun hout'
    (hcalm.hooks.trans hhooks) hrounds frame (some kind) result true s.position true
  rw [hlog] at hskipped
  rw [hlast, hx, Option.bind_some]
  obtain ⟨hwhooks, hwaborted⟩ := widenOver_eq (some m) x.2.1.position x.2.2
  have hdone : (x.2.2.widenOver (some m) x.2.1.position).isAborted = true ∨
      ∀ source language root,
        ((x.2.2.widenOver (some m) x.2.1.position).log.toTree source language root).diagnostics ≠ []
          ↔ frame.countsReported result s.position = false ∨ s.log.HasErrors := by
    rcases hskipped with haborted | ⟨old, hspares, hout', herrors⟩
    · exact .inl (by rw [isAborted, hwaborted]; exact haborted)
    · refine .inr fun source language root => ?_
      rw [hspares.diagnostics_widenOver hout'.committed hout'.noError, ← herrors]
  split
  · exact ⟨_, rfl, hwhooks.trans hxhooks, hdone⟩
  · exact ⟨_, rfl, hwhooks.trans hxhooks, hdone⟩

/-! ## Leaving the root section -/

omit hrun hadvancer in
/-- After a fatal error nothing is reported. -/
theorem reportPinned_of_isAborted (h : s.isAborted = true) (frame : Frame) (kind : Option Kind)
    (initial lastError : Nat) : (s.reportPinned g frame kind initial lastError).2 = s := by
  unfold reportPinned reportFor report
  rw [if_pos h]
  split
  · rfl
  · split <;> rfl

theorem exists_settleErrors (hout : s.log.Outermost m) (hlast : s.log.lastWidenable? = some m)
    (hquiet : s.quiet = false) (hhooks : s.hooks = []) (hhere : s.toSignificant g = s)
    (hleft : s.isAtEnd g = false) (hrounds : g.source.size < rounds) (frame : Frame) (kind : Kind)
    (result : Bool) :
    ∃ s', s.settleErrors g run rounds frame (some kind) result true (some .always) = some s' ∧
      s'.hooks = [] ∧ (s'.isAborted = true ∨ ∀ source language root,
        (s'.log.toTree source language root).diagnostics ≠ [] ↔
          frame.countsReported result s.position = false ∨ s.log.HasErrors) := by
  simp only [settleErrors_eq, Bool.or_true, attemptsByName_of_stays, hquiet, Bool.false_or]
  cases haborted : s.isAborted with
  | true =>
    have hsame : (if !result && true && frame.errorAt.isNone then
        s.reportPinned g frame (some kind) s.position frame.errorPosition
        else (frame, s)).2 = s := by
      split
      · exact reportPinned_of_isAborted haborted ..
      · rfl
    have hended := (congrArg isAborted hsame).trans haborted
    exact ⟨_, rfl, (congrArg hooks hsame).trans hhooks, .inl hended⟩
  | false =>
    obtain ⟨x, hx, hxhooks, hdone⟩ := exists_recover hadvancer hrun hout hlast hhooks hhere hleft
      hrounds frame kind result frame.errorPosition
    refine ⟨x.2.modifyFrame (·.absorb x.1), ?_, hxhooks, hdone⟩
    rw [if_neg Bool.false_ne_true, settleFrame, hx]
    rfl

/-- Leaving the root section before the end of the input. -/
theorem exists_leave (h : Held m false [rootShape] s)
    (hleft : (s.toSignificant g).isAtEnd g = false) (hrounds : g.source.size < rounds)
    (hook : HookRunner) (root : Kind) (result : Bool) :
    ∃ f s', s.frames = [f] ∧
      s.leave g run hook rounds 0 m (some root) result true (some .always) = some s' ∧
      (s'.isAborted = true ∨ ∀ source language kind,
        (s'.log.toTree source language kind).diagnostics ≠ [] ↔
          f.countsReported result (g.significant s.position) = false ∨
            ∃ x, s.log.IsError x ∧ s.absorbable? g f (f.kind.getD root) ≠ some x) := by
  obtain ⟨f, hframes, hf⟩ : ∃ f, s.frames = [f] ∧ f.shape = rootShape := by
    simpa using List.map_eq_singleton_iff.1 h.frames
  have hlevel : f.level = 0 := congrArg FrameShape.level hf
  generalize hs₀ : ({ s with frames := [] } : Session).note (.sectionLeft f result true) = s₀
  obtain ⟨s₁, hshape, hclosed⟩ := shapeSection_root (g := g) (s := s₀) (m := m)
    (by rw [← hs₀]; exact h.rooted) hf (f.kind.getD root)
  have hposition : s₁.position = g.significant s.position := by
    rw [hclosed.position, ← hs₀]
    rfl
  have hhere : s₁.toSignificant g = s₁ := by
    rw [toSignificant, hposition, significant_significant, ← hposition]
  have hend : s₁.isAtEnd g = false := by
    rw [isAtEnd, kindHere?, hposition]
    exact hleft
  obtain ⟨s₂, hsettle, hhooks, hdone⟩ := exists_settleErrors hadvancer hrun hclosed.outermost
    hclosed.latest (by rw [hclosed.quiet, ← hs₀]; exact h.quiet)
    (by rw [hclosed.hooks, ← hs₀]; exact h.hooks) hhere hend hrounds f (f.kind.getD root) result
  refine ⟨f, s₂.closeLevel, hframes, ?_, ?_⟩
  · have hkind : (f.kind <|> some root) = some (f.kind.getD root) := by cases f.kind <;> rfl
    simp only [leave, hframes, hlevel, if_true, hkind, hs₀, Bool.or_true, hshape, hsettle,
      Option.bind_eq_bind, Option.bind_some]
    unfold runLevelHooks
    rw [hhooks]
    rfl
  · rw [hposition, hclosed.errors, ← hs₀] at hdone
    exact hdone

end

/-! ## What a parse reports -/

/-- Where the root rule makes a balanced run, as all rules of a balanced grammar do
(`Grammar.balanced`), and leaves a significant token over, and the advancer is the default one, the
parse ends. It reports something exactly if there is a fatal error, or no error counts as reported in
the frame of the root section, or a committed node has an error and is not the child that takes the
place of the root. -/
theorem diagnostics_parse_ne_nil_iff {allows : Modifiers → Bool} {g : Setup} {fuel : Nat}
    {root : Kind} {rule : RuleRef} {limits : Limits} {caret : Option Nat} {result : Bool}
    {s : Session} (hadvancer : g.advancer = .advance) (hfuel : g.source.size < fuel)
    (hrun : runRef g (eval g fuel) rule 1 (enterRoot g limits caret).2 = some (result, s))
    (hbalanced : BalancedRun allows g (enterRoot g limits caret).2 s)
    (hleft : (s.toSignificant g).isAtEnd g = false) :
    ∃ f o, s.frames = [f] ∧ (start limits caret).parse g fuel root rule = some o ∧
      (o.diagnostics ≠ [] ↔ o.fatal.isSome = true ∨
        f.countsReported result (g.significant s.position) = false ∨
          ∃ x, s.log.IsError x ∧ s.absorbable? g f (f.kind.getD root) ≠ some x) := by
  have hheld := hbalanced.held (held_enterRoot g limits caret)
  obtain ⟨f, s', hframes, hleave, hdone⟩ := exists_leave hadvancer
    (Grammar.standard_runRef g (eval g fuel)) hheld hleft hfuel (runHook (eval g fuel)) root result
  refine ⟨f, s'.output g root, hframes, ?_, ?_⟩
  · rw [parse_eq, hrun, Option.bind_some, hleave, Option.bind_some]
  · have hfatal : (s'.output g root).fatal.isSome = s'.isAborted := Option.isSome_map
    have hsplit : (s'.output g root).diagnostics ≠ [] ↔
        s'.isAborted = true ∨ (s'.log.toTree g.source g.language root).diagnostics ≠ [] := by
      unfold output isAborted
      cases s'.aborted with
      | some a => simp
      | none => simp
    rw [hsplit, hfatal]
    rcases hdone with haborted | hdone
    · simp [haborted]
    · rw [hdone]

/-- Three tokens, and a statement that is one token. -/
def leftover : Setup where
  source := { text := "a+b", tokens := [⟨⟨3⟩, ⟨0, 1⟩⟩, ⟨⟨6⟩, ⟨1, 2⟩⟩, ⟨⟨3⟩, ⟨2, 3⟩⟩] }
  language := (LanguageTable.toBareLanguage {})
  limits := default
  grammar := [("statement", .prim (.consume ⟨3⟩))]

theorem diagnostics_parse_leftover :
    ∃ o, (start {} none).parse leftover 12 ⟨20⟩ (.named "statement") = some o ∧
      o.diagnostics ≠ [] := by
  have hrun : ∃ s, runRef leftover (eval leftover 12) (.named "statement") 1
      (enterRoot leftover {} none).2 = some (true, s) ∧
        (s.toSignificant leftover).isAtEnd leftover = false ∧
        s.frames.all (·.errorAt.isNone) = true := ⟨_, rfl, rfl, rfl⟩
  obtain ⟨s, hs, hleft, hframes⟩ := hrun
  have hg : leftover.grammar.Balanced fun _ => true := by decide
  have hbalanced := Grammar.balanced hg 12 _ _ _ _ _ hs
  obtain ⟨f, o, hf, ho, hiff⟩ := @diagnostics_parse_ne_nil_iff _ leftover 12 ⟨20⟩ _ {} none true s
    rfl (by decide) hs hbalanced hleft
  refine ⟨o, ho, hiff.2 (.inr (.inl ?_))⟩
  have hnone : f.errorAt = none := by simpa [hf] using hframes
  simp [Frame.countsReported, Frame.hasErrorFrom, hnone]

/-- The same tokens, and a statement that gives everything back, the error at its start with it. -/
def unreported : Setup :=
  { leftover with
    grammar := [("statement",
      .seq (.prim (.enterSimple "k")) <|
      .seq (.reporting (.prim (.consume ⟨6⟩))) <|
      .seq (.leaveSimple "k" none (.const false)) (.const false))] }

/-- An error reported where a section starts is not forgotten when the section is erased. It counts as
reported, and all tokens are skipped without one. -/
theorem diagnostics_parse_unreported :
    unreported.grammar.Balanced (fun _ => true) ∧ unreported.advancer = .advance ∧
      ∃ s o, runRef unreported (eval unreported 12) (.named "statement") 1
          (enterRoot unreported {} none).2 = some (false, s) ∧
        (s.toSignificant unreported).isAtEnd unreported = false ∧
        (start {} none).parse unreported 12 ⟨20⟩ (.named "statement") = some o ∧
        o.diagnostics = [] := by
  have hparse : ((start {} none).parse unreported 12 ⟨20⟩ (.named "statement")).map
      Output.hasErrors = some false := by decide +kernel
  obtain ⟨o, ho, herrors⟩ := Option.map_eq_some_iff.1 hparse
  exact ⟨by decide, rfl, _, o, rfl, rfl, ho, by simpa [Output.hasErrors] using herrors⟩

end Session

end Descent
