import Descent.Proofs.Session.HookTurns
import Descent.Proofs.Session.TidySections

/-!
# What a quiet session does not report

While a session is quiet, token tests record nothing (`Primitive.unrecorded_run`), and a section that is entered
has recorded no attempt when it is left. So there is nothing to report in it. But a report does not ask whether
the session is quiet: it is made if the section it is for had recorded an attempt before, and a section that was
pinned and failed where it began reports what was recorded there before.

A `QuietRun` consists of token tests, sections, and reports for sections that were entered meanwhile. It records
nothing and leaves no error behind (`QuietRun.hushed`).
-/

namespace Descent

open Session (Calm)

namespace Session

variable {g : Setup} {s s₁ s' t : Session}

/-- From `s` to `s'` nothing is recorded, and no error is brought in. -/
structure Hushed (s s' : Session) : Prop extends Unrecorded s s' where
  errors : s.log.ErrorsFrom s'.log

/-- Nothing is recorded as expected at the next token. -/
def ExpectsNothing (g : Setup) (s : Session) : Prop :=
  ((s.toSignificant g).expectedHere g).isEmpty = true

/-- No attempt has been recorded in the innermost section. -/
def Untried (s : Session) : Prop := ∀ f ∈ s.frames.head?, f.attemptAt = none

/-- The innermost section has marked an error at the next token or further ahead, or has recorded no attempt
up to there. -/
def NothingToReport (g : Setup) (s : Session) : Prop :=
  ∀ f ∈ s.frames.head?, f.hasErrorFrom (g.significant s.position) = true ∨
    f.attemptAt.any (· ≤ g.significant s.position) = false

theorem Untried.nothingToReport (h : s.Untried) (g : Setup) : s.NothingToReport g := by
  intro f hf
  rw [h f hf]
  exact .inr rfl

theorem Unrecorded.untried (h : s.Unrecorded s') (hs : s.Untried) : s'.Untried := by
  intro f hf
  have hhead := congrArg List.head? h.frames
  rw [List.head?_map, List.head?_map, hf] at hhead
  cases hframe : s.frames.head? with
  | none =>
    rw [hframe] at hhead
    cases hhead
  | some f' =>
    rw [hframe] at hhead
    rw [Frame.attemptAt_eq_of_unmarked (Option.some.inj hhead)]
    exact hs f' hframe

namespace Hushed

theorem refl (s : Session) : s.Hushed s := ⟨.refl s, .refl _⟩

theorem trans (h : s.Hushed s₁) (h' : s₁.Hushed s') : s.Hushed s' :=
  ⟨h.toUnrecorded.trans h'.toUnrecorded, h.errors.trans h'.errors⟩

theorem of_calm (h : Calm s s') (h' : s.Unrecorded s') : s.Hushed s' := ⟨h', h.log ▸ .refl _⟩

theorem openMarker (g : Setup) (s : Session) : s.Hushed (s.openMarker g).2 :=
  ⟨.openMarker s g, (Silent.openMarker g s).errors⟩

end Hushed

/-! ## Token tests -/

namespace Unrecorded

theorem seek (s : Session) (p : Nat) : s.Unrecorded { s with position := p } := { refl s with }

theorem completion (s : Session) (c : Option Completion) : s.Unrecorded { s with completion := c } :=
  { refl s with }

theorem recordCall (s : Session) (step : Step) (value : Value) : s.Unrecorded (s.recordCall step value) :=
  { refl s with }

section
variable (g) (s)

theorem offerIfPositive (text : String) : s.Unrecorded (s.offerIfPositive g text) := by
  unfold Session.offerIfPositive offer
  split
  · split
    · exact refl s
    · exact (toSignificant s g).trans (completion ..)
  · exact refl s

theorem peekAny (kinds : List Kind) : s.Unrecorded (s.peekAny g kinds).2 := by
  unfold Session.peekAny
  split
  · exact refl s
  · exact toSignificant s g

theorem take (kind : Kind) : s.Unrecorded (s.take g kind).2 := by
  have h : s.Unrecorded (s.peek g kind).2 := peekAny g s [kind]
  unfold Session.take
  split
  · next hp =>
    rw [hp] at h
    exact h.trans (seek ..)
  · next hp =>
    rw [hp] at h
    exact h

theorem stepOver : s.Unrecorded (s.stepOver g).2 := by
  unfold Session.stepOver
  dsimp only
  split
  · exact toSignificant s g
  · exact (toSignificant s g).trans (seek ..)

theorem guardLevel (level : Nat) (rule : String) : s.Unrecorded (s.guardLevel g level rule).2 := by
  unfold Session.guardLevel
  split
  · exact refl s
  · dsimp only
    split
    · exact (toSignificant s g).trans (abort ..)
    · exact refl s

theorem guardProgress (rule : String) (position : Nat) :
    s.Unrecorded (s.guardProgress g rule position).2 := by
  unfold Session.guardProgress
  split
  · exact refl s
  · exact (toSignificant s g).trans (abort ..)

end

section
variable (g) (hs : s.quiet = true)
include hs

theorem expect (target : Target) : s.Unrecorded (s.expect g target) := by
  have hrecords : (s.toSignificant g).records g = false := by
    unfold records
    rw [show (s.toSignificant g).quiet = true from hs]
    rfl
  unfold Session.expect
  dsimp only
  rw [hrecords, if_neg Bool.false_ne_true]
  exact toSignificant s g

theorem consume (kind : Kind) : s.Unrecorded (s.consume g kind).2 := by
  unfold Session.consume
  split
  · exact refl s
  · exact (expect g hs _).trans (take ..)

theorem next (kind : Kind) : s.Unrecorded (s.next g kind).2 := by
  unfold Session.next
  split
  · exact refl s
  · split
    · exact refl s
    · exact (expect g hs _).trans (peekAny ..)

theorem nextAny (name : Option String) (kinds : List Kind) : s.Unrecorded (s.nextAny g name kinds).2 := by
  have hrecords : s.records g = false := by
    unfold records
    rw [hs]
    rfl
  unfold Session.nextAny
  split
  · exact refl s
  split
  · exact refl s
  rw [hrecords, Bool.false_and, if_neg Bool.false_ne_true]
  exact peekAny g s kinds

theorem consumeLiteral (literal : String) : s.Unrecorded (s.consumeLiteral g literal).2 := by
  unfold Session.consumeLiteral
  split
  · exact refl s
  · dsimp only
    split
    · exact (expect g hs _).trans (seek ..)
    · exact expect g hs _

theorem nextLiteral (literal : String) : s.Unrecorded (s.nextLiteral g literal).2 := by
  unfold Session.nextLiteral
  split
  · exact refl s
  · split
    · exact refl s
    · exact expect g hs _

end

end Unrecorded

end Session

namespace Primitive

/-- Whether a test looks at tokens, and does not say by itself what is expected. -/
def isTokenTest : Primitive → Bool
  | announce _ => false
  | p => p.isTest

/-- Whether a test is of a sequence that reports some token which does not match. -/
def reports : Primitive → Bool
  | sequence pin _ | trySequence pin _ | trySequenceSilent pin _ => pin != .none
  | _ => false

/-- Tests of single tokens record nothing while the session is quiet. -/
theorem unrecorded_run {p : Primitive} (hsingle : p.isSingle = true) (htest : p.isTokenTest = true)
    {s : Session} (hs : s.quiet = true) (g : Setup) (level : Nat) (vars : Vars) :
    s.Unrecorded (p.run g level vars s).session := by
  cases p with
  | enter | enterSimple | openMarker | wrap | lastCommitted | commit | rollback | drop | foreign
  | sequence | trySequence | trySequenceSilent => cases hsingle
  | announce => cases htest
  | guardLevel => exact .guardLevel ..
  | consume kind => exact .consume g hs kind
  | take => exact .take ..
  | takeOffered => exact (Session.Unrecorded.offerIfPositive ..).trans (.take ..)
  | consumeLiteral literal => exact .consumeLiteral g hs literal
  | nextLiteral literal => exact .nextLiteral g hs literal
  | next kind => exact .next g hs kind
  | peek => exact .peekAny ..
  | nextAny name kinds => exact .nextAny g hs name kinds
  | peekAny => exact .peekAny ..
  | advance => exact .stepOver ..
  | isAtEnd => exact .toSignificant ..
  | isAborted | remember | recursionCeiling => exact .refl s
  | guardProgress => exact .guardProgress ..
  | kindHere =>
    simp only [run, Outcome.session_find]
    exact .toSignificant ..
  | textHere => exact .toSignificant ..
  | offset => exact .toSignificant ..
  | kindOf =>
    simp only [run, Outcome.session_find]
    exact .refl s

end Primitive

namespace Session

variable {g : Setup} {s s₁ s' t : Session}

/-! ## Reports and sequences -/

/-- Where there is nothing to report nothing happens. -/
theorem hushed_reportHere (h : s.NothingToReport g) : s.Hushed (s.reportHere g) := by
  unfold reportHere
  dsimp only
  split
  · exact .of_calm ((Calm.toSignificant g s).trans (.note ..)) ((Unrecorded.toSignificant s g).trans (.note ..))
  · next f fs hframes =>
    have hf := h f (by rw [show s.frames = f :: fs from hframes]; rfl)
    split
    · next hreports =>
      obtain ⟨hmark, hattempt⟩ := Bool.and_eq_true_iff.1 hreports
      rcases hf with hf | hf
      · rw [show f.hasErrorFrom (s.toSignificant g).position = true from hf] at hmark
        cases hmark
      · rw [show f.attemptAt.any (· ≤ (s.toSignificant g).position) = false from hf] at hattempt
        cases hattempt
    · exact .of_calm (.toSignificant g s) (.toSignificant s g)

section
variable (silent : Bool) {pin : Pin} (kinds : List Kind) (hs : s.quiet = true)
include hs

theorem hushed_consumeRest {index : Nat} {result pinned : Bool}
    (hpin : s.Untried ∨ pin = .none ∧ pinned = false) :
    s.Hushed (s.consumeRest g silent pin index result pinned kinds).2 := by
  induction kinds generalizing index result pinned s with
  | nil => exact .refl s
  | cons kind kinds ih =>
    simp only [consumeRest]
    generalize hpinned' : (if 0 < index && pin == .after index then result else pinned) = pinned'
    have hpin' : s.Untried ∨ pin = .none ∧ pinned' = false := by
      refine hpin.imp_right fun h => ⟨h.1, ?_⟩
      rw [← hpinned', h.1, if_neg (by simp)]
      exact h.2
    split
    · have hone : s.Hushed (if silent && index == 0 then s.take g kind else s.consume g kind).2 := by
        refine .of_calm (calm_consumeOne _ kind s) ?_
        split
        · exact .take g s kind
        · exact .consume g hs kind
      generalize (if silent && index == 0 then s.take g kind else s.consume g kind) = x at hone
      have hreport : x.2.Hushed (if !x.1 && (pin == .report || pinned') then x.2.reportHere g else x.2) := by
        split
        · next hreports =>
          rcases hpin' with huntried | ⟨rfl, rfl⟩
          · exact hushed_reportHere ((hone.untried huntried).nothingToReport g)
          · simp at hreports
        · exact .refl _
      have hstep := hone.trans hreport
      exact hstep.trans (ih (hstep.quiet.trans hs) (hpin'.imp_left hstep.untried))
    · exact ih hs hpin'

/-- A sequence reports nothing if it is not pinned, or in a section that has recorded no attempt. -/
theorem hushed_consumeKinds (hpin : s.Untried ∨ pin = .none) :
    s.Hushed (s.consumeKinds g silent pin kinds).2 := by
  let text := " ".intercalate (kinds.map g.language.nameOf)
  have hoffer : s.Hushed { s.offerIfPositive g text with completion := none } :=
    .of_calm ((Calm.offerIfPositive g s text).trans (.completion _ none))
      ((Unrecorded.offerIfPositive g s text).trans (.completion _ none))
  have hend (t : Session) (c : Option Completion) : t.Hushed { t with completion := c } :=
    .of_calm (.completion t c) (.completion t c)
  refine hoffer.trans (.trans (hushed_consumeRest silent kinds (hoffer.quiet.trans hs) ?_) (hend _ _))
  exact hpin.imp hoffer.untried fun h => ⟨h, rfl⟩

theorem hushed_tryKinds (hopen : s.HooksOpen) (hsound : s.log.Sound) (hpin : s.Untried ∨ pin = .none) :
    s.Hushed (s.tryKinds g silent pin kinds).2 := by
  have hmarked := Hushed.openMarker g s
  have hbody := hushed_consumeKinds (g := g) silent kinds (hmarked.quiet.trans hs) (hpin.imp_left hmarked.untried)
  have hrun : BalancedRun (fun _ => true) g (s.openMarker g).2
      ((s.openMarker g).2.consumeKinds g silent pin kinds).2 := .consumeKinds ..
  have hcontinues := (hrun.work (hmarked.hooksOpen hopen)).continues (hsound.openAt _)
  unfold tryKinds
  dsimp only
  generalize (s.openMarker g).2.consumeKinds g silent pin kinds = x at hbody hcontinues
  obtain ⟨_ | _, t⟩ := x
  · have hback := hmarked.toUnrecorded.trans (hbody.toUnrecorded.trans (.rollback t (s.openMarker g).1))
    exact ⟨hback, errorsFrom_rollback hsound hcontinues⟩
  · exact hmarked.trans (hbody.trans ⟨.drop t _, (Silent.drop _ t).errors⟩)

end

end Session

/-- Token tests bring in no error while the session is quiet, if those that report are made in a section that
has recorded no attempt. -/
theorem Primitive.hushed_run {p : Primitive} (htest : p.isTokenTest = true) {s : Session}
    (hs : s.quiet = true) (hopen : s.HooksOpen) (hsound : s.log.Sound)
    (hreports : s.Untried ∨ p.reports = false) (g : Setup) (level : Nat) (vars : Vars) :
    s.Hushed (p.run g level vars s).session := by
  have hpin {pin : Pin} (h : s.Untried ∨ (pin != .none) = false) : s.Untried ∨ pin = .none :=
    h.imp_right fun h => by simpa using h
  cases hsingle : p.isSingle with
  | true => exact .of_calm (calm_of_isSingle hsingle g level vars s) (unrecorded_run hsingle htest hs ..)
  | false =>
    cases p with
    | sequence pin kinds => exact Session.hushed_consumeKinds false kinds hs (hpin hreports)
    | trySequence pin kinds => exact Session.hushed_tryKinds false kinds hs hopen hsound (hpin hreports)
    | trySequenceSilent pin kinds => exact Session.hushed_tryKinds true kinds hs hopen hsound (hpin hreports)
    | _ => simp_all [isTokenTest, isSingle, isTest]

namespace Session

variable {g : Setup} {s s₁ s' t : Session} {run : Runner} {hook : HookRunner} {rounds level : Nat}
  {m : Marker} {modifiers : Modifiers} {early kind : Option Kind} {name : Option String}
  {result pinned : Bool} {eatMore : Option RuleRef} {frame : Frame} {frames : List Frame}

/-! ## Entering sections -/

/-- Nothing is reported once more while the session is quiet. -/
theorem reportAgain_of_quiet (hs : s.quiet = true) : s.reportAgain g = s := by
  unfold reportAgain
  rw [hs, Bool.true_or, if_pos rfl]

theorem entering_of_quiet (hs : s.quiet = true) : s.entering g = { s with level := s.level + 1 } := by
  rw [entering, reportAgain_of_quiet hs]

/-- The frame of a section is put up before any attempt is recorded. -/
theorem exists_entered (hs : s.quiet = true) (level : Nat) (modifiers : Modifiers) (early : Option Kind)
    (name : Option String) : ∃ t frame,
      (s.enter g level modifiers early name).2 = { t with frames := frame :: t.frames } ∧
        frame.attemptAt = none ∧ frame.level = level ∧
        frame.position = (s.enter g level modifiers early name).2.position ∧
        { s with level := s.level + 1 }.Unrecorded t := by
  rw [position_enter, entering_of_quiet hs]
  unfold enter openFrame
  dsimp only
  rw [reportAgain_of_quiet hs]
  generalize hf : (Frame.mk _ _ _ _ _ _ _ _ _ _) = frame
  refine ⟨_, frame, rfl, by rw [← hf], by rw [← hf], ?_, ?_⟩
  · rw [← hf]
    exact significant_significant g _
  · refine .trans ?_ (.note _ _)
    have hopened (lookahead : Lookahead) : { s with level := s.level + 1 }.Unrecorded
        { { (s.openMarker g).2 with level := s.level + 1 }.toSignificant g with lookahead } :=
      { Unrecorded.refl { s with level := s.level + 1 } with }
    split
    · exact hopened _
    · exact (hopened _).trans (.abort ..)

/-- Inside a section that recorded nothing its frame is the innermost one, and has recorded no attempt. -/
theorem exists_inside (hs : s.quiet = true)
    (hbody : (s.enter g level modifiers early name).2.Unrecorded s₁) : ∃ f fs, s₁.frames = f :: fs ∧
      f.attemptAt = none ∧ f.level = level ∧
      f.position = (s.enter g level modifiers early name).2.position ∧
      { s with level := s.level + 1 }.Unrecorded { s₁ with frames := fs } := by
  obtain ⟨t, frame, henter, hattempt, hlevel, hposition, ht⟩ :=
    exists_entered (g := g) hs level modifiers early name
  rw [hposition.symm] at *
  rw [henter] at hbody
  obtain ⟨f, fs, hfs, hf, hrest⟩ := List.map_eq_cons_iff.1 hbody.frames
  refine ⟨f, fs, hfs, (Frame.attemptAt_eq_of_unmarked hf).trans hattempt,
    (Frame.level_eq_of_unmarked hf).trans hlevel, Frame.position_eq_of_unmarked hf,
    ht.trans ⟨hbody.quiet, hbody.level, hbody.hooks, hbody.attempts, hrest⟩⟩

/-! ## Leaving sections -/

/-- What is erased or settled of a section records nothing in its frame. -/
theorem unmarked_shapeSection (hs : s.quiet = true) (frame : Frame) (m : Marker) (kind : Option Kind)
    (stays : Bool) : (s.shapeSection g frame m kind stays).1.unmarked = frame.unmarked := by
  have herase (f : Frame) (n : Marker) (u : Session) : (u.eraseSection f n).1.unmarked = f.unmarked :=
    f.unmarked_forgetErrorsAfter ..
  have hleft (keeps : Bool) : (s.leftMarker g frame m keeps).2.1.unmarked = frame.unmarked := by
    unfold leftMarker endLookahead
    rw [hs]
    split
    · cases keeps <;> exact herase frame m s
    · rfl
  rw [shapeSection_eq]
  generalize hx : s.leftMarker g frame m (kind.isSome && stays) = x
  have hframe : x.2.1.unmarked = frame.unmarked := hx ▸ hleft _
  refine .trans ?_ hframe
  cases stays with
  | true =>
    obtain ⟨v, heq, -⟩ := Silent.exists_settleMarker g x.2.1 x.1 kind x.2.2
    dsimp only
    rw [heq]
  | false =>
    unfold settleMarker
    rw [if_neg Bool.false_ne_true]
    split
    · exact herase x.2.1 _ x.2.2
    · rfl

/-- The errors in the log, when the marker of a section is settled, were there before or inside. -/
theorem errorsFrom_shapeSection (hlog : s.log.Sound) (hin : (s.openMarker g).2.log.Continues t.log)
    (frame : Frame) (kind : Option Kind) (stays : Bool) :
    s.log.ErrorsFrom (t.shapeSection g frame (s.openMarker g).1 kind stays).2.log ∨
      t.log.ErrorsFrom (t.shapeSection g frame (s.openMarker g).1 kind stays).2.log := by
  obtain ⟨frame', v, heq, ⟨-, hsilent⟩ | hsilent⟩ :=
    Silent.exists_shapeSection g frame (s.openMarker g).1 kind stays t
  · rw [heq]
    exact .inr hsilent.errors
  · rw [heq]
    exact .inl ((errorsFrom_rollback hlog hin).trans hsilent.errors)

theorem errorsFrom_closeMarker (hlog : s.log.Sound) (hin : (s.openMarker g).2.log.Continues t.log)
    (kind : Option Kind) (result : Bool) :
    s.log.ErrorsFrom (t.closeMarker (s.openMarker g).1 kind result).log ∨
      t.log.ErrorsFrom (t.closeMarker (s.openMarker g).1 kind result).log := by
  unfold closeMarker
  cases result with
  | true =>
    refine .inr ?_
    cases kind with
    | some kind => exact (Silent.commitAs ..).errors
    | none => exact (Silent.drop ..).errors
  | false => exact .inl (errorsFrom_rollback (t := t.modifyFrame _) hlog hin)

/-- The name of a section stands for nothing if it has recorded no attempt. -/
theorem attemptsByName_of_untried (hframe : frame.attemptAt = none) (g : Setup) (kind : Option Kind)
    (stays : Bool) (s : Session) : s.attemptsByName g frame kind stays = (frame, s) := by
  unfold attemptsByName
  split
  · rfl
  · simp [hframe]

/-- Nor is it reported, unless something was expected where it began and ended. -/
theorem hushed_reportPinned (hframe : frame.attemptAt = none) (kind : Option Kind) {initial : Nat}
    (hexpects : frame.position = initial → s.ExpectsNothing g) :
    s.Hushed (s.reportPinned g frame kind initial frame.errorPosition).2 ∧
      (s.reportPinned g frame kind initial frame.errorPosition).1.attemptAt = none := by
  have hposition : frame.errorPosition = frame.position := by
    rw [Frame.errorPosition, hframe]
    rfl
  unfold reportPinned
  rw [hposition]
  split
  · next heq =>
    have hnone (inner : Bool) : (s.report g frame.position inner false).1 = none ∧
        s.Hushed (s.report g frame.position inner false).2 := by
      unfold report
      split
      · exact ⟨rfl, .refl s⟩
      · dsimp only
        rw [if_pos (by simpa [ExpectsNothing] using hexpects heq)]
        exact ⟨rfl, .of_calm (.toSignificant g s) (.toSignificant s g)⟩
    obtain ⟨hreport, hhushed⟩ := hnone (kind.isSome && !frame.modifiers.upper)
    unfold reportFor
    generalize s.report g frame.position (kind.isSome && !frame.modifiers.upper) false = x at hreport hhushed
    obtain ⟨p?, u⟩ := x
    obtain rfl : p? = none := hreport
    exact ⟨hhushed, hframe⟩
  · split
    · exact ⟨.refl s, hframe⟩
    · exact ⟨.refl s, hframe⟩

theorem hushed_settleErrors (hs : s.quiet = true) (hframe : frame.attemptAt = none)
    (hexpects : result = false → pinned = true → frame.position = s.position → s.ExpectsNothing g)
    (h : s.settleErrors g run rounds frame kind result pinned eatMore = some s') : s.Hushed s' := by
  rw [settleErrors_eq, attemptsByName_of_untried hframe] at h
  dsimp only at h
  rw [hs, Bool.true_or, if_pos rfl] at h
  obtain ⟨⟨frame', t⟩, ht, h⟩ := Option.bind_eq_some_iff.1 h
  have hsettled : s.Hushed t ∧ frame'.attemptAt = none := by
    have heq := Option.some.inj ht
    split at heq
    · next hpinned =>
      simp only [Bool.and_eq_true, Bool.not_eq_true'] at hpinned
      have hreport := hushed_reportPinned (g := g) (s := s) hframe kind
        (hexpects hpinned.1.1 hpinned.1.2)
      rw [heq] at hreport
      exact hreport
    · cases heq
      exact ⟨.refl s, hframe⟩
  obtain ⟨hhushed, hnone⟩ := hsettled
  cases h
  refine hhushed.trans ⟨.modifyFrame t fun f _ => ?_, .refl _⟩
  unfold Frame.absorb Frame.unmarked
  rw [hnone]
  cases f.attemptAt <;> rfl

/-- No hook is run if all wait for sections further out. -/
theorem hushed_runLevelHooks {kind? : Option Kind} (hhooks : ∀ h ∈ s.hooks, h.level < s.level)
    (h : s.runLevelHooks g hook rounds kind? = some s') : s.Hushed s' := by
  refine .of_calm (Work.calm_runLevelHooks hhooks h) ?_
  by_cases hempty : s.hooks = []
  · unfold runLevelHooks at h
    rw [if_pos (List.isEmpty_iff.2 hempty)] at h
    cases h
    exact .refl s
  · rw [runLevelHooks_of_outer hhooks (rounds_pos hempty h)] at h
    cases h
    unfold beforeHooks
    split
    · split
      · exact .refl s
      · exact (Unrecorded.toSignificant s g).trans (.abort ..)
    · exact .refl s

end Session

namespace SectionSort

variable {g : Setup} {s s₁ s₂ u : Session} {sort : SectionSort} {run : Runner} {hook : HookRunner}
  {rounds : Nat} {m : Marker} {kind : Option Kind} {result pinned : Bool} {eatMore : Option RuleRef}

/-- Whether a frame is put up for the section. -/
def hasFrame : SectionSort → Bool
  | simple => false
  | framed .. => true

/-- A section that was pinned and failed reports nothing: it ends further on than it began, or nothing was
expected there. -/
def PinsQuietly (g : Setup) (s₁ : Session) (kind : Option Kind) (result pinned : Bool) (sort : SectionSort)
    (s : Session) : Prop :=
  sort.hasFrame = true → result = false → pinned = true →
    let u := sort.shape g (sort.enter g s).1 kind result pinned s₁
    (sort.enter g s).2.position = u.position → u.ExpectsNothing g

theorem pinsQuietly_of_not_pinned : sort.PinsQuietly g s₁ kind result false s :=
  fun _ _ hpinned => nomatch hpinned

theorem quiet_enter (sort : SectionSort) (hs : s.quiet = true) : (sort.enter g s).2.quiet = true := by
  cases sort with
  | simple =>
    show (s.entering g).quiet = true
    rw [Session.entering_of_quiet hs]
    exact hs
  | framed level modifiers early name =>
    have henter := Session.steady_enter g level modifiers early name s
    rw [Session.entering_of_quiet hs] at henter
    exact henter.quiet.trans hs

/-- In a section with a frame no attempt has been recorded. -/
theorem untried_enter (hs : s.quiet = true) (h : sort.hasFrame = true ∨ s.Untried) :
    (sort.enter g s).2.Untried := by
  cases sort with
  | simple =>
    have huntried : s.Untried := h.resolve_left Bool.false_ne_true
    show (s.entering g).Untried
    rw [Session.entering_of_quiet hs]
    exact huntried
  | framed level modifiers early name =>
    obtain ⟨t, frame, henter, hattempt, -⟩ := Session.exists_entered (g := g) hs level modifiers early name
    intro f hf
    rw [enter, henter] at hf
    obtain rfl := Option.some.inj hf
    exact hattempt

theorem errorsFrom_enter (hs : s.quiet = true) : s.log.ErrorsFrom (sort.enter g s).2.log := by
  rw [sort.log_enter, Session.entering_of_quiet hs]
  exact MarkerLog.errorsFrom_openAt ..

section
variable (hs : s.quiet = true) (hbody : (sort.enter g s).2.Hushed s₁)
include hs hbody

theorem onTop_of_hushed : sort.OnTop s₁ := by
  cases sort with
  | simple => trivial
  | framed level modifiers early name =>
    obtain ⟨f, fs, hfs, -, hlevel, -⟩ := Session.exists_inside hs hbody.toUnrecorded
    exact ⟨f, fs, hfs, hlevel⟩

/-- When the marker of a section is settled nothing was recorded since it was entered, and no error came in. -/
theorem hushed_shape (hsound : s.log.Sound) (hin : (sort.enter g s).2.log.Continues s₁.log)
    (kind : Option Kind) (result pinned : Bool) :
    { s with level := s.level + 1 }.Hushed (sort.shape g (sort.enter g s).1 kind result pinned s₁) := by
  have hentering := Session.entering_of_quiet (g := g) hs
  have hinside : s.log.ErrorsFrom s₁.log := (errorsFrom_enter hs).trans hbody.errors
  rw [sort.log_enter] at hin
  have hlog : (s.entering g).log = s.log := by rw [hentering]
  rw [← hlog] at hsound hinside
  cases sort with
  | simple =>
    have hmarked : { s with level := s.level + 1 }.Unrecorded s₁ := by
      rw [← hentering]
      exact (Session.Unrecorded.openMarker _ g).trans hbody.toUnrecorded
    refine ⟨hmarked.trans (.closeMarker ..), ?_⟩
    show s.log.ErrorsFrom _
    rw [← hlog]
    exact (Session.errorsFrom_closeMarker hsound hin kind result).elim id hinside.trans
  | framed level modifiers early name =>
    obtain ⟨f, fs, hfs, -, -, -, houter⟩ := Session.exists_inside hs hbody.toUnrecorded
    rw [shape, hfs]
    refine ⟨houter.trans (.shape ..), ?_⟩
    show s.log.ErrorsFrom _
    rw [← hlog]
    have hsettled := Session.errorsFrom_shapeSection (g := g)
      (t := Session.note { s₁ with frames := fs } (.sectionLeft f result pinned)) hsound hin f
    exact (hsettled (f.kind <|> kind) (result || pinned)).elim id hinside.trans

theorem hushed_settle (hsound : s.log.Sound) (hin : (sort.enter g s).2.log.Continues s₁.log)
    (hpins : sort.PinsQuietly g s₁ kind result pinned s)
    (h : sort.settle g run rounds (sort.enter g s).1 kind result pinned eatMore s₁ = some u) :
    { s with level := s.level + 1 }.Hushed u := by
  have hshape := hushed_shape hs hbody hsound hin kind result pinned
  cases sort with
  | simple =>
    obtain rfl := Option.some.inj h
    exact hshape
  | framed level modifiers early name =>
    obtain ⟨f, fs, hfs, hattempt, -, hposition, -⟩ := Session.exists_inside hs hbody.toUnrecorded
    have hpins := hpins rfl
    simp only [shape, hfs] at hshape hpins
    simp only [settle, hfs] at h
    let noted := Session.note { s₁ with frames := fs } (.sectionLeft f result pinned)
    have hquiet : noted.quiet = true := hbody.quiet.trans (quiet_enter _ hs)
    have hframe := Session.unmarked_shapeSection (g := g) hquiet f
      (enter g (framed level modifiers early name) s).1 (f.kind <|> kind) (result || pinned)
    refine hshape.trans (Session.hushed_settleErrors (hshape.quiet.trans hs)
      ((Frame.attemptAt_eq_of_unmarked hframe).trans hattempt) (fun hfailed hpinned heq => ?_) h)
    refine hpins hfailed hpinned (.trans ?_ heq)
    exact ((Frame.position_eq_of_unmarked hframe).trans hposition).symm

/-- When a section is left nothing was recorded since before it was entered, and no error came in. -/
theorem hushed_leave (hopen : s.HooksOpen) (hsound : s.log.Sound)
    (hin : (sort.enter g s).2.log.Continues s₁.log) (hpins : sort.PinsQuietly g s₁ kind result pinned s)
    (h : sort.leave g run hook rounds (sort.enter g s).1 kind result pinned eatMore s₁ = some s₂) :
    s.Hushed s₂ := by
  rw [leave_eq (onTop_of_hushed hs hbody)] at h
  obtain ⟨u, hu, h⟩ := Option.bind_eq_some_iff.1 h
  obtain ⟨v, hv, rfl⟩ := Option.map_eq_some_iff.1 h
  have hsettle := hushed_settle hs hbody hsound hin hpins hu
  have hhooks : ∀ x ∈ u.hooks, x.level < u.level := by
    rw [hsettle.hooks, hsettle.level]
    exact fun x hx => Nat.lt_succ_of_le (hopen x hx)
  have hall := hsettle.trans (Session.hushed_runLevelHooks hhooks hv)
  refine ⟨⟨hall.quiet, ?_, hall.hooks, hall.attempts, hall.frames⟩, hall.errors⟩
  show v.level - 1 = s.level
  rw [hall.level]
  rfl

end

/-- No rule is asked when a section is left while the session is quiet. -/
theorem leave_of_quiet (hs : s.quiet = true) (hbody : (sort.enter g s).2.Hushed s₁) (run run' : Runner)
    (hook : HookRunner) (rounds : Nat) (m : Marker) (kind : Option Kind) (result pinned : Bool)
    (eatMore : Option RuleRef) :
    sort.leave g run hook rounds m kind result pinned eatMore s₁ =
      sort.leave g run' hook rounds m kind result pinned eatMore s₁ := by
  rw [leave_eq (onTop_of_hushed hs hbody), leave_eq (onTop_of_hushed hs hbody)]
  cases sort with
  | simple => rfl
  | framed level modifiers early name =>
    obtain ⟨f, fs, hfs, -⟩ := Session.exists_inside hs hbody.toUnrecorded
    have hshape := Session.Unrecorded.shape g f fs m kind result pinned s₁
    have hquiet : (s₁.shape g f fs m kind result pinned).2.quiet = true :=
      hshape.quiet.trans (hbody.quiet.trans (quiet_enter _ hs))
    simp only [settle, hfs, Session.settleErrors_eq]
    generalize s₁.shape g f fs m kind result pinned = x at hquiet
    have hname := (Work.calm_attemptsByName (g := g) x.2 x.1 (f.kind <|> kind) (result || pinned)).quiet
    rw [hname.trans hquiet, Bool.true_or, if_pos rfl]
    rfl

end SectionSort

/-! ## Quiet runs -/

/-- Token tests, reports and sections that are entered and left lead from `s` to `s'`. What may report is done
inside a frame that was put up meanwhile (`within`), or where there is nothing to report, and no section was
pinned and failed where something had been expected. -/
inductive QuietRun (g : Setup) : (within : Bool) → Session → Session → Prop
  | refl {within : Bool} (s : Session) : QuietRun g within s s
  | trans {within : Bool} {s s₁ s₂ : Session} (h : QuietRun g within s s₁)
    (h' : QuietRun g within s₁ s₂) : QuietRun g within s s₂
  | test {within : Bool} {p : Primitive} (htest : p.isTokenTest = true)
    (hreports : within = true ∨ p.reports = false) (level : Nat) (vars : Vars) (s : Session) :
    QuietRun g within s (p.run g level vars s).session
  | record {within : Bool} (step : Step) (value : Value) (s : Session) :
    QuietRun g within s (s.recordCall step value)
  | report {within : Bool} {s : Session} (h : within = true ∨ s.NothingToReport g) :
    QuietRun g within s (s.reportHere g)
  | inside {within : Bool} {sort : SectionSort} {run : Runner} {hook : HookRunner} {rounds : Nat}
    {kind : Option Kind} {result pinned : Bool} {eatMore : Option RuleRef} {s s₁ s₂ : Session}
    (h : QuietRun g (within || sort.hasFrame) (sort.enter g s).2 s₁)
    (hpins : sort.PinsQuietly g s₁ kind result pinned s)
    (hleave : sort.leave g run hook rounds (sort.enter g s).1 kind result pinned eatMore s₁ = some s₂) :
    QuietRun g within s s₂

theorem Primitive.isTest_of_isTokenTest {p : Primitive} (h : p.isTokenTest = true) : p.isTest = true := by
  cases p with
  | announce => cases h
  | _ => exact h

variable {g : Setup} {within : Bool} {s s' : Session}

theorem QuietRun.recorded (h : QuietRun g within s s') (step : Step) (value : Value) :
    QuietRun g within s (s'.recordCall step value) :=
  h.trans (.record step value s')

theorem QuietRun.tested (h : QuietRun g within s s') {p : Primitive} (htest : p.isTokenTest = true)
    (hreports : within = true ∨ p.reports = false) (level : Nat) (vars : Vars) :
    QuietRun g within s (p.run g level vars s').session :=
  h.trans (.test htest hreports level vars s')

theorem QuietRun.reported (h : QuietRun g true s s') (matched : Bool) :
    QuietRun g true s (if matched then s' else s'.reportHere g) := by
  cases matched with
  | true => exact h
  | false => exact h.trans (.report (.inl rfl))

/-- While the session is quiet, such a run is work that records nothing and brings in no error. -/
theorem QuietRun.hushed (h : QuietRun g within s s') (hs : s.quiet = true) (hopen : s.HooksOpen)
    (hsound : s.log.Sound) (hwithin : within = true → s.Untried) :
    s.Hushed s' ∧ Work (fun _ => true) g none s s' := by
  induction h with
  | refl s => exact ⟨.refl s, .refl s⟩
  | trans _ _ ih ih' =>
    obtain ⟨hfirst, hwork⟩ := ih hs hopen hsound hwithin
    obtain ⟨hnext, hwork'⟩ := ih' (hfirst.quiet.trans hs) (hwork.hooksOpen hopen)
      (hwork.continues hsound).sound fun h => hfirst.untried (hwithin h)
    exact ⟨hfirst.trans hnext, hwork.trans hwork'⟩
  | test htest hreports level vars s =>
    have hrun : BalancedRun (fun _ => true) g s _ :=
      Primitive.balancedRun_of_isTest (Primitive.isTest_of_isTokenTest htest) level vars s
    have hhushed := Primitive.hushed_run htest hs hopen hsound (hreports.imp_left hwithin) g level vars
    exact ⟨hhushed, hrun.work hopen⟩
  | record step value s =>
    have hcalm := Calm.recordCall s step value
    exact ⟨.of_calm hcalm (.recordCall s step value), .calm hcalm⟩
  | @report within s h =>
    have hnothing : s.NothingToReport g := h.elim (fun h => (hwithin h).nothingToReport g) id
    exact ⟨Session.hushed_reportHere hnothing, .reportHere s⟩
  | @inside within sort run hook rounds kind result pinned eatMore s s₁ s₂ _ hpins hleave ih =>
    have hentered : (sort.enter g s).2.log.Sound := by
      rw [sort.log_enter, Session.entering_of_quiet hs]
      exact hsound.openAt _
    obtain ⟨hbody, hwork⟩ := ih (sort.quiet_enter hs) (sort.hooksOpen_enter hopen) hentered fun h =>
      SectionSort.untried_enter hs ((Bool.or_eq_true _ _ ▸ h).symm.imp_right hwithin)
    refine ⟨SectionSort.hushed_leave hs hbody hopen hsound (hwork.continues hentered) hpins hleave, ?_⟩
    cases sort with
    | simple => exact .leaveSimple hopen hwork hleave
    | framed level modifiers early name =>
      -- no rule is asked, so it does not matter which rules there are
      rw [SectionSort.leave_of_quiet hs hbody run (fun _ _ _ => none)] at hleave
      exact .leave rfl (fun _ _ _ _ _ _ hr => by cases hr) hopen hwork hleave

end Descent
