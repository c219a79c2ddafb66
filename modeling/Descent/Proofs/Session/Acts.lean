import Descent.Proofs.Session.LeadsTo
import Descent.Proofs.Session.Still

/-!
# What a session goes through

All that is done to a session is made of a dozen acts: tests and notes, which leave markers, sections
and fatal errors alone, the marker operations, reports, fatal errors, and the putting up and taking down
of frames (`Session.Acts`). What each of them keeps is kept by everything.

Some of it runs rules. To know where these are asked, too, two runners are compared that answer alike
wherever acts lead to: then they come to the same end (`Concur`). This module goes up to reports and
chunks.
-/

namespace Descent

open Session (Still)

namespace Session

/-- The error was reported as one in the input, or a marker has it. -/
def HasSeen (s : Session) (error : SyntaxError) : Prop :=
  (∃ m, s.log.error? m = some error) ∨ error.code.isSyntaxError = true ∧
    ∃ position advance inner, .errorReported position error advance inner ∈ s.trace

/-- Acts lead from one state to another. If they are `paired`, no frame gets lost. -/
inductive Acts (g : Setup) (paired : Bool) : Session → Session → Prop
  | still {s s' : Session} (h : Still g s s') : Acts g paired s s'
  | trans {s s₁ s₂ : Session} (h : Acts g paired s s₁) (h' : Acts g paired s₁ s₂) :
    Acts g paired s s₂
  | openMarker (s : Session) : Acts g paired s (s.openMarker g).2
  /-- An error comes in with a node of kind ERROR, and after its report. -/
  | commit (m : Marker) (kind : Kind) (error : Option SyntaxError) (s : Session)
    (h : ∀ e, error = some e → kind = .error ∧ s.HasSeen e) :
    Acts g paired s (s.commit m kind error)
  | drop (m : Marker) (s : Session) : Acts g paired s (s.drop m)
  | wrap (m : Marker) (s : Session) : Acts g paired s (s.wrap m).2
  | rollback (m : Marker) (s : Session) : Acts g paired s (s.rollback m)
  /-- Nothing is reported after a fatal error. What is reported is the error at the position, at which there is no
  trivia. -/
  | reported (advance inner : Bool) (s : Session) (h : s.isAborted = false)
    (hseek : g.significant s.position = s.position) :
    Acts g paired s (s.note
      (.errorReported s.position (s.errorHere g (s.expectedHere g)) advance inner))
  /-- A lookahead is misplaced only where the context does not admit it. -/
  | abort (error : Fatal) (s : Session)
    (h : ∀ offset, error = .misplacedLookahead offset → ∃ m, s.lookahead.admits m = false) :
    Acts g paired s (s.abort g error)
  | put (frame : Frame) (s : Session) (h : s.InBounds g → frame.InBounds g) :
    Acts g paired s (s.putFrame frame)
  | take {frame : Frame} {frames : List Frame} {s : Session} (h : s.frames = frame :: frames) :
    Acts g paired s (s.takeFrame frame)
  /-- A frame is taken down, but the lookahead context stays. -/
  | lose (s : Session) (h : paired = false) : Acts g paired s { s with frames := s.frames.tail }

end Session

/-- Acts lead to whatever the runner answers in the source. -/
def Runner.Acts (g : Setup) (paired : Bool) (run : Runner) : Prop :=
  ∀ rule level t b t', t.InBounds g → run rule level t = some (b, t') → t.Acts g paired t'

/-- Acts lead to whatever the hooks return in the source. -/
def HookRunner.Acts (g : Setup) (paired : Bool) (hook : HookRunner) : Prop :=
  ∀ body m? t m?' t', t.InBounds g → hook body m? t = some (m?', t') → t.Acts g paired t'

namespace Session.Acts

variable {g : Setup} {paired : Bool} {s s' t : Session} {m : Marker}

theorem refl (s : Session) : s.Acts g paired s := .still (.refl s)

/-! ## What acts keep -/

/-- What acts do to the markers are marker steps. -/
theorem leadsTo (h : s.Acts g paired s') : s.LeadsTo s' := by
  induction h with
  | still h => exact .still h.log
  | trans _ _ ih ih' => exact ih.trans ih'
  | openMarker s => exact .openMarker g s
  | commit m kind error s h =>
    refine .step (.commit m kind error) s ?_
    cases error with
    | none => exact trivial
    | some error => exact ⟨(h error rfl).1, (h error rfl).2.symm.imp_left (·.1)⟩
  | drop m s => exact .drop m s
  | wrap m s => exact .wrap m s
  | rollback m s => exact .rollback m s
  | reported | put | take | lose => exact .still rfl
  | abort error s => exact .calm (.abort g s error)

theorem trace_suffix (h : s.Acts g paired s') : s.trace <:+ s'.trace := by
  have hnote (s : Session) (e : Event) : s.trace <:+ (s.note e).trace := List.suffix_cons _ _
  induction h with
  | still h =>
    obtain ⟨later, ht, -⟩ := h.trace
    exact ht ▸ List.suffix_append later _
  | trans _ _ ih ih' => exact ih.trans ih'
  | openMarker | drop | put | take | lose => exact List.suffix_refl _
  | commit m kind error s =>
    unfold Session.commit
    split
    · exact List.suffix_refl _
    · exact List.suffix_refl _
    · exact hnote s _
  | wrap m s =>
    unfold Session.wrap
    dsimp only
    split
    · exact List.suffix_refl _
    · exact hnote s _
  | rollback m s =>
    unfold Session.rollback
    split <;> exact List.suffix_refl _
  | reported => exact hnote _ _
  | abort error s =>
    unfold Session.abort
    split
    · exact List.suffix_refl _
    · exact hnote s _

/-- Once reported, an error stays so. -/
theorem hasSeen (h : s.Acts g paired s') {error : SyntaxError} {position : Nat}
    {advance inner : Bool} (herror : error.code.isSyntaxError = true)
    (hs : .errorReported position error advance inner ∈ s.trace) : s'.HasSeen error :=
  .inr ⟨herror, position, advance, inner, h.trace_suffix.subset hs⟩

theorem inBounds (h : s.Acts g paired s') (hs : s.InBounds g) : s'.InBounds g := by
  induction h with
  | still h => exact h.inBounds hs
  | trans _ _ ih ih' => exact ih' (ih hs)
  | openMarker s =>
    have hp := Setup.significant_le hs.position
    exact ⟨hp, hs.starts.openAt hp, hs.frames⟩
  | commit m kind error s =>
    refine ⟨?_, ?_, ?_⟩
    · rw [position_commit]
      exact hs.position
    · rw [log_commit]
      exact hs.starts.commit (fun _ _ h => h) m kind _
    · unfold Session.commit
      split <;> exact hs.frames
  | drop m s => exact ⟨hs.position, hs.starts.drop m, hs.frames⟩
  | wrap m s =>
    refine ⟨?_, ?_, ?_⟩
    · rw [position_wrap]
      exact hs.position
    · rw [log_wrap]
      exact hs.starts.wrap (hs.starts.start (fun _ _ h => h) (Nat.zero_le _) m)
    · unfold Session.wrap
      dsimp only
      split <;> exact hs.frames
  | rollback m s =>
    unfold Session.rollback
    split
    · next p log hr =>
      obtain ⟨hlog, -, hp⟩ := hs.starts.rollback hr
      exact ⟨hp, hlog, hs.frames⟩
    · exact hs
  | reported => exact { hs with }
  | abort error s =>
    unfold Session.abort
    split
    · exact hs
    · exact ⟨Setup.significant_le hs.position, hs.starts, hs.frames⟩
  | put frame s h => exact ⟨hs.position, hs.starts, List.forall_mem_cons.2 ⟨h hs, hs.frames⟩⟩
  | take | lose => exact ⟨hs.position, hs.starts, fun f hf => hs.frames f (List.mem_of_mem_tail hf)⟩

/-- What acts do to sections, fatal errors and the trace: they note what is neutral, report while
there is no fatal error, raise the first one, and put up, take down or lose frames. -/
theorem invariant
    {I : Lookahead → List Modifiers → Option Aborted → List Event → Prop}
    (hnote : ∀ c ms a e es, e.isNeutral = true → I c ms a es → I c ms a (e :: es))
    (hreport : ∀ c ms es position error advance inner, I c ms none es →
      I c ms none (.errorReported position error advance inner :: es))
    (habort : ∀ c ms es (a : Aborted),
      (∀ offset, a.error = .misplacedLookahead offset → ∃ m, c.admits m = false) →
      I c ms none es → I c ms (some a) (.aborted a.error :: es))
    (hput : ∀ c ms a es m, I c ms a es → I (c.enter m) (m :: ms) a es)
    (htake : ∀ c ms a es m, I c (m :: ms) a es → I (c.leave m) ms a es)
    (hlose : paired = false → ∀ c ms a es, I c ms a es → I c ms.tail a es)
    (h : s.Acts g paired s') (hs : I s.lookahead s.modifiers s.aborted s.trace) :
    I s'.lookahead s'.modifiers s'.aborted s'.trace := by
  induction h with
  | @still s s' h =>
    obtain ⟨later, ht, hlater⟩ := h.trace
    rw [h.lookahead, h.modifiers, h.aborted, ht]
    clear ht
    induction later with
    | nil => exact hs
    | cons e later ih =>
      obtain ⟨he, hlater⟩ := List.forall_mem_cons.1 hlater
      exact hnote _ _ _ _ _ he (ih hlater)
  | trans _ _ ih ih' => exact ih' (ih hs)
  | openMarker | drop => exact hs
  | commit m kind error s =>
    unfold Session.commit
    split
    · exact hs
    · exact hs
    · exact hnote _ _ _ _ _ rfl hs
  | wrap m s =>
    unfold Session.wrap
    dsimp only
    split
    · exact hs
    · exact hnote _ _ _ _ _ rfl hs
  | rollback m s =>
    unfold Session.rollback
    split <;> exact hs
  | reported advance inner s h =>
    have hnone : s.aborted = none := Option.not_isSome_iff_eq_none.1 (Bool.eq_false_iff.1 h)
    show I s.lookahead s.modifiers s.aborted (.errorReported s.position
      (s.errorHere g (s.expectedHere g)) advance inner :: s.trace)
    rw [hnone] at hs ⊢
    exact hreport _ _ _ _ _ _ _ hs
  | abort error s h =>
    unfold Session.abort
    split
    · exact hs
    · next hnot =>
      have hnone : s.aborted = none := Option.not_isSome_iff_eq_none.1 hnot
      rw [hnone] at hs
      exact habort _ _ _ _ h hs
  | put frame s => exact hput _ _ _ _ frame.modifiers hs
  | @take frame frames s h =>
    have hmodifiers : s.modifiers = frame.modifiers :: frames.map (·.modifiers) := by
      rw [modifiers, h]
      rfl
    have htail : (s.takeFrame frame).modifiers = frames.map (·.modifiers) := by
      rw [modifiers, takeFrame, h]
      rfl
    rw [hmodifiers] at hs
    rw [htail]
    exact htake _ _ _ _ _ hs
  | lose s h =>
    have htail : ({ s with frames := s.frames.tail } : Session).modifiers = s.modifiers.tail :=
      List.map_tail
    rw [htail]
    exact hlose h _ _ _ _ hs

/-! ## Markers -/

theorem seek (g : Setup) (s : Session) : s.Acts g paired (s.toSignificant g) :=
  .still (.toSignificant s)

theorem commitAs (m : Marker) (kind : Kind) (s : Session) :
    s.Acts g paired (s.commitAs m kind) :=
  .commit m kind none s fun _ he => nomatch he

theorem commitError {error : SyntaxError} (m : Marker) (h : s.HasSeen error) :
    s.Acts g paired (s.commit m .error (some error)) :=
  .commit m .error (some error) s fun _ he => ⟨rfl, Option.some.inj he ▸ h⟩

theorem widen (m : Marker) (s : Session) : s.Acts g paired (s.widen m) := by
  unfold Session.widen
  split
  · exact refl s
  · dsimp only
    have hwrap : s.Acts g paired (s.wrap m).2 := .wrap m s
    split
    · next error herror => exact (hwrap.trans (commitError _ (.inl ⟨m, herror⟩))).trans (.drop m _)
    · exact (hwrap.trans (commitAs ..)).trans (.drop m _)

theorem widenOver (node : Option Marker) (site : Nat) (s : Session) :
    s.Acts g paired (s.widenOver node site) := by
  unfold Session.widenOver
  split
  · split
    · exact widen ..
    · exact refl s
  · exact refl s

theorem dropAny (m? : Option Marker) (s : Session) : s.Acts g paired (s.dropAny m?) := by
  cases m? with
  | none => exact refl s
  | some m => exact .drop m s

/-! ## Reports -/

theorem insertError {error : SyntaxError} (herror : error.code.isSyntaxError = true)
    {position : Nat} {advance inner : Bool}
    (hs : .errorReported position error advance inner ∈ s.trace) :
    s.Acts g paired (s.insertError g error) := by
  have hopen : s.Acts g paired (s.openMarker g).2 := .openMarker s
  exact hopen.trans (commitError _ (hopen.hasSeen herror hs))

theorem report (g : Setup) (site : Nat) (inner force : Bool) (s : Session) :
    s.Acts g paired (s.report g site inner force).2 := by
  unfold Session.report
  dsimp only
  split
  · exact refl s
  · next haborted =>
    split
    · exact seek g s
    · generalize hnoted : (s.toSignificant g).note _ = noted
      have hnote : s.Acts g paired noted := by
        rw [← hnoted]
        exact (seek g s).trans (.reported _ _ _ (Bool.eq_false_iff.2 haborted)
          (significant_significant g s.position))
      have hinsert : noted.Acts g paired (noted.insertError g
          ((s.toSignificant g).errorHere g ((s.toSignificant g).expectedHere g))) :=
        insertError (LeadsTo.errorHere_isSyntaxError ..) (by
          rw [← hnoted]
          exact List.mem_cons_self)
      split
      · exact hnote.trans (hinsert.trans ((widenOver ..).trans (seek ..)))
      · exact hnote.trans (hinsert.trans (seek ..))

/-- A frame may remember anything but where it began and how far it came. -/
theorem modifyFrame {f : Frame → Frame} (hmodifiers : ∀ x, (f x).modifiers = x.modifiers)
    (hf : ∀ x, x.InBounds g → (f x).InBounds g) (s : Session) :
    s.Acts g paired (s.modifyFrame f) :=
  .still (.modifyFrame s hmodifiers fun _ => hf)

theorem reportInFrame (g : Setup) (site : Nat) (inner : Bool) (s : Session) :
    s.Acts g paired (s.reportInFrame g site inner) := by
  have h : s.Acts g paired (s.report g site inner true).2 := report ..
  have hmark (p : Nat) (t : Session) :
      t.Acts g paired (t.modifyFrame fun f => { f with errorAt := some p }) := by
    refine modifyFrame ?_ ?_ t
    · exact fun _ => rfl
    · exact fun _ hx => { hx with }
  unfold Session.reportInFrame
  split
  · next heq =>
    rw [heq] at h
    exact h.trans (hmark _ _)
  · next heq =>
    rw [heq] at h
    exact h

theorem reportHere (g : Setup) (s : Session) : s.Acts g paired (s.reportHere g) := by
  unfold Session.reportHere
  dsimp only
  split
  · exact (seek g s).trans (.still (.note _ rfl))
  · split
    · exact (seek g s).trans (reportInFrame ..)
    · exact seek g s

theorem reportAgain (g : Setup) (s : Session) : s.Acts g paired (s.reportAgain g) := by
  unfold Session.reportAgain
  split
  · exact refl s
  · split
    · exact refl s
    · split
      · exact (seek g s).trans (reportInFrame ..)
      · exact refl s

theorem reportFor (g : Setup) {frame : Frame} (hframe : frame.InBounds g) (inner force : Bool)
    (s : Session) : s.Acts g paired (s.reportFor g frame inner force).2.2 ∧
      (s.reportFor g frame inner force).2.1.InBounds g := by
  have h : s.Acts g paired (s.report g frame.position inner force).2 := report ..
  unfold Session.reportFor
  split
  · next heq =>
    rw [heq] at h
    exact ⟨h, { hframe with }⟩
  · next heq =>
    rw [heq] at h
    exact ⟨h, hframe⟩

/-! ## Chunks -/

theorem guardProgress (rule : String) (position : Nat) (s : Session) :
    s.Acts g paired (s.guardProgress g rule position).2 := by
  unfold Session.guardProgress
  split
  · exact refl s
  · exact (seek g s).trans (.abort _ _ fun _ he => nomatch he)

theorem guardLevel (level : Nat) (rule : String) (s : Session) :
    s.Acts g paired (s.guardLevel g level rule).2 := by
  unfold Session.guardLevel
  split
  · exact refl s
  · dsimp only
    split
    · exact (seek g s).trans (.abort _ _ fun _ he => nomatch he)
    · exact refl s

/-- Grouping is made of acts. -/
theorem moves (g : Setup) (s₀ : Session) :
    MarkerMoves g (s₀.Acts g paired) (fun _ _ => True) fun _ => True where
  toSignificant {s} hs := ⟨hs.trans (seek g s), fun _ _ => trivial⟩
  guardProgress {s} rule position hs := ⟨hs.trans (guardProgress rule position s), fun _ _ => trivial⟩
  note {s} _ he hs := ⟨hs.trans (.still (.note s he)), fun _ _ => trivial⟩
  openMarker {s} hs := ⟨⟨hs.trans (.openMarker s), fun _ _ => trivial⟩, trivial⟩
  commitAs {s m} kind hs _ _ := ⟨hs.trans (commitAs m kind s), fun _ _ => trivial⟩
  drop {s m} hs _ := ⟨hs.trans (.drop m s), fun _ _ => trivial⟩
  wrap {s m} hs _ := ⟨⟨hs.trans (.wrap m s), fun _ _ => trivial⟩, trivial⟩

theorem foldFull (g : Setup) (kind : Kind) (c : Grouping) (s : Session) :
    s.Acts g paired (s.foldFull g kind c).2 :=
  ((moves g s).foldFull kind (.refl s) c.all_true trivial).1

theorem foldIfFull (g : Setup) (kind : Kind) (c : Grouping) (s : Session) :
    s.Acts g paired (s.foldIfFull g kind c).2 :=
  ((moves g s).foldIfFull kind (.refl s) c.all_true trivial).1

theorem openCurrent (g : Setup) (c : Grouping) (s : Session) : s.Acts g paired (s.openCurrent g c).2 :=
  ((moves g s).openCurrent (.refl s) c.all_true).1

theorem closeCurrent (kind : Kind) (c : Grouping) (s : Session) : s.Acts g paired (s.closeCurrent kind c).2 :=
  ((moves g s).closeCurrent kind (.refl s) c.all_true trivial).1

theorem firstRegions (g : Setup) (pair? : Option Delimiters) (s : Session) :
    s.Acts g paired (s.firstRegions g pair?).2 :=
  ((moves g s).firstRegions pair? (.refl s)).1

theorem dropOpen (c : Grouping) (s : Session) : s.Acts g paired (s.dropOpen c) :=
  (moves g s).dropOpen (.refl s) c.all_true

section
variable {s₀ : Session} {run run' : Runner} (hs₀ : s₀.InBounds g) (hrun : run.Acts g paired)
  (hsame : ∀ rule level t, s₀.Acts g paired t → run' rule level t = run rule level t)
  {level : Nat} {kind : Kind} {item eatMore : RuleRef}
include hs₀ hrun hsame

/-- A rule is run where acts lead to. -/
theorem answer (rule : RuleRef) (level : Nat) (hs : s₀.Acts g paired s) :
    Concur (fun y => s₀.Acts g paired y.2 ∧ s.Acts g paired y.2) (run rule level s)
      (run' rule level s) :=
  ⟨hsame rule level s hs, fun _ hy =>
    have h := hrun _ _ _ _ _ (hs.inBounds hs₀) hy
    ⟨hs.trans h, h⟩⟩

theorem groupRun {rounds : Nat} {minds : Bool} (hs : s₀.Acts g paired s) :
    Concur (fun y => s₀.Acts g paired y.2) (s.groupRun g run rounds level kind minds item eatMore)
      (s.groupRun g run' rounds level kind minds item eatMore) := by
  refine (moves g s₀).concur_groupRun (fun rule _ level t ht => ?_) hs trivial
  exact (answer hs₀ hrun hsame rule level ht).imp fun _ hy => ⟨hy.1, fun _ _ => trivial⟩

end

end Session.Acts

end Descent
