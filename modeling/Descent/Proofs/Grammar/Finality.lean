import Descent.Proofs.Grammar.Calls
import Descent.Proofs.Tree.Errors

/-!
# Fatal errors are final

After a fatal error a session is over whatever is called: the error stays, tests fail where they are,
guarded rules are not run, and sections are left without recovery (`Session.Ended`). The errors of the
tree are those that were reported before (`Session.ended_of_passes`).
-/

namespace Descent

namespace Primitive

/-- Whether a step tests for tokens, for at least one if it tests for a sequence. -/
def testsTokens : Primitive → Bool
  | consume _ | take _ | takeOffered _ | consumeLiteral _ | nextLiteral _ | next _ | peek _
  | nextAny .. | peekAny _ => true
  | sequence _ kinds | trySequence _ kinds | trySequenceSilent _ kinds => !kinds.isEmpty
  | _ => false

end Primitive

/-- The error was reported among the events. -/
def ReportedIn (es : List Event) (error : SyntaxError) : Prop :=
  ∃ position advance inner, .errorReported position error advance inner ∈ es

/-- What was reported up to now was reported before the fatal error. -/
theorem ReportedIn.before {later earlier : List Event} {fatal : Fatal} {error : SyntaxError}
    (h : ReportedIn (later ++ .aborted fatal :: earlier) error)
    (hlater : ∀ e ∈ later, e.isNeutral = true) : ReportedIn earlier error := by
  obtain ⟨position, advance, inner, hmem⟩ := h
  refine ⟨position, advance, inner, ?_⟩
  rcases List.mem_append.1 hmem with hmem | hmem
  · cases hlater _ hmem
  · rcases List.mem_cons.1 hmem with heq | hmem
    · cases heq
    · exact hmem

namespace Session

variable {g : Setup} {paired : Bool} {s s' t u : Session} {a : Aborted}

/-! ## Errors and their reports -/

/-- The errors that the markers of a log have were reported among the events. -/
def Backed (es : List Event) (log : MarkerLog) : Prop :=
  log.Every fun _ e => ∀ error, e = some error → ReportedIn es error

theorem Backed.mono {es es' : List Event} {log : MarkerLog} (h : Backed es log) (hes : es <:+ es') :
    Backed es' log := by
  refine MarkerLog.Every.mono h fun _ e he error herror => ?_
  obtain ⟨position, advance, inner, hmem⟩ := he error herror
  exact ⟨position, advance, inner, hes.subset hmem⟩

theorem HasSeen.reportedIn (hs : Backed s.trace s.log) {error : SyntaxError}
    (h : s.HasSeen error) : ReportedIn s.trace error := by
  rcases h with ⟨m, hm⟩ | ⟨-, h⟩
  · obtain ⟨-, herror⟩ := hs.error hm
    exact herror error rfl
  · exact h

/-- Errors come in after their reports, which are kept. -/
theorem Acts.backed (h : s.Acts g paired s') (hs : Backed s.trace s.log) :
    Backed s'.trace s'.log := by
  have hnone (es : List Event) : ∀ error, (none : Option SyntaxError) = some error →
      ReportedIn es error := nofun
  induction h with
  | @still s s' h =>
    have hact : s.Acts g paired s' := .still h
    rw [h.log]
    exact hs.mono hact.trace_suffix
  | trans _ _ ih ih' => exact ih' (ih hs)
  | openMarker s => exact MarkerLog.Every.openAt hs (hnone _)
  | commit m kind error s h =>
    have hact : s.Acts g paired (s.commit m kind error) := .commit m kind error s h
    rw [log_commit]
    refine MarkerLog.Every.commit (hs.mono hact.trace_suffix) (fun _ _ _ e he => ?_) m kind _
    obtain ⟨position, advance, inner, hmem⟩ := (h e he).2.reportedIn hs
    exact ⟨position, advance, inner, hact.trace_suffix.subset hmem⟩
  | drop m s => exact MarkerLog.Every.drop hs m
  | wrap m s =>
    have hact : s.Acts g paired (s.wrap m).2 := .wrap m s
    rw [log_wrap]
    exact MarkerLog.Every.wrap (hs.mono hact.trace_suffix) (hnone _)
  | rollback m s =>
    unfold Session.rollback
    split
    · next hr => exact (MarkerLog.Every.rollback hs hr).1
    · exact hs
  | reported => exact hs.mono (List.suffix_cons _ _)
  | abort error s h =>
    have hact : s.Acts g paired (s.abort g error) := .abort error s h
    have hlog : (s.abort g error).log = s.log := (Calm.abort g s error).log
    rw [hlog]
    exact hs.mono hact.trace_suffix
  | put | take | lose => exact hs

/-! ## Before and after a fatal error -/

/-- No fatal error has been raised if none is stored. Otherwise the stored one was raised first, and
since then no error has been raised or reported. -/
def Closes : Option Aborted → List Event → Prop
  | none, es => ∀ error, .aborted error ∉ es
  | some a, es => ∃ later earlier, es = later ++ .aborted a.error :: earlier ∧
      (∀ e ∈ later, e.isNeutral = true) ∧ ∀ error, .aborted error ∉ earlier

theorem Acts.closes (h : s.Acts g paired s') (hs : Closes s.aborted s.trace) :
    Closes s'.aborted s'.trace := by
  refine h.invariant (I := fun _ _ a es => Closes a es) ?_ ?_ ?_ ?_ ?_ ?_ hs
  · intro c ms a e es he h
    cases a with
    | none =>
      intro error hmem
      rcases List.mem_cons.1 hmem with rfl | hmem
      · cases he
      · exact h error hmem
    | some a =>
      obtain ⟨later, earlier, rfl, hlater, hearlier⟩ := h
      exact ⟨e :: later, earlier, rfl, List.forall_mem_cons.2 ⟨he, hlater⟩, hearlier⟩
  · intro c ms es position error advance inner h error' hmem
    rcases List.mem_cons.1 hmem with heq | hmem
    · cases heq
    · exact h error' hmem
  · exact fun c ms es a _ h => ⟨[], es, rfl, by simp, h⟩
  · exact fun _ _ _ _ _ h => h
  · exact fun _ _ _ _ _ h => h
  · exact fun _ _ _ _ _ h => h

/-- The first fatal error stays. -/
theorem Acts.aborted (h : s.Acts g paired s') (hs : s.aborted = some a) : s'.aborted = some a := by
  refine h.invariant (I := fun _ _ b _ => b = some a) ?_ ?_ ?_ ?_ ?_ ?_ hs
  · exact fun _ _ _ _ _ _ h => h
  · exact fun _ _ _ _ _ _ _ h => h
  · exact fun _ _ _ _ _ h => nomatch h
  · exact fun _ _ _ _ _ h => h
  · exact fun _ _ _ _ _ h => h
  · exact fun _ _ _ _ _ h => h

/-! ## Tests after a fatal error -/

/-- A session that is over is where it was, up to trivia. -/
structure Lingers (g : Setup) (s s' : Session) : Prop where
  isAborted : s'.isAborted = true
  log : s'.log = s.log
  position : g.significant s'.position = g.significant s.position

namespace Lingers

variable (hs : s.isAborted = true)
include hs

theorem refl : Lingers g s s := ⟨hs, rfl, rfl⟩

omit hs in
theorem trans (h : Lingers g s t) (h' : Lingers g t u) : Lingers g s u :=
  ⟨h'.isAborted, h'.log.trans h.log, h'.position.trans h.position⟩

theorem toSignificant : Lingers g s (s.toSignificant g) :=
  ⟨hs, rfl, significant_significant g s.position⟩

theorem offerIfPositive (text : String) : Lingers g s (s.offerIfPositive g text) := by
  unfold Session.offerIfPositive offer
  split
  · split
    · exact refl hs
    · exact ⟨hs, rfl, significant_significant g s.position⟩
  · exact refl hs

theorem report_eq (site : Nat) (inner force : Bool) : s.report g site inner force = (none, s) := by
  unfold report
  rw [if_pos hs]

theorem reportHere : Lingers g s (s.reportHere g) := by
  have hseek : Lingers g s (s.toSignificant g) := toSignificant hs
  unfold Session.reportHere reportInFrame
  dsimp only
  split
  · exact ⟨hs, rfl, hseek.position⟩
  · split
    · rw [report_eq hseek.isAborted]
      exact hseek
    · exact hseek

end Lingers

section
variable (hs : s.isAborted = true)
include hs

theorem peekAny_of_isAborted (kinds : List Kind) : s.peekAny g kinds = (false, s) := by
  unfold peekAny
  rw [if_pos hs]

theorem take_of_isAborted (kind : Kind) : s.take g kind = (false, s) := by
  unfold take peek
  rw [peekAny_of_isAborted hs]

theorem consume_of_isAborted (kind : Kind) : s.consume g kind = (false, s) := by
  unfold consume
  rw [if_pos hs]

theorem consumeOne_of_isAborted (silent : Bool) (kind : Kind) :
    (if silent then s.take g kind else s.consume g kind) = (false, s) := by
  rw [take_of_isAborted hs, consume_of_isAborted hs, ite_self]

theorem consumeKinds_of_isAborted (silent : Bool) (pin : Pin) {kinds : List Kind}
    (hkinds : kinds ≠ []) :
    ∃ u, s.consumeKinds g silent pin kinds = (false, u) ∧ Lingers g s u := by
  obtain ⟨kind, kinds, rfl⟩ := List.exists_cons_of_ne_nil hkinds
  let text := " ".intercalate ((kind :: kinds).map g.language.nameOf)
  have hoffer : Lingers g s { s.offerIfPositive g text with completion := none } :=
    { Lingers.offerIfPositive hs text with }
  unfold consumeKinds
  dsimp only
  generalize { s.offerIfPositive g _ with completion := none } = t at hoffer
  have ht := hoffer.isAborted
  simp only [consumeRest, consumeOne_of_isAborted ht, Nat.lt_irrefl, decide_false,
    Bool.false_and, Bool.false_eq_true, if_false, Bool.or_false, if_true]
  generalize hu : (if !false && _ then t.reportHere g else t) = u
  have hlingers : Lingers g t u := by
    rw [← hu]
    split
    · exact .reportHere ht
    · exact .refl ht
  rw [Bool.and_false, consumeRest_failed]
  exact ⟨_, rfl, { hoffer.trans hlingers with }⟩

/-- A sequence that is tried is given back, and nothing was consumed. -/
theorem tryKinds_of_isAborted (silent : Bool) (pin : Pin) {kinds : List Kind}
    (hkinds : kinds ≠ []) : ∃ u, s.tryKinds g silent pin kinds = (false, u) ∧
      g.significant u.position = g.significant s.position := by
  have hopen : (s.openMarker g).2.isAborted = true := hs
  obtain ⟨u, hu, hlingers⟩ := consumeKinds_of_isAborted (g := g) hopen silent pin hkinds
  have hback : u.log.rollback (s.openMarker g).1 =
      some (g.significant s.position, MarkerLog.unwind s.log.fresh u.log.markers u.log.entries) := by
    rw [hlingers.log]
    simp [openMarker, toSignificant, MarkerLog.openAt, MarkerLog.rollback, MarkerLog.info?,
      MarkerLog.isStarted, MarkerLog.fresh]
  unfold tryKinds
  simp only [hu, rollback, hback]
  exact ⟨_, rfl, significant_significant g s.position⟩

end

/-- All tests for tokens fail after a fatal error, and consume nothing. -/
theorem run_of_isAborted (hs : s.isAborted = true) {p : Primitive} (hp : p.testsTokens = true)
    (level : Nat) (vars : Vars) : (p.run g level vars s).answer = false ∧
      g.significant (p.run g level vars s).session.position = g.significant s.position := by
  have htest {x : Bool × Session} (hx : ∃ u, x = (false, u) ∧
      g.significant u.position = g.significant s.position) :
      (Primitive.Outcome.test vars x).answer = false ∧
        g.significant (Primitive.Outcome.test vars x).session.position =
          g.significant s.position := by
    obtain ⟨u, rfl, hu⟩ := hx
    exact ⟨rfl, hu⟩
  have hne {kinds : List Kind} (h : (!kinds.isEmpty) = true) : kinds ≠ [] := by
    rintro rfl
    cases h
  cases p with
  | consume kind => exact htest ⟨s, consume_of_isAborted hs kind, rfl⟩
  | take kind => exact htest ⟨s, take_of_isAborted hs kind, rfl⟩
  | takeOffered kind =>
    have hoffer : Lingers g s _ := .offerIfPositive hs (g.language.nameOf kind)
    exact htest ⟨_, take_of_isAborted hoffer.isAborted kind, hoffer.position⟩
  | consumeLiteral literal =>
    refine htest ⟨s, ?_, rfl⟩
    unfold consumeLiteral
    rw [if_pos hs]
  | nextLiteral literal =>
    refine htest ⟨s, ?_, rfl⟩
    unfold nextLiteral
    rw [if_pos hs]
  | next kind =>
    refine htest ⟨s, ?_, rfl⟩
    unfold next
    rw [if_pos hs]
  | peek kind => exact htest ⟨s, peekAny_of_isAborted hs [kind], rfl⟩
  | nextAny name kinds =>
    refine htest ⟨s, ?_, rfl⟩
    unfold nextAny
    rw [if_pos hs]
  | peekAny kinds => exact htest ⟨s, peekAny_of_isAborted hs kinds, rfl⟩
  | sequence pin kinds =>
    obtain ⟨u, hu, hlingers⟩ := consumeKinds_of_isAborted (g := g) hs false pin (hne hp)
    exact htest ⟨u, hu, hlingers.position⟩
  | trySequence pin kinds => exact htest (tryKinds_of_isAborted hs false pin (hne hp))
  | trySequenceSilent pin kinds => exact htest (tryKinds_of_isAborted hs true pin (hne hp))
  | _ => cases hp

/-! ## Sections after a fatal error -/

/-- A guarded rule fails without being run. -/
theorem eval_guarded_of_isAborted (hs : s.isAborted = true) (fuel level : Nat) (vars : Vars)
    (rule : String) (e : Expr) : Grammar.eval g (fuel + 1) level vars (.guarded rule e) s =
      some (false, vars, s.recordCall (.guarded rule) (.bool false)) := by
  simp only [Grammar.eval, guardLevel, if_pos hs]

/-- A section is left as if there were no condition under which it eats more. -/
theorem leave_of_isAborted (hs : s.isAborted = true) (run run' : Runner) (hook : HookRunner)
    (rounds level : Nat) (m : Marker) (kind : Option Kind) (result pinned : Bool)
    (eatMore : Option RuleRef) : s.leave g run hook rounds level m kind result pinned eatMore =
      s.leave g run' hook rounds level m kind result pinned none := by
  cases hframes : s.frames with
  | nil => simp only [leave, hframes]
  | cons frame frames =>
    by_cases hlevel : frame.level = level
    · obtain ⟨a, ha⟩ := Option.isSome_iff_exists.1 hs
      have hshape : s.Acts g true (s.shape g frame frames m kind result pinned).2 :=
        .shape hframes kind result pinned
      rw [leave_eq hframes hlevel, leave_eq hframes hlevel]
      dsimp only
      generalize s.shape g frame frames m kind result pinned = x at hshape
      have hx : x.2.Acts g true (x.2.attemptsByName g x.1 (frame.kind <|> kind)
          (result || pinned)).2 := .still (.attemptsByName ..)
      have haborted : (x.2.attemptsByName g x.1 (frame.kind <|> kind)
          (result || pinned)).2.isAborted = true := by
        rw [isAborted, (hshape.trans hx).aborted ha]
        rfl
      rw [settleErrors_eq, settleErrors_eq]
      simp only [haborted, Bool.or_true, if_true]
      rfl
    · simp only [leave, hframes, if_neg hlevel]

/-- What holds of a session that a fatal error has ended. -/
structure Ended (g : Setup) (a : Aborted) (s : Session) : Prop where
  stored : s.aborted = some a
  tests : ∀ (p : Primitive) level vars, p.testsTokens = true →
    (p.run g level vars s).answer = false ∧
      g.significant (p.run g level vars s).session.position = g.significant s.position
  /-- The body of a guarded rule is not run. -/
  guarded : ∀ fuel level vars rule e, Grammar.eval g (fuel + 1) level vars (.guarded rule e) s =
    some (false, vars, s.recordCall (.guarded rule) (.bool false))
  /-- Sections are left without recovery, and without asking for anything else. -/
  leaves : ∀ (run run' : Runner) hook rounds level m kind result pinned eatMore,
    s.leave g run hook rounds level m kind result pinned eatMore =
      s.leave g run' hook rounds level m kind result pinned none
  /-- The stored error was raised first, nothing was reported since, and every error in the tree was
  reported before. -/
  reports : ∃ later earlier, s.trace = later ++ .aborted a.error :: earlier ∧
    (∀ e ∈ later, e.isNeutral = true) ∧ (∀ error, .aborted error ∉ earlier) ∧
    ∀ root, ∀ error ∈ (s.log.toTree g.source g.language root).errors, ReportedIn earlier error

/-- Once a fatal error is stored, the session is over for good, whatever is called. -/
theorem ended_of_passes {limits : Limits} {caret : Option Nat}
    (ht : (start limits caret).Passes g false t) (ha : t.aborted = some a)
    (hu : t.Passes g false u) : u.Ended g a := by
  have hstart := inBounds_start g limits caret
  have hbefore := ht.acts hstart
  have hafter := hu.acts (hbefore.inBounds hstart)
  have hacts := hbefore.trans hafter
  have hstored := hafter.aborted ha
  have hover : u.isAborted = true := by rw [isAborted, hstored]; rfl
  refine ⟨hstored, fun p level vars hp => run_of_isAborted hover hp level vars,
    eval_guarded_of_isAborted hover, leave_of_isAborted hover, ?_⟩
  have hcloses : Closes u.aborted u.trace := hacts.closes fun _ => List.not_mem_nil
  rw [hstored] at hcloses
  obtain ⟨later, earlier, htrace, hlater, hearlier⟩ := hcloses
  refine ⟨later, earlier, htrace, hlater, hearlier, fun root error herror => ?_⟩
  have hbacked : Backed u.trace u.log := hacts.backed .empty
  rw [MarkerLog.errors_toTree] at herror
  obtain ⟨m, -, hm⟩ := List.mem_filterMap.1 herror
  obtain ⟨-, hreported⟩ := hbacked.error hm
  have hin : ReportedIn (later ++ .aborted a.error :: earlier) error := htrace ▸ hreported error rfl
  exact hin.before hlater

/-- A section whose recovery goes past the recursion ceiling, after an error was reported. -/
def tooDeepRecovery : Setup where
  source := { text := "ab", tokens := [⟨⟨3⟩, ⟨0, 1⟩⟩, ⟨⟨3⟩, ⟨1, 2⟩⟩] }
  language := (LanguageTable.toBareLanguage {})
  limits := Limits.withRecursionCeiling default 0
  grammar := [("more", .guarded "more" (.const true))]

/-- Enters a section, reports that a token is missing, consumes the one that is there, and leaves the
section with a condition under which it eats more. -/
def reportAndLeave : Expr :=
  .seq (.prim (.enter "section" {} (some ⟨21⟩) none 0)) <|
    .seq (.reporting (.prim (.consume ⟨6⟩))) <|
    .seq (.prim (.consume ⟨3⟩)) <|
    .leave "section" none (.const true) (.const false) (some (.named "more")) 0

theorem ended_of_passes_recovering : ∃ (t u : Session) (a : Aborted),
    (start {} none).Passes tooDeepRecovery false t ∧ t.aborted = some a ∧
      t.Passes tooDeepRecovery false u ∧ a.error = .tooDeep 0 "more" 1 ∧
      (u.log.toTree tooDeepRecovery.source tooDeepRecovery.language ⟨20⟩).errors.length = 1 ∧
      u.Ended tooDeepRecovery a := by
  let x := (Grammar.eval tooDeepRecovery 5 0 {} reportAndLeave (start {} none)).getD
    (true, {}, start {} none)
  have heval : Grammar.eval tooDeepRecovery 5 0 {} reportAndLeave (start {} none) =
      some (x.1, x.2.1, x.2.2) := by decide +kernel
  have hfatal : x.2.2.aborted.map (·.error) = some (.tooDeep 0 "more" 1) := by decide +kernel
  obtain ⟨a, ha, herror⟩ := Option.map_eq_some_iff.1 hfatal
  let next : Primitive := .enter "next" { collapse := true } none none 0
  let u := (next.run tooDeepRecovery 0 {} x.2.2).session
  have ht : (start {} none).Passes tooDeepRecovery false x.2.2 :=
    .calls (Grammar.calls_eval 5 heval)
  have hu : x.2.2.Passes tooDeepRecovery false u := .calls (.step next 0 {} x.2.2)
  exact ⟨x.2.2, u, a, ht, ha, hu, herror, by decide +kernel, ended_of_passes ht ha hu⟩

end Session

end Descent
