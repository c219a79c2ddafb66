import Descent.Proofs.Session.QuietRuns

/-!
# Recovery is quiet

A recovery makes the session quiet, and then asks the advancer and the condition under which more is eaten. If
what they do are quiet runs, then nothing is recorded meanwhile and none of them leaves an error behind. So when
a section has been left, there is at most one more error than there was, namely the one that the recovery has
reported itself (`Session.recovers_quietly`).

This does not hold of rules that report for a section outside: the report does not ask whether the session is
quiet.
-/

namespace Descent

open Session (Calm Unrecorded Hushed Silent)

namespace Session

variable {g : Setup} {r s s₀ s' t t' u : Session} {run : Runner} {rounds level lastError initial : Nat}
  {frame frame' : Frame} {frames : List Frame} {kind : Option Kind} {result pinned b : Bool}
  {eatMore : RuleRef}

/-- The session is quiet since a recovery began in `r`, and nothing has been recorded since. -/
structure Muted (r t : Session) : Prop where
  unrecorded : { r with quiet := true }.Unrecorded t
  sound : t.log.Sound

/-- Nor has an error come in. -/
structure MutedSilence (r t : Session) : Prop extends Muted r t where
  errors : r.log.ErrorsFrom t.log

/-- One error may have come in. -/
structure MutedReport (r t : Session) : Prop extends Muted r t where
  errors : r.log.OneMoreError t.log

/-- The rules that a recovery asks make quiet runs only, once it has begun in `r`. -/
def AsksQuietly (g : Setup) (run : Runner) (eatMore : RuleRef) (r : Session) : Prop :=
  ∀ rule, rule = g.advancer ∨ rule = eatMore → ∀ level t b t', r.Muted t →
    run rule level t = some (b, t') → QuietRun g false t t'

theorem Muted.hushed (h : r.Muted t) (ht : t.Hushed t') (hsound : t'.log.Sound) : r.Muted t' :=
  ⟨h.unrecorded.trans ht.toUnrecorded, hsound⟩

theorem MutedSilence.hushed (h : r.MutedSilence t) (ht : t.Hushed t') (hsound : t'.log.Sound) :
    r.MutedSilence t' :=
  ⟨h.toMuted.hushed ht hsound, h.errors.trans ht.errors⟩

theorem MutedSilence.calm (h : r.MutedSilence t) (ht : Calm t t') (hu : t.Unrecorded t') :
    r.MutedSilence t' :=
  h.hushed (.of_calm ht hu) (ht.log ▸ h.sound)

theorem MutedSilence.mutedReport (h : r.MutedSilence t) : r.MutedReport t := ⟨h.toMuted, h.errors.oneMore⟩

theorem MutedReport.hushed (h : r.MutedReport t) (ht : t.Hushed t') (hsound : t'.log.Sound) :
    r.MutedReport t' :=
  ⟨h.toMuted.hushed ht hsound, h.errors.before ht.errors⟩

/-- What a rule does that is asked meanwhile records nothing and brings in no error. -/
theorem AsksQuietly.hushed (hquiet : r.AsksQuietly g run eatMore) (hopen : r.HooksOpen) {rule : RuleRef}
    (hrule : rule = g.advancer ∨ rule = eatMore) (ht : r.Muted t)
    (hr : run rule level t = some (b, t')) : t.Hushed t' ∧ t'.log.Sound := by
  have hrun := hquiet rule hrule level t b t' ht hr
  obtain ⟨hhushed, hwork⟩ :=
    hrun.hushed ht.unrecorded.quiet (ht.unrecorded.hooksOpen hopen) ht.sound fun h => nomatch h
  exact ⟨hhushed, (hwork.continues ht.sound).sound⟩

/-! ## Reports -/

theorem Reports.oneMoreError {mark mark' : Option Nat} (h : Reports mark s s' mark') :
    s.log.OneMoreError s'.log := by
  cases h with
  | silent h => exact h.errors.oneMore
  | reported _ h =>
    obtain ⟨p, error, q, -, herrors⟩ := h.inserted
    exact (MarkerLog.OneMoreError.after (MarkerLog.errorsFrom_openAt _ p)
      (MarkerLog.oneMoreError_commit ..)).before herrors

theorem Unrecorded.report (g : Setup) (site : Nat) (inner force : Bool) (s : Session) :
    s.Unrecorded (s.report g site inner force).2 := by
  have hinsert (error : SyntaxError) (u : Session) : u.Unrecorded (u.insertError g error) :=
    (openMarker u g).trans (commit ..)
  unfold Session.report
  split
  · exact refl s
  · dsimp only
    split
    · exact toSignificant s g
    · refine .trans ?_ (toSignificant _ g)
      split
      · exact ((toSignificant s g).trans (note _ _)).trans ((hinsert _ _).trans (widenOver ..))
      · exact ((toSignificant s g).trans (note _ _)).trans (hinsert _ _)

theorem mutedReport_reportFor (ht : r.MutedSilence t) (inner force : Bool) :
    r.MutedReport (t.reportFor g frame inner force).2.2 := by
  have hsound := (LeadsTo.reportFor g frame inner force t).sound ht.sound
  have hreports : Reports frame.errorAt t _ _ := reports_reportFor (g := g) inner force t
  rw [session_reportFor] at hsound hreports ⊢
  exact ⟨⟨ht.unrecorded.trans (.report ..), hsound⟩, .after ht.errors hreports.oneMoreError⟩

section
variable (hopen : r.HooksOpen) (hquiet : r.AsksQuietly g run eatMore)
include hopen hquiet

/-- An error takes in what the advancer steps over, which leaves no other one behind. -/
theorem mutedReport_reportSwallowingFor (hs : r.MutedSilence s)
    (h : s.reportSwallowingFor g run frame = some (b, frame', t)) : r.MutedReport t := by
  obtain ⟨⟨p?, u⟩, hu, h⟩ := Option.bind_eq_some_iff.1 h
  suffices hreport : r.MutedReport u by
    cases p? <;> cases h <;> exact hreport
  unfold reportSwallowing at hu
  split at hu
  · cases hu
    exact hs.mutedReport
  · obtain ⟨⟨c, v⟩, hv, hu⟩ := Option.bind_eq_some_iff.1 hu
    generalize herror : (s.toSignificant g).errorHere g ((s.toSignificant g).expectedHere g) = error at hu hv
    let noted := (s.toSignificant g).note (.errorReported (s.toSignificant g).position error true false)
    have hnoted : s.Hushed noted :=
      .of_calm ((Calm.toSignificant g s).trans (.note ..)) ((Unrecorded.toSignificant s g).trans (.note ..))
    have hmarked := hnoted.trans (.openMarker g noted)
    have hopened : (noted.openMarker g).2.log.Sound := hs.sound.openAt _
    obtain ⟨hran, hsound⟩ := hquiet.hushed hopen (.inl rfl) (hs.toMuted.hushed hmarked hopened) hv
    have hall := hmarked.trans hran
    obtain ⟨-, rfl⟩ := Prod.mk.inj (Option.some.inj hu)
    let last := v.commit (noted.openMarker g).1 .error (some error)
    have hlog : last.log = v.log.commit (noted.openMarker g).1 .error (some error) v.position := log_commit ..
    have hlast : s.Unrecorded (last.toSignificant g) :=
      hall.toUnrecorded.trans ((Unrecorded.commit ..).trans (.toSignificant _ g))
    refine ⟨⟨hs.unrecorded.trans hlast, ?_⟩, ?_⟩
    · show last.log.Sound
      rw [hlog]
      exact hsound.commit ..
    · show r.log.OneMoreError last.log
      rw [hlog]
      exact .after (hs.errors.trans hall.errors) (MarkerLog.oneMoreError_commit ..)

/-! ## Recovery -/

theorem mutedReport_groupRun {kind : Kind} {minds : Bool} (hs : r.MutedReport s)
    (h : s.groupRun g run rounds level kind minds g.advancer eatMore = some (b, t)) : r.MutedReport t := by
  have hkeep {u v : Session} (hu : r.MutedReport u) (hv : u.Hushed v) (hlead : u.LeadsTo v) :
      u.Keeps r.MutedReport (fun _ _ => True) v :=
    ⟨hu.hushed hv (hlead.sound hu.sound), fun _ _ => trivial⟩
  have hcalm {u v : Session} (hu : r.MutedReport u) (hc : Calm u v) (hv : u.Unrecorded v) :
      u.Keeps r.MutedReport (fun _ _ => True) v :=
    hkeep hu (.of_calm hc hv) (.calm hc)
  have hsilent {u v : Session} (hu : r.MutedReport u) (hs : Silent u v) (hv : u.Unrecorded v)
      (hlead : u.LeadsTo v) : u.Keeps r.MutedReport (fun _ _ => True) v :=
    hkeep hu ⟨hv, hs.errors⟩ hlead
  have hmoves : MarkerMoves g r.MutedReport (fun _ _ => True) fun _ => True :=
    { toSignificant := fun {u} hu => hcalm hu (.toSignificant g u) (.toSignificant u g)
      guardProgress := fun {u} rule p hu =>
        hcalm hu (.guardProgress g u rule p) (.guardProgress g u rule p)
      note := fun {u} e _ hu => hcalm hu (.note u e) (.note u e)
      openMarker := fun {u} hu => ⟨hkeep hu (.openMarker g u) (.openMarker g u), trivial⟩
      commitAs := fun {u m} k hu _ _ => hsilent hu (.commitAs m k u) (.commitAs u m k) (.commitAs m k u)
      drop := fun {u m} hu _ => hsilent hu (.drop m u) (.drop u m) (.drop m u)
      wrap := fun {u m} hu _ => ⟨hsilent hu (.wrap m u) (.wrap u m) (.wrap m u), trivial⟩ }
  refine hmoves.groupRun (fun rule hrule _ u _ v hu hv => ?_) hs h trivial
  obtain ⟨hhushed, hsound⟩ := hquiet.hushed hopen (by tauto) hu.toMuted hv
  exact ⟨hu.hushed hhushed hsound, fun _ _ => trivial⟩

/-- As long as nothing has been reported a rule that is asked brings in no error. -/
theorem mutedSilence_run {rule : RuleRef} (hrule : rule = g.advancer ∨ rule = eatMore) (hs : r.MutedSilence s)
    (h : run rule level s = some (b, t)) : r.MutedSilence t := by
  obtain ⟨hhushed, hsound⟩ := hquiet.hushed hopen hrule hs.toMuted h
  exact hs.hushed hhushed hsound

/-- The report may bring one in, and what is asked afterwards no other one. -/
theorem mutedReport_reportSkipped {eatsFirst more : Bool} (hs : r.MutedSilence s)
    (h : s.reportSkipped g run rounds frame kind result pinned eatMore initial eatsFirst more =
      some (b, frame', t)) : r.MutedReport t := by
  refine reportSkipped_keeps (fun rule hrule level u b v hu hr => ?_) (fun _ _ _ hu => ?_)
    (fun _ _ _ hu hg => ?_) (fun inner force => ?_) hs.mutedReport h
  · obtain ⟨hhushed, hsound⟩ := hquiet.hushed hopen hrule hu.toMuted hr
    exact hu.hushed hhushed hsound
  · exact mutedReport_reportSwallowingFor hopen hquiet hs hu
  · exact mutedReport_groupRun hopen hquiet hu hg
  · exact mutedReport_reportFor hs inner force

/-- A recovery brings in one error at most. -/
theorem oneMoreError_recover (hsound : r.log.Sound)
    (h : r.recover g run rounds frame kind result pinned eatMore initial lastError = some (frame', s')) :
    r.log.OneMoreError s'.log := by
  obtain ⟨eatsFirst, t, starts, more, u, reported, frame₁, v, last, ht, hu, hv, -, hend⟩ :=
    exists_stages h
  have hbegin : r.MutedSilence ({ r with quiet := true }.toSignificant g) :=
    ⟨⟨.toSignificant _ g, hsound⟩, .refl _⟩
  have hfirst : r.MutedSilence t := by
    rcases ht with ⟨-, rfl⟩ | ht
    · exact hbegin
    · exact mutedSilence_run hopen hquiet (.inr rfl) hbegin ht
  have hskip : r.MutedSilence u :=
    skipRun_moves (fun rule hrule level s b t hs hr => mutedSilence_run hopen hquiet hrule hs hr)
      (fun s hs => hs.calm (.toSignificant g s) (.toSignificant s g))
      (fun s error hs => hs.calm (.abort g s error) (.abort s g error)) hfirst hu
  have hnoted := hskip.calm (.note u (.skipped u.position lastError more)) (.note ..)
  have hreport : r.MutedReport v := mutedReport_reportSkipped hopen hquiet hnoted hv
  have hwide := hreport.errors.before (Silent.widenOver last frame₁.position v).errors
  rcases hend with heq | heq
  · cases heq
    exact hwide
  · have hclear := Work.steady_clearAttempts frame₁ { v.widenOver last frame₁.position with quiet := false }
    rw [← heq] at hclear
    rw [hclear.log]
    exact hwide

end

/-- So does settling the errors of a section, whether it recovers or not. -/
theorem oneMoreError_settleErrors (hopen : s.HooksOpen) (hsound : s.log.Sound)
    (hquiet : (s.attemptsByName g frame kind (result || pinned)).2.AsksQuietly g run eatMore)
    (h : s.settleErrors g run rounds frame kind result pinned (some eatMore) = some s') :
    s.log.OneMoreError s'.log := by
  have hname := Work.calm_attemptsByName (g := g) s frame kind (result || pinned)
  have hopen' : (s.attemptsByName g frame kind (result || pinned)).2.HooksOpen := by
    rw [HooksOpen, hname.hooks, hname.level]
    exact hopen
  obtain ⟨frame₁, t, rfl, hcases⟩ := settleErrors_cases h
  show s.log.OneMoreError t.log
  rw [← hname.log] at hsound ⊢
  obtain ⟨rule, hrule, -, hrecover⟩ | ⟨-, -, rfl⟩ | ⟨-, rfl⟩ := hcases
  · cases hrule
    exact oneMoreError_recover hopen' hquiet hsound hrecover
  · unfold reportPinned
    split
    · exact (reports_reportFor ..).oneMoreError
    · split <;> exact (MarkerLog.ErrorsFrom.refl _).oneMore
  · exact (MarkerLog.ErrorsFrom.refl _).oneMore

/-! ## Leaving -/

/-- The state in which a section recovers that is left: its marker has been settled, and if it failed where it
began its name stands for what it looked for. -/
def recovering (g : Setup) (frame : Frame) (frames : List Frame) (m : Marker) (kind : Option Kind)
    (result pinned : Bool) (s : Session) : Session :=
  let x := s.shape g frame frames m kind result pinned
  (x.2.attemptsByName g x.1 (frame.kind <|> kind) (result || pinned)).2

/-- While a section recovers whose advancer and condition make quiet runs, none of these records anything or
leaves an error behind. When its hooks are about to be run, all errors but one at most were there when it was
left or, if what it did has been given back, when its marker was opened. -/
theorem recovers_quietly {hook : HookRunner} (hsound : s₀.log.Sound)
    (hin : (s₀.openMarker g).2.log.Continues s.log) (hframes : s.frames = frame :: frames)
    (hopen : s.HooksOpen) (hr : s.recovering g frame frames (s₀.openMarker g).1 kind result pinned = r)
    (hquiet : r.AsksQuietly g run eatMore)
    (hleave : s.leave g run hook rounds frame.level (s₀.openMarker g).1 kind result pinned (some eatMore) =
      some s') :
    (∀ rule, rule = g.advancer ∨ rule = eatMore → ∀ level t b t', r.Muted t →
      run rule level t = some (b, t') →
        r.Muted t' ∧ t'.attempts = t.attempts ∧ t.log.ErrorsFrom t'.log) ∧
      ∃ u : Session, (s₀.log.OneMoreError u.log ∨ s.log.OneMoreError u.log) ∧
        (u.runLevelHooks g hook rounds (if pinned || result then frame.kind <|> kind else none)).map
          closeLevel = some s' := by
  subst hr
  rw [leave_eq hframes rfl] at hleave
  obtain ⟨u, hu, hleave⟩ := Option.bind_eq_some_iff.1 hleave
  let noted := { s with frames }.note (.sectionLeft frame result pinned)
  let x := s.shape g frame frames (s₀.openMarker g).1 kind result pinned
  have hshaped : x.2.HooksOpen := (Unrecorded.shape g frame frames _ kind result pinned s).hooksOpen hopen
  have hshape : noted.LeadsTo x.2 :=
    .shapeSection g frame (s₀.openMarker g).1 (frame.kind <|> kind) (result || pinned) noted
  have hsettled : x.2.log.Sound := hshape.sound hin.sound
  have hname := Work.calm_attemptsByName (g := g) x.2 x.1 (frame.kind <|> kind) (result || pinned)
  have hwaits : (s.recovering g frame frames (s₀.openMarker g).1 kind result pinned).HooksOpen := by
    rw [HooksOpen, recovering, hname.hooks, hname.level]
    exact hshaped
  refine ⟨fun rule hrule level t b t' ht hr => ?_, u, ?_, ?_⟩
  · obtain ⟨hhushed, hlog⟩ := hquiet.hushed hwaits hrule ht hr
    exact ⟨ht.hushed hhushed hlog, hhushed.attempts, hhushed.errors⟩
  · have hone : x.2.log.OneMoreError u.log := oneMoreError_settleErrors hshaped hsettled hquiet hu
    exact (errorsFrom_shapeSection (t := noted) hsound hin frame (frame.kind <|> kind) (result || pinned)).imp
      (MarkerLog.OneMoreError.after · hone) (MarkerLog.OneMoreError.after · hone)
  · rw [Option.map_eq_bind]
    exact hleave

/-! ## Rules that report -/

open Grammar (eval runRef)

/-- Looks for a token in a section of its own, and reports for that section if it is not there. -/
def expectInside (kind : Kind) : Expr :=
  .seq (.prim (.enter "x" {} none none 0)) <|
    .seq (.reporting (.prim (.consume kind))) (.leave "x" none (.const true) (.const false) none 0)

/-- The report is made for a frame that was put up meanwhile. -/
theorem quietRun_expectInside {kind : Kind} {n : Nat} {vars vars' : Vars}
    (h : eval g (n + 5) level vars (expectInside kind) t = some (b, vars', t')) :
    QuietRun g false t t' := by
  let sort : SectionSort := .framed level {} none none
  obtain ⟨left, hleave, h⟩ := Option.bind_eq_some_iff.1 h
  have hend : t' = left.recordCall .leave .unit := (congrArg (·.2.2) (Option.some.inj h)).symm
  have hleave : sort.leave g _ _ _ (sort.enter g t).1 none true false none _ = some left := hleave
  rw [hend]
  refine (QuietRun.inside ?_ SectionSort.pinsQuietly_of_not_pinned hleave).recorded ..
  -- inside the section there is the test, and the report for what it did not find
  refine .recorded (.reported (.recorded (.tested (.recorded (.refl _) ..) ?_ (.inl rfl) ..) ..) _) ..
  rfl

/-- Such a rule makes quiet runs only. -/
theorem asksQuietly_expectInside {name : String} {kind : Kind} (n : Nat)
    (hname : g.grammar.body name = expectInside kind) (hadvance : g.advancer = .advance) :
    r.AsksQuietly g (runRef g (eval g (n + 5))) (.named name) := by
  intro rule hrule level t b t' _ h
  obtain rfl | rfl := hrule
  · rw [hadvance] at h
    have hstep : (t.stepOver g).2 = t' := congrArg Prod.snd (Option.some.inj h)
    rw [← hstep]
    exact .test (p := .advance) rfl (.inr rfl) level {} t
  · simp only [runRef, Option.bind_eq_bind, Option.bind_eq_some_iff, Option.some.injEq,
      Prod.mk.injEq] at h
    obtain ⟨⟨b, vars, t'⟩, heval, -, rfl⟩ := h
    rw [show (g.grammar.lookup name).getD (.const false) = _ from hname] at heval
    exact quietRun_expectInside heval

/-- Two names, and a rule that is asked whether to eat more. -/
def asking (more : Expr) : Setup where
  source := { text := "ab", tokens := [⟨⟨3⟩, ⟨0, 1⟩⟩, ⟨⟨3⟩, ⟨1, 2⟩⟩] }
  language := LanguageTable.toBareLanguage {}
  grammar := [("more", more)]

/-- The rule looks for a token that is not there, in a section of its own. -/
def looking : Setup := asking (expectInside ⟨6⟩)

/-- A section at the beginning, in which three tokens were tried of which the last is not there. -/
def triedThree : Session :=
  let entered := (start default none).enter looking 1 {} (some ⟨21⟩) none
  (entered.2.tryKinds looking false .none [⟨3⟩, ⟨3⟩, ⟨6⟩]).2

/-- Both names are skipped. The reports of the rule leave no error, that of the recovery does. -/
theorem recovers_quietly_skipping :
    ∃ frame s', triedThree.frames = [frame] ∧
      (∀ rule, rule = looking.advancer ∨ rule = .named "more" → ∀ level t b t',
        (triedThree.recovering looking frame [] ⟨0⟩ none true false).Muted t →
        runRef looking (eval looking 9) rule level t = some (b, t') →
          (triedThree.recovering looking frame [] ⟨0⟩ none true false).Muted t' ∧
            t'.attempts = t.attempts ∧ t.log.ErrorsFrom t'.log) ∧
      (∃ u : Session, ((start default none).log.OneMoreError u.log ∨ triedThree.log.OneMoreError u.log) ∧
        (u.runLevelHooks looking (fun _ _ _ => none) 9 (some ⟨21⟩)).map closeLevel = some s') ∧
      s'.position = 2 ∧ s'.log.committedNodes.map (·.error.isSome) = [false, true] := by
  have hin : ((start default none).openMarker looking).2.log.Continues triedThree.log := by
    have hrun : BalancedRun (fun _ => true) looking
        ((start default none).enter looking 1 {} (some ⟨21⟩) none).2 triedThree := .tryKinds ..
    exact (hrun.work fun _ h => nomatch h).continues (MarkerLog.Sound.empty.openAt 0)
  obtain ⟨frame, hframes, hlevel, hkind⟩ : ∃ frame, triedThree.frames = [frame] ∧ frame.level = 1 ∧
      frame.kind = some ⟨21⟩ := ⟨_, rfl, rfl, rfl⟩
  obtain ⟨s', hleave, hleft⟩ := Option.map_eq_some_iff.1 (show
      (triedThree.leave looking (runRef looking (eval looking 9)) (fun _ _ _ => none) 9 1 ⟨0⟩ none true false
        (some (.named "more"))).map (fun s => (s.position, s.log.committedNodes.map (·.error.isSome))) =
          some (2, [false, true]) by decide +kernel)
  obtain ⟨hposition, hnodes⟩ := Prod.mk.inj hleft
  rw [← hlevel] at hleave
  have hwait : triedThree.HooksOpen := fun _ h => nomatch h
  obtain ⟨hmuted, u, herrors, hhooks⟩ := recovers_quietly MarkerLog.Sound.empty hin hframes hwait rfl
    (asksQuietly_expectInside 4 rfl rfl) hleave
  rw [hkind] at hhooks
  exact ⟨frame, s', hframes, hmuted, ⟨u, herrors, hhooks⟩, hposition, hnodes⟩

/-- The rule reports for the section around. -/
def complaining : Setup := asking (.reporting (.const false))

/-- A name was consumed in a section, after something else was looked for in the section around. -/
def consumedInside : Session :=
  let looked := ((start default none).enter complaining 1 {} none none).2.consume complaining ⟨6⟩
  ((looked.2.enter complaining 2 {} (some ⟨21⟩) none).2.consume complaining ⟨3⟩).2

/-- A report for the section around leaves an error, though the session is quiet. The recovery reports nothing
itself, and yet the section is left with an error. -/
theorem recovers_loudly :
    complaining.grammar.Balanced (fun _ => true) ∧
    ∃ frame frames r t' s', consumedInside.frames = frame :: frames ∧
      consumedInside.recovering complaining frame frames ⟨1⟩ none true false = r ∧
      runRef complaining (eval complaining 9) (.named "more") 3
        ({ r with quiet := true }.toSignificant complaining) = some (false, t') ∧
      consumedInside.leave complaining (runRef complaining (eval complaining 9)) (fun _ _ _ => none) 9 2 ⟨1⟩
        none true false (some (.named "more")) = some s' ∧
      r.log.committedNodes.map (·.error.isSome) = [false] ∧
      t'.log.committedNodes.map (·.error.isSome) = [false, true] ∧ s'.log = t'.log :=
  ⟨by decide, _, _, _, _, _, rfl, rfl, rfl, rfl, rfl, rfl, rfl⟩

end Session

end Descent
