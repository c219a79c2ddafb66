import Descent.Proofs.Grammar.Calls
import Descent.Proofs.Session.Raised
import Descent.Proofs.Session.RecoveryEnds

/-!
# The loops of a session end

In any state that calls pass through, skipping and grouping end in time where the rules that they run
end and never go back, and folding ends anyway (`Session.LoopsEnd`). With the default advancer neither
skipping nor grouping gets stuck when a section is left, so that recovery raises no fatal error of its
own.
-/

namespace Descent.Session

variable {g : Setup} {run : Runner} {eatMore : RuleRef} {s : Session}

/-- The loops of a session end, from `s` on, with a condition under which more is eaten. -/
structure LoopsEnd (g : Setup) (run : Runner) (eatMore : RuleRef) (s : Session) : Prop where
  skipping : ∀ name level lastError more depth,
    (∀ rounds, s.skipRun g run eatMore name level lastError rounds more depth =
      goRound (skipTurn g run eatMore name level lastError) rounds (more, depth, s)) ∧
    EndsInTime (skipTurn g run eatMore name level lastError) (·.2.2.position) (·.2.isAborted = true)
      g.source.size (more, depth, s)
  grouping : ∀ item, run.Proceeds item → ∀ level kind pair? c,
    (∀ rounds, s.groupItems g run level kind pair? item eatMore rounds c =
      goRound (groupTurn g run level kind pair? item eatMore) rounds (c, s)) ∧
    EndsInTime (groupTurn g run level kind pair? item eatMore) (·.2.position)
      (·.2.isAborted = true) g.source.size (c, s)
  /-- Folding needs no more rounds than there are chunks, and leaves no full run of them. -/
  folding : ∀ kind c,
    (∀ rounds, c.chunks.length ≤ rounds → s.foldRounds g kind rounds c = s.foldFull g kind c) ∧
      (s.foldFull g kind c).1.latestRun.length < g.limits.fanOut
  /-- A grouped run comes to its end in as many rounds as there are tokens, and one more. -/
  grouped : ∀ item, run.Proceeds item → ∀ rounds level kind minds, g.source.size < rounds →
    ∃ x, s.groupRun g run rounds level kind minds item eatMore = some x
  /-- A section is left in the end, in as many rounds as there are tokens and one more. -/
  leaving : ∀ frame frames rounds m kind result pinned, s.frames = frame :: frames →
    g.source.size < rounds → ∃ t, (s.shape g frame frames m kind result pinned).2.settleErrors g run
      rounds (s.shape g frame frames m kind result pinned).1 (frame.kind <|> kind) result pinned
      (some eatMore) = some t
  /-- Skipping up to a position in the source does not fail with the default advancer. -/
  skippingTokens : g.advancer = .advance → run.Standard g → ∀ name level lastError more depth,
    lastError ≤ g.source.size →
    EndsInTime (skipTurn g run eatMore name level lastError) (·.2.2.position) (fun _ => False)
      g.source.size (more, depth, s)
  /-- Neither does grouping what it steps over. -/
  groupingTokens : g.advancer = .advance → run.Standard g → ∀ level kind pair? c,
    EndsInTime (groupTurn g run level kind pair? g.advancer eatMore) (·.2.position)
      (fun _ => False) g.source.size (c, s)
  /-- So all fatal errors are those of the condition. -/
  recovering : g.advancer = .advance → run.Standard g →
    ∀ frame frames rounds m kind result pinned t, s.frames = frame :: frames →
      (s.shape g frame frames m kind result pinned).2.settleErrors g run rounds
        (s.shape g frame frames m kind result pinned).1 (frame.kind <|> kind) result pinned
        (some eatMore) = some t →
      ∀ a, t.aborted = some a →
        (s.shape g frame frames m kind result pinned).2.aborted = some a ∨ run.Raises eatMore a

/-- All loops of a session end, and with the default advancer recovery never fails, if the condition
under which more is eaten ends and never goes back, and so does the advancer. -/
theorem loopsEnd_of_passes {limits : Limits} {caret : Option Nat}
    (hs : (start limits caret).Passes g false s) (hrun : run.Calls g false)
    (hadvancer : run.Proceeds g.advancer) (heat : run.Proceeds eatMore) :
    s.LoopsEnd g run eatMore := by
  have hstart := inBounds_start g limits caret
  have hin : s.InBounds g := (hs.acts hstart).inBounds hstart
  have hskip := endsInTime_skip (s := s) hrun.acts hadvancer heat
  refine ⟨fun name level lastError more depth => ⟨fun rounds => skipRun_eq_goRound .., ?_⟩,
    fun item hitem level kind pair? c => ⟨fun rounds => groupItems_eq_goRound .., ?_⟩,
    fun kind c => foldRounds_eq_foldFull kind c s, fun item hitem rounds level kind minds hrounds =>
      ends_groupRun hrun.acts hadvancer heat hrounds hitem hin level kind minds, ?_, ?_, ?_, ?_⟩
  · exact hskip name level lastError more depth hin
  · exact endsInTime_group hrun.acts hadvancer hitem heat level kind pair? c hin
  · intro frame frames rounds m kind result pinned hframes hrounds
    obtain ⟨hframe, hshape⟩ := inBounds_shape hin hframes m kind result pinned
    exact ends_settleErrors hrun.acts hadvancer heat hrounds hshape hframe _ result pinned
  · intro hdefault hstandard name level lastError more depth hlast
    exact (hskip name level lastError more depth hin).unstuck
      (RaisedBy.skipTurn hdefault hstandard heat hlast)
  · intro hdefault hstandard level kind pair? c
    have h := endsInTime_group hrun.acts hadvancer hadvancer heat level kind pair? c hin
    rw [hdefault] at h ⊢
    exact h.unstuck (RaisedBy.groupTurn hdefault hstandard heat)
  · intro hdefault hstandard frame frames rounds m kind result pinned t hframes ht a ha
    obtain ⟨hframe, hshape⟩ := inBounds_shape hin hframes m kind result pinned
    exact (RaisedBy.settleErrors hdefault hstandard heat hframe hshape ht).aborted a ha

/-- Four tokens, the first three of them a delimited region, and more is eaten before names. -/
def bracketed : Setup where
  source :=
    { text := "(a)b", tokens := [⟨⟨4⟩, ⟨0, 1⟩⟩, ⟨⟨3⟩, ⟨1, 2⟩⟩, ⟨⟨5⟩, ⟨2, 3⟩⟩, ⟨⟨3⟩, ⟨3, 4⟩⟩] }
  language := { LanguageTable.toBareLanguage {} with delimiters := [⟨⟨4⟩, ⟨5⟩⟩] }
  limits := default
  grammar := [("more", .prim (.next ⟨3⟩))]

theorem loopsEnd_of_passes_bracketed : ∃ (s : Session) (run : Runner),
    (start {} none).Passes bracketed false s ∧ run.Calls bracketed false ∧
      run.Proceeds bracketed.advancer ∧ run.Proceeds (.named "more") ∧
      run.Standard bracketed ∧ s.frames.length = 1 ∧
      s.LoopsEnd bracketed run (.named "more") := by
  let run := Grammar.runRef bracketed (Grammar.eval bracketed 6)
  let step : Primitive := .enter "section" {} (some ⟨21⟩) none 0
  have hs : (start {} none).Passes bracketed false
      (step.run bracketed 0 {} (start {} none)).session :=
    .calls (.step step 0 {} (start {} none))
  have hrun : run.Calls bracketed false := Grammar.calls_runRef (Grammar.calls_eval 6)
  have hadvancer : run.Proceeds .advance := by
    refine ⟨fun _ _ => ⟨_, rfl⟩, fun level s b s' h => ?_⟩
    obtain ⟨-, rfl⟩ := Prod.mk.inj (Option.some.inj h)
    exact (Calm.stepOver bracketed s).position
  have heat : run.Proceeds (.named "more") := by
    refine ⟨fun _ _ => ⟨_, rfl⟩, fun level s b s' h => ?_⟩
    obtain ⟨-, rfl⟩ := Prod.mk.inj (Option.some.inj h)
    exact (Calm.next bracketed s ⟨3⟩).position
  exact ⟨_, run, hs, hrun, hadvancer, heat, Grammar.standard_runRef .., by decide +kernel,
    loopsEnd_of_passes hs hrun hadvancer heat⟩

end Descent.Session
