import Descent.Proofs.Grammar.LeadsTo
import Descent.Proofs.Session.RecoveryNodes

/-!
# Recovery only adds

When a section is left with a condition under which more is eaten, its own marker is settled first. From
there on nodes are only added: an error at most, and chunks. The nodes that are there keep their kinds,
starts, errors and order, and all but one keep their ends, too (`Session.kept_of_passes`).

This is for conditions and advancers that change no nodes and do not go back (`Runner.KeepsNodes`). It is
enough that they do not do so in the runs that are made (`Session.settleErrors_gentle`).
-/

namespace Descent

variable {g : Setup} {run : Runner}

theorem Runner.Leads.gentle (h : run.Leads) {rule : RuleRef} {level : Nat} {s s' : Session} {b : Bool}
    (hr : run.gentle rule level s = some (b, s')) : s.Gentle s' := by
  obtain ⟨hr, hkeeps⟩ := Option.filter_eq_some_iff.1 hr
  obtain ⟨hnodes, hposition⟩ := Bool.and_eq_true_iff.1 hkeeps
  exact ⟨of_decide_eq_true hposition, (h _ _ _ _ _ hr).sound, hnodes⟩

/-- Runs of the rule leave the nodes as they are and do not go back. -/
def Runner.KeepsNodes (run : Runner) (rule : RuleRef) : Prop :=
  ∀ level s b s', run rule level s = some (b, s') →
    s.log.sameNodes s'.log = true ∧ s.position ≤ s'.position

theorem Runner.KeepsNodes.gentle {rule : RuleRef} (h : run.KeepsNodes rule) :
    run.gentle rule = run rule := by
  funext level s
  rw [Runner.gentle]
  cases hr : run rule level s with
  | none => rfl
  | some x =>
    obtain ⟨hnodes, hposition⟩ := h level s x.1 x.2 hr
    rw [Option.filter_some, hnodes, decide_eq_true hposition]
    rfl

namespace Session

/-! ## The rules that recovery runs -/

section
variable {run' : Runner} {eatMore : RuleRef} (heat : run' eatMore = run eatMore)
  (hadvancer : run' g.advancer = run g.advancer)
include heat hadvancer

theorem skipRun_alike (name : String) (level lastError rounds : Nat) (more : Bool) (depth : Int)
    (s : Session) : s.skipRun g run' eatMore name level lastError rounds more depth =
      s.skipRun g run eatMore name level lastError rounds more depth := by
  induction rounds generalizing s more depth with
  | zero => rfl
  | succ rounds ih => simp only [skipRun, heat, hadvancer, ih]

theorem groupItems_alike (level : Nat) (kind : Kind) (pair? : Option Delimiters) (rounds : Nat)
    (c : Grouping) (s : Session) :
    s.groupItems g run' level kind pair? g.advancer eatMore rounds c =
      s.groupItems g run level kind pair? g.advancer eatMore rounds c := by
  induction rounds generalizing c s with
  | zero => rfl
  | succ rounds ih => simp only [groupItems, delimiterStep, itemStep, heat, hadvancer, ih]

/-- Only the condition and the advancer are run when a section is left. -/
theorem settleErrors_alike (rounds : Nat) (frame : Frame) (kind : Option Kind)
    (result pinned : Bool) (s : Session) :
    s.settleErrors g run' rounds frame kind result pinned (some eatMore) =
      s.settleErrors g run rounds frame kind result pinned (some eatMore) := by
  have hrecover (s : Session) (frame : Frame) (initial lastError : Nat) :
      s.recover g run' rounds frame kind result pinned eatMore initial lastError =
        s.recover g run rounds frame kind result pinned eatMore initial lastError := by
    simp only [recover, reportSkipped, reportSwallowingFor, reportSwallowing, groupRun_eq, heat,
      hadvancer, skipRun_alike heat hadvancer, groupItems_alike heat hadvancer]
  rw [settleErrors_eq, settleErrors_eq]
  dsimp only
  split
  · rfl
  · simp only [settleFrame, hrecover]

end

/-- None of the runs that are made changes a node or goes back if the rules never do. -/
theorem settleErrors_gentle {eatMore : RuleRef} (heat : run.KeepsNodes eatMore)
    (hadvancer : run.KeepsNodes g.advancer) (rounds : Nat) (frame : Frame) (kind : Option Kind)
    (result pinned : Bool) (s : Session) :
    s.settleErrors g run.gentle rounds frame kind result pinned (some eatMore) =
      s.settleErrors g run rounds frame kind result pinned (some eatMore) :=
  settleErrors_alike heat.gentle hadvancer.gentle rounds frame kind result pinned s

/-! ## Leaving a section -/

variable {s t : Session}

/-- The nodes are kept when a section is left, in any state that calls pass through, if none of the runs
that are made changes a node or goes back. -/
theorem kept_of_passes {limits : Limits} {caret : Option Nat} {frame : Frame} {frames : List Frame}
    {m : Marker} {kind : Option Kind} {result pinned : Bool} {eatMore : RuleRef} {rounds : Nat}
    (hs : (start limits caret).Passes g false s) (hrun : run.Calls g false)
    (hframes : s.frames = frame :: frames)
    (ht : (s.shape g frame frames m kind result pinned).2.settleErrors g run rounds
      (s.shape g frame frames m kind result pinned).1 (frame.kind <|> kind) result pinned
      (some eatMore) = some t)
    (hgentle : (s.shape g frame frames m kind result pinned).2.settleErrors g run.gentle rounds
      (s.shape g frame frames m kind result pinned).1 (frame.kind <|> kind) result pinned
      (some eatMore) = (s.shape g frame frames m kind result pinned).2.settleErrors g run rounds
      (s.shape g frame frames m kind result pinned).1 (frame.kind <|> kind) result pinned
      (some eatMore)) :
    (s.shape g frame frames m kind result pinned).2.Kept t := by
  have hacts : s.Acts g false (s.shape g frame frames m kind result pinned).2 :=
    .shape hframes kind result pinned
  have hleads := hs.leadsTo.trans hacts.leadsTo
  have hsound := hleads.sound .empty
  have hinput := hleads.errorsInInput fun m info hi => by cases hi
  exact Kept.settleErrors (fun _ _ _ _ _ hr => hrun.leads.gentle hr) hsound hinput (hgentle.trans ht)

/-- A name and four signs, of which more are eaten. -/
def signs : Setup where
  source :=
    { text := "a++++"
      tokens := [⟨⟨3⟩, ⟨0, 1⟩⟩, ⟨⟨7⟩, ⟨1, 2⟩⟩, ⟨⟨7⟩, ⟨2, 3⟩⟩, ⟨⟨7⟩, ⟨3, 4⟩⟩, ⟨⟨7⟩, ⟨4, 5⟩⟩] }
  language := LanguageTable.toBareLanguage {}
  limits := Limits.withFanOut default 2
  grammar := [("more", .prim (.next ⟨7⟩))]

/-- Makes a node of the name in a section, and does not find what should come next. -/
def nameThenMissing : Expr :=
  .seq (.prim (.enter "section" {} (some ⟨21⟩) none 0)) <|
    .seq (.prim (.openMarker "name")) <|
    .seq (.prim (.consume ⟨3⟩)) <|
    .seq (.prim (.commit "name" ⟨22⟩)) (.prim (.consume ⟨6⟩))

/-- The node of the section is widened over an error and a chunk. -/
theorem kept_of_passes_signs : ∃ (s : Session) (run : Runner) (frame : Frame) (t : Session),
    (start {} none).Passes signs false s ∧ run.Calls signs false ∧ s.frames = [frame] ∧
      (s.shape signs frame [] ⟨0⟩ none true false).2.settleErrors signs run 9
        (s.shape signs frame [] ⟨0⟩ none true false).1 (frame.kind <|> none) true false
        (some (.named "more")) = some t ∧
      (s.shape signs frame [] ⟨0⟩ none true false).2.log.brackets.length = 4 ∧
      t.log.brackets.length = 8 ∧ (s.shape signs frame [] ⟨0⟩ none true false).2.Kept t := by
  let run := Grammar.runRef signs (Grammar.eval signs 9)
  let x := (Grammar.eval signs 9 0 {} nameThenMissing (start {} none)).getD (true, {}, start {} none)
  have heval : Grammar.eval signs 9 0 {} nameThenMissing (start {} none) =
      some (x.1, x.2.1, x.2.2) := by decide +kernel
  have hs : (start {} none).Passes signs false x.2.2 := .calls (Grammar.calls_eval 9 heval)
  have hrun : run.Calls signs false := Grammar.calls_runRef (Grammar.calls_eval 9)
  have calm {s s' : Session} (h : Calm s s') :
      s.log.sameNodes s'.log = true ∧ s.position ≤ s'.position :=
    ⟨(Gentle.calm h).nodes, h.position⟩
  have heat : run.KeepsNodes (.named "more") := by
    intro level s b s' h
    obtain ⟨-, rfl⟩ := Prod.mk.inj (Option.some.inj h)
    exact calm ((Calm.next signs s ⟨7⟩).trans (.recordCall ..))
  have hadvancer : run.KeepsNodes .advance := by
    intro level s b s' h
    obtain ⟨-, rfl⟩ := Prod.mk.inj (Option.some.inj h)
    exact calm (.stepOver signs s)
  let frame := x.2.2.frames.headD ⟨none, 0, 0, 0, {}, none, 0, none, none, none⟩
  have hframes : x.2.2.frames = [frame] := by decide +kernel
  let y := x.2.2.shape signs frame [] ⟨0⟩ none true false
  let t := (y.2.settleErrors signs run 9 y.1 (frame.kind <|> none) true false
    (some (.named "more"))).getD y.2
  have ht : y.2.settleErrors signs run 9 y.1 (frame.kind <|> none) true false
    (some (.named "more")) = some t := by decide +kernel
  exact ⟨x.2.2, run, frame, t, hs, hrun, hframes, ht, by decide +kernel, by decide +kernel,
    kept_of_passes hs hrun hframes ht (settleErrors_gentle heat hadvancer ..)⟩

/-- A sign and three names. -/
def signAndNames : Setup where
  source :=
    { text := "*abc"
      tokens := [⟨⟨7⟩, ⟨0, 1⟩⟩, ⟨⟨3⟩, ⟨1, 2⟩⟩, ⟨⟨3⟩, ⟨2, 3⟩⟩, ⟨⟨3⟩, ⟨3, 4⟩⟩] }
  language := LanguageTable.toBareLanguage {}
  grammar := [("more", .prim (.next ⟨7⟩))]

/-- Makes a node of the second name, and in a section behind it goes back to the beginning: a marker is
opened where another one was that had been rolled back there, and is rolled back itself. -/
def nodeThenBack : Expr :=
  .seq (.prim (.openMarker "first")) <|
    .seq (.prim (.rollback "first")) <|
    .seq (.prim (.consume ⟨7⟩)) <|
    .seq (.prim (.consume ⟨3⟩)) <|
    .seq (.prim (.openMarker "node")) <|
    .seq (.prim (.consume ⟨3⟩)) <|
    .seq (.prim (.commit "node" ⟨21⟩)) <|
    .seq (.prim (.enter "section" {} (some ⟨23⟩) none 0)) <|
    .seq (.prim (.drop "section")) <|
    .seq (.prim (.wrap "back" "first")) (.prim (.rollback "back"))

/-- A node that is widened does not end at the position if it starts behind it. -/
theorem widened_behind_position : ∃ (s : Session) (run : Runner) (frame : Frame) (t : Session)
    (node : Marker) (info : MarkerInfo),
    (start {} none).Passes signAndNames false s ∧ run.Calls signAndNames false ∧
      s.frames = [frame] ∧
      (s.shape signAndNames frame [] ⟨2⟩ none true false).2.settleErrors signAndNames run 20
        (s.shape signAndNames frame [] ⟨2⟩ none true false).1 (frame.kind <|> none) true false
        (some (.named "more")) = some t ∧
      (s.shape signAndNames frame [] ⟨2⟩ none true false).2.settleErrors signAndNames run.gentle 20
        (s.shape signAndNames frame [] ⟨2⟩ none true false).1 (frame.kind <|> none) true false
        (some (.named "more")) = some t ∧
      (s.shape signAndNames frame [] ⟨2⟩ none true false).2.log.info? node = some info ∧
      info.stage = .committed ∧
      ∀ info' ∈ t.log.markers.toList, info'.stage = .committed → info'.kind = info.kind →
        info'.start = info.start → info'.stop ≠ info.stop ∧ t.position < info'.stop := by
  let run := Grammar.runRef signAndNames (Grammar.eval signAndNames 20)
  let x := (Grammar.eval signAndNames 20 0 {} nodeThenBack (start {} none)).getD
    (true, {}, start {} none)
  have heval : Grammar.eval signAndNames 20 0 {} nodeThenBack (start {} none) =
      some (x.1, x.2.1, x.2.2) := by decide +kernel
  have hs : (start {} none).Passes signAndNames false x.2.2 := .calls (Grammar.calls_eval 20 heval)
  have hrun : run.Calls signAndNames false := Grammar.calls_runRef (Grammar.calls_eval 20)
  let frame := x.2.2.frames.headD ⟨none, 0, 0, 0, {}, none, 0, none, none, none⟩
  have hframes : x.2.2.frames = [frame] := by decide +kernel
  let y := x.2.2.shape signAndNames frame [] ⟨2⟩ none true false
  let t := (y.2.settleErrors signAndNames run 20 y.1 (frame.kind <|> none) true false
    (some (.named "more"))).getD y.2
  have ht : y.2.settleErrors signAndNames run 20 y.1 (frame.kind <|> none) true false
    (some (.named "more")) = some t := by decide +kernel
  have hgentle : y.2.settleErrors signAndNames run.gentle 20 y.1 (frame.kind <|> none) true false
    (some (.named "more")) = some t := by decide +kernel
  exact ⟨x.2.2, run, frame, t, ⟨1⟩, ⟨2, 3, some ⟨21⟩, none, .committed⟩, hs, hrun, hframes, ht, hgentle,
    by decide +kernel, rfl, by decide +kernel⟩

end Session

end Descent
