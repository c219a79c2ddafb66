import Descent.Proofs.Session.Ascending
import Descent.Proofs.Session.Heeding
import Descent.Proofs.Session.LeadsTo

/-!
# Children that are kept

Work commits no marker but those it opens itself (`Work.heeds`). So a section that is to keep
a single fitting child in its own place finds a child that was opened inside of it, or else a node from
before that starts where the section starts. The latter is an empty one, and the section has consumed
nothing: a section that has consumed a significant token keeps a child of its own
(`Session.keptChild_opened_inside`).
-/

namespace Descent

namespace Work

variable {allows : Modifiers → Bool} {g : Setup} {s s' : Session} {first : Option Marker} {x : Marker}

theorem Pending.continues {m? : Option Marker} (h : Pending allows g s m? s') (hs : s.log.Sound) :
    s.log.Continues s'.log := by
  cases h with
  | gone h => exact h.continues hs
  | opened h hin =>
    have hu := h.continues hs
    have hopen := hu.trans (Session.continues_openMarker hu.sound g)
    exact hopen.trans (hin.continues hopen.sound)

end Work

namespace Session

variable {allows : Modifiers → Bool} {g : Setup} {s s₁ : Session} {level : Nat}
  {modifiers : Modifiers} {early kind : Option Kind} {name : Option String} {result pinned : Bool}
  {frame : Frame} {frames : List Frame} {m child : Marker}

/-- The marker that is to be settled when a section is left, its frame, and the state in which that
happens. -/
def leaving (g : Setup) (frame : Frame) (frames : List Frame) (m : Marker) (result pinned keeps : Bool)
    (s : Session) : Option Marker × Frame × Session :=
  ({ s with frames }.note (.sectionLeft frame result pinned)).leftMarker g frame m keeps

/-- The node that a section keeps in its own place when it is left, if it keeps one. It is sought after
the input was given back, if the section looked ahead. -/
def keptChild? (g : Setup) (m : Marker) (kind : Option Kind) (result pinned : Bool) (s : Session) :
    Option Marker := do
  let frame ← s.frames.head?
  let kind ← frame.kind <|> kind
  let x := s.leaving g frame s.frames.tail m result pinned (result || pinned)
  if (result || pinned) && frame.modifiers.collapse then x.2.2.absorbable? g x.2.1 kind else none

/-- What it means that a node is kept: it was committed, starts where the section started, and with the
trivia behind it reaches up to the position. -/
theorem exists_of_keptChild? (hframes : s₁.frames = frame :: frames)
    (hkept : s₁.keptChild? g m kind result pinned = some child) :
    ∃ k, (frame.kind <|> kind) = some k ∧ (result || pinned) = true ∧
      frame.modifiers.collapse = true ∧
      let x := s₁.leaving g frame frames m result pinned true
      x.2.2.absorbable? g x.2.1 k = some child := by
  simp only [keptChild?, hframes, List.head?_cons, List.tail_cons, Option.bind_eq_bind,
    Option.bind_some] at hkept
  obtain ⟨k, hk, hkept⟩ := Option.bind_eq_some_iff.1 hkept
  split at hkept
  · next hcond =>
    obtain ⟨hstays, hcollapse⟩ := Bool.and_eq_true_iff.1 hcond
    rw [hstays] at hkept
    exact ⟨k, hk, hstays, hcollapse, hkept⟩
  · cases hkept

/-- Conditions on the node that is kept. -/
theorem absorbable?_eq_some_iff {k : Kind} : s.absorbable? g frame k = some child ↔
    s.log.lastCommitted? = some child ∧ (s.log.kind? child).any (g.language.standsFor · k) = true ∧
      s.log.start child = frame.position ∧ s.log.stop child ≤ s.position ∧
      ∀ i, s.log.stop child ≤ i → i < s.position → g.isTriviaAt i = true := by
  rw [absorbable?, Option.filter_eq_some_iff]
  simp only [Bool.and_eq_true, beq_iff_eq, decide_eq_true_eq, List.all_eq_true, List.mem_range'_1,
    and_assoc]
  refine and_congr_right fun _ => and_congr_right fun _ => and_congr_right fun _ => ?_
  refine and_congr_right fun hle => forall_congr' fun i => ?_
  rw [Nat.add_sub_cancel' hle, and_imp]

/-- Of the markers that are there, no other than the one of the section is committed with it. -/
theorem isCommitted_of_placeNode {k : Kind} {x : Marker}
    (hc : (s.placeNode g frame m k).log.isCommitted x = true) (hx : m ≠ x)
    (hlt : x.number < s.log.markers.size) : s.log.isCommitted x = true := by
  have hcommit (t : Session) (hlog : t.log = s.log) (hc : (t.commitAs m k).log.isCommitted x = true) :
      s.log.isCommitted x = true := by
    rw [commitAs, log_commit, hlog] at hc
    exact MarkerLog.isCommitted_of_commit hc hx
  unfold placeNode at hc
  split at hc
  · exact MarkerLog.isCommitted_of_drop hc
  · split at hc
    · next left _ =>
      split at hc
      · refine hcommit s rfl ((heeds_widen (.refl _) left).nodes x ?_ hc)
        rwa [commitAs, log_commit, MarkerLog.size_commit]
      · refine MarkerLog.isCommitted_of_drop ((heeds_enclose (.refl _) left k none).nodes x ?_ hc)
        rwa [log_drop, MarkerLog.size_drop]
    · split at hc
      · exact hcommit (s.toSignificant g) rfl hc
      · exact hcommit s rfl hc

/-- A section that stays and has a kind is left with a marker. -/
theorem exists_leaving (g : Setup) (frame : Frame) (frames : List Frame) (m : Marker)
    (result pinned : Bool) (s : Session) :
    ∃ n, (s.leaving g frame frames m result pinned true).1 = some n := by
  unfold leaving leftMarker
  split
  · exact ⟨_, rfl⟩
  · exact ⟨m, rfl⟩

theorem shape_of_stays {k : Kind} {n : Marker} (hkind : (frame.kind <|> kind) = some k)
    (hstays : (result || pinned) = true)
    (hn : (s.leaving g frame frames m result pinned true).1 = some n) :
    let x := s.leaving g frame frames m result pinned true
    s.shape g frame frames m kind result pinned = (x.2.1, x.2.2.commitShaped g x.2.1 n k) := by
  rw [shape, shapeSection_eq, hkind, hstays]
  show settleMarker g _ (leaving g frame frames m result pinned true s).1 (some k) true _ = _
  rw [hn]
  rfl

/-- A section that is left was entered with the opening of its marker, and the marker that it is left
with was opened then or, if the section looked ahead, when its input was given back. -/
theorem pending_leaving
    (hbody : Work allows g none (s.enter g level modifiers early name).2 s₁)
    (hallows : allows modifiers = true) (hframes : s₁.frames = frame :: frames)
    (result pinned : Bool) :
    (s.enteredFrame g level modifiers early name).Becomes allows frame ∧
      ∀ keeps, Work.Pending allows g (s.entering g)
        (s₁.leaving g frame frames (s.enter g level modifiers early name).1 result pinned keeps).1
        (s₁.leaving g frame frames (s.enter g level modifiers early name).1 result pinned keeps).2.2 := by
  obtain ⟨f, fs, hfs, hf, hin⟩ := Work.exists_frame hallows hbody
  obtain ⟨rfl, rfl⟩ := List.cons.inj (hframes.symm.trans hfs)
  rw [takeFrame, hframes] at hin
  exact ⟨hf, Work.leftMarker (hin.note (.sectionLeft frame result pinned))⟩

/-- A section that looked ahead is left where it began, with a marker opened there anew. -/
theorem leaving_of_looksAhead (hahead : frame.modifiers.looksAhead = true) :
    (s₁.leaving g frame frames m result pinned true).2.2.log =
        ((s₁.rollback m).openMarker g).2.log ∧
      (s₁.leaving g frame frames m result pinned true).2.2.position =
        ((s₁.rollback m).openMarker g).2.position := by
  unfold leaving leftMarker endLookahead eraseSection
  rw [if_pos hahead]
  unfold rollback
  dsimp only [note]
  cases s₁.log.rollback m <;> exact ⟨rfl, rfl⟩

/-- What is committed then was committed before the section was entered. -/
theorem isCommitted_of_looksAhead (hs : s.Regular)
    (hbody : Work allows g none (s.enter g level modifiers early name).2 s₁)
    (hahead : frame.modifiers.looksAhead = true)
    (hchild : (s₁.leaving g frame frames (s.enter g level modifiers early name).1 result pinned
      true).2.2.log.isCommitted child = true) :
    (s.entering g).log.isCommitted child = true := by
  have hsound := (@Regular.entering g s hs).log
  have hentered := log_enter g level modifiers early name s
  have hcontinues := hbody.continues (hentered ▸ hsound.openAt _)
  rw [hentered] at hcontinues
  rw [(leaving_of_looksAhead hahead).1] at hchild
  have hmem := MarkerLog.start_mem_brackets (continues_rollback hsound hcontinues).sound
    (MarkerLog.isCommitted_of_openAt hchild)
  rw [(givesBack_rollback hsound hcontinues).brackets] at hmem
  exact MarkerLog.isCommitted_of_openAt (MarkerLog.isCommitted_of_start_mem hmem)

theorem leaving_of_not_looksAhead (hahead : frame.modifiers.looksAhead = false) (keeps : Bool) :
    s₁.leaving g frame frames m result pinned keeps =
      (some m, frame, { s₁ with frames }.note (.sectionLeft frame result pinned)) := by
  unfold leaving leftMarker
  rw [if_neg (Bool.eq_false_iff.1 hahead)]

/-- A section that stays and did not look ahead has its own marker settled, where it is left. -/
theorem shape_of_not_looksAhead {k : Kind} (m : Marker) (hkind : (frame.kind <|> kind) = some k)
    (hstays : (result || pinned) = true) (hahead : frame.modifiers.looksAhead = false) :
    s₁.shape g frame frames m kind result pinned =
      (frame, ({ s₁ with frames }.note (.sectionLeft frame result pinned)).commitShaped g frame m k) := by
  have hleaving := @leaving_of_not_looksAhead g s₁ result pinned frame frames m hahead true
  rw [shape_of_stays hkind hstays (congrArg Prod.fst hleaving), hleaving]

theorem ascends_entering (hs : s.Regular) (hascends : s.Ascends) : (s.entering g).Ascends :=
  ((@Work.reportAgain (fun _ => true) g s).ascends hs.log hascends).1

theorem position_enteredFrame (g : Setup) (level : Nat) (modifiers : Modifiers) (early : Option Kind)
    (name : Option String) (s : Session) : (s.enteredFrame g level modifiers early name).position =
      (s.enter g level modifiers early name).2.position := by
  rw [position_enter]
  exact significant_significant g _

/-- The node that is kept was opened after the marker of the section. -/
theorem lt_of_keptChild? (hs : s.Regular) (hascends : s.Ascends)
    (hbody : Work allows g none (s.enter g level modifiers early name).2 s₁)
    (hallows : allows modifiers = true)
    (hkept : s₁.keptChild? g (s.enter g level modifiers early name).1 kind result pinned = some child)
    (hwhen : (modifiers.looksAhead = false ∧ ∃ i, g.isTriviaAt i = false ∧
        (s.enter g level modifiers early name).2.position ≤ i ∧ i < s₁.position) ∨
      ∀ y, (s.entering g).log.isCommitted y = true →
        (s.entering g).log.start y ≠ (s.enter g level modifiers early name).2.position) :
    (s.enter g level modifiers early name).1.number < child.number := by
  obtain ⟨frame, frames, hframes, -⟩ := Work.exists_frame hallows hbody
  obtain ⟨hframe, hpending⟩ := pending_leaving hbody hallows hframes result pinned
  obtain ⟨k, -, -, -, habsorb⟩ := exists_of_keptChild? hframes hkept
  obtain ⟨hlast, -, hstart, -, htrivia⟩ := absorbable?_eq_some_iff.1 habsorb
  have hchild := MarkerLog.isCommitted_of_lastCommitted? hlast
  have hentering : (s.entering g).Regular := .entering hs
  have hentered := log_enter g level modifiers early name s
  by_contra hle
  -- no marker from before is committed inside, so the node is one that was committed before
  have hbefore : (s.entering g).log.isCommitted child = true := by
    cases hahead : frame.modifiers.looksAhead with
    | true => exact isCommitted_of_looksAhead hs hbody hahead hchild
    | false =>
      rw [leaving_of_not_looksAhead hahead] at hchild
      have hopened := hentering.log.openAt (g.significant (s.entering g).position)
      have hlt : child.number < (s.enter g level modifiers early name).2.log.markers.size := by
        rw [hentered, size_openMarker]
        exact Nat.lt_succ_of_le (Nat.le_of_not_lt hle)
      have hin := (hbody.heeds (hentered ▸ hopened)).nodes child hlt hchild
      rw [hentered] at hin
      exact MarkerLog.isCommitted_of_openAt hin
  have hcontinues := (hpending true).continues hentering.log
  have hposition : (s₁.leaving g frame frames (s.enter g level modifiers early name).1 result pinned
      true).2.1.position = (s.enter g level modifiers early name).2.position := by
    rw [← position_enteredFrame, ← hframe.position]
    exact (@Frame.Becomes.of_core allows _ _ (Work.core_leftMarker _ frame _ true)).position
  rcases hwhen with ⟨hahead, i, hi, hfrom, hto⟩ | hnone
  · have hahead : frame.modifiers.looksAhead = false := hframe.modifiers ▸ hahead
    have hstop := hcontinues.stop_eq hentering.log hbefore
    have hle := (ascends_entering hs hascends).stop_le
      (hentering.log.commit_mem_of_committed (MarkerLog.isCommitted_iff_stage?.1 hbefore))
    have hsignificant := g.le_significant (s.entering g).position
    rw [position_enter] at hfrom
    refine Bool.eq_false_iff.1 hi (htrivia i ?_ ?_)
    · rw [hstop]
      omega
    · rw [leaving_of_not_looksAhead hahead]
      exact hto
  · refine hnone child hbefore ?_
    rw [← hposition, ← hstart]
    have hmem := hentering.log.start_mem_of_committed (MarkerLog.isCommitted_iff_stage?.1 hbefore)
    exact (hcontinues.start_eq hentering.log hmem).symm

/-- The node that is kept is known and gives way to the marker of the section. -/
theorem shape_of_keptChild? (hs : s.Regular)
    (hbody : Work allows g none (s.enter g level modifiers early name).2 s₁)
    (hallows : allows modifiers = true) (hframes : s₁.frames = frame :: frames)
    (hkept : s₁.keptChild? g (s.enter g level modifiers early name).1 kind result pinned = some child) :
    let t := (s₁.shape g frame frames (s.enter g level modifiers early name).1 kind result pinned).2
    child.number < t.log.markers.size ∧ t.log.isCommitted child = false := by
  obtain ⟨-, hpending⟩ := pending_leaving hbody hallows hframes result pinned
  obtain ⟨k, hk, hstays, hcollapse, habsorb⟩ := exists_of_keptChild? hframes hkept
  obtain ⟨n, hn⟩ := exists_leaving g frame frames (s.enter g level modifiers early name).1 result pinned s₁
  have hmodifiers : (s₁.leaving g frame frames (s.enter g level modifiers early name).1 result pinned
      true).2.1.modifiers = frame.modifiers :=
    Frame.modifiers_eq_of_core (Work.core_leftMarker _ frame _ true)
  have hentering : (s.entering g).Regular := .entering hs
  rw [shape_of_stays hk hstays hn, commitShaped_eq]
  have hpending := hpending true
  rw [hn] at hpending
  generalize s₁.leaving g frame frames (s.enter g level modifiers early name).1 result pinned true = x at *
  have hchild := MarkerLog.isCommitted_of_lastCommitted? (absorbable?_eq_some_iff.1 habsorb).1
  have hne : n ≠ child := by
    rintro rfl
    cases hpending with
    | opened h hin =>
      rw [hin.isCommitted_openMarker (h.continues hentering.log).sound] at hchild
      cases hchild
  have hkeeps : x.2.2.absorbChild g x.2.1 k =
      ((x.2.2.log.kind? child).getD k, (x.2.2.note (.childKept child)).drop child) := by
    unfold absorbChild
    rw [hmodifiers, hcollapse, if_pos rfl, habsorb]
  rw [hkeeps]
  have hlt : child.number < ((x.2.2.note (.childKept child)).drop child).log.markers.size := by
    rw [log_drop, MarkerLog.size_drop]
    exact MarkerLog.number_lt_of_stage? (MarkerLog.isCommitted_iff_stage?.1 hchild)
  refine ⟨Nat.lt_of_lt_of_le hlt (LeadsTo.placeNode ..).size_le, Bool.eq_false_iff.2 fun hc => ?_⟩
  have hdropped := isCommitted_of_placeNode hc hne hlt
  rw [log_drop, MarkerLog.isCommitted_drop_self] at hdropped
  cases hdropped

/-- A section that is left with a result or a pin keeps in its own place, if any, a child that was opened
inside of it, and drops that: no node from before the section is kept. This holds if the section has
consumed a significant token, which it does not give back, or if no node from before starts where the
section starts. -/
theorem keptChild_opened_inside {run : Runner} {hook : HookRunner} {rounds : Nat}
    {eatMore : Option RuleRef} {s₂ : Session} (hs : s.Regular) (hascends : s.Ascends)
    (hrun : run.Balanced (fun _ => true) g)
    (hbody : BalancedRun (fun _ => true) g (s.enter g level modifiers early name).2 s₁)
    (hleave : s₁.leave g run hook rounds level (s.enter g level modifiers early name).1 kind result
      pinned eatMore = some s₂)
    (hkept : s₁.keptChild? g (s.enter g level modifiers early name).1 kind result pinned = some child)
    (hwhen : (modifiers.looksAhead = false ∧ ∃ i, g.isTriviaAt i = false ∧
        (s.enter g level modifiers early name).2.position ≤ i ∧ i < s₁.position) ∨
      ∀ y, (s.entering g).log.isCommitted y = true →
        (s.entering g).log.start y ≠ (s.enter g level modifiers early name).2.position) :
    (s.enter g level modifiers early name).1.number < child.number ∧ s.log.isCommitted child = false ∧
      s₂.log.isCommitted child = false := by
  have hentering : (s.entering g).Regular := .entering hs
  have hbody := hbody.work (Work.hooksOpen_enter hs.hooks)
  have hlt := lt_of_keptChild? hs hascends hbody rfl hkept hwhen
  obtain ⟨frame, frames, hframes, hframe, hshape⟩ := Work.exists_shape rfl hbody kind result
    pinned
  obtain ⟨hknown, hgone⟩ := shape_of_keptChild? hs hbody rfl hframes hkept
  have hlevel : frame.level = level := hframe.level
  rw [leave_eq hframes hlevel] at hleave
  obtain ⟨u, hsettle, rfl⟩ := Work.exists_settle hrun.works hs.hooks hshape hleave
  have hbefore : s.log.markers.size ≤ (s.enter g level modifiers early name).1.number :=
    ((@Work.reportAgain (fun _ => true) g s).continues hs.log).size
  refine ⟨hlt, Bool.eq_false_iff.2 fun hc => ?_, Bool.eq_false_iff.2 fun hc => ?_⟩
  · have hknown := MarkerLog.number_lt_of_stage? (MarkerLog.isCommitted_iff_stage?.1 hc)
    omega
  · -- it was a node, so it is known, and nothing commits it anew
    have hshaped := (hshape.continues hentering.log).sound
    rw [(hsettle.heeds hshaped).nodes child hknown hc] at hgone
    cases hgone

open Grammar (eval runRef)

/-- The state in which a section was entered that keeps a fitting child, and its marker. -/
def keeping (g : Setup) (kind : Kind) (s : Session) : Marker × Session :=
  s.enter g 1 { collapse := true } (some kind) none

theorem keptChild_opened_inside_name :
    ∃ s₁ s₂, runRef (naming {}) (eval (naming {}) 6) (.named "name") 2
        (keeping (naming {}) ⟨24⟩ (start default none)).2 = some (true, s₁) ∧
      s₁.leave (naming {}) (runRef (naming {}) (eval (naming {}) 6)) (fun _ _ _ => none) 1 1
        (keeping (naming {}) ⟨24⟩ (start default none)).1 none true false none = some s₂ ∧
      s₁.keptChild? (naming {}) (keeping (naming {}) ⟨24⟩ (start default none)).1 none true false =
        some ⟨1⟩ ∧
      (keeping (naming {}) ⟨24⟩ (start default none)).1.number < 1 ∧
      (start default none).log.isCommitted ⟨1⟩ = false ∧ s₂.log.isCommitted ⟨1⟩ = false := by
  have hrun : ∃ s₁ s₂, runRef (naming {}) (eval (naming {}) 6) (.named "name") 2
        (keeping (naming {}) ⟨24⟩ (start default none)).2 = some (true, s₁) ∧
      s₁.leave (naming {}) (runRef (naming {}) (eval (naming {}) 6)) (fun _ _ _ => none) 1 1
        (keeping (naming {}) ⟨24⟩ (start default none)).1 none true false none = some s₂ ∧
      s₁.keptChild? (naming {}) (keeping (naming {}) ⟨24⟩ (start default none)).1 none true false =
        some ⟨1⟩ ∧ s₁.position = 1 := ⟨_, _, rfl, rfl, rfl, rfl⟩
  obtain ⟨s₁, s₂, hs₁, hleave, hkept, hposition⟩ := hrun
  have hg : (naming {}).grammar.Balanced fun _ => true := by decide
  have hascends : (start default none).Ascends := List.pairwise_singleton ..
  refine ⟨s₁, s₂, hs₁, hleave, hkept, keptChild_opened_inside (.start default none) hascends
    (Grammar.balanced hg 6) (Grammar.balanced hg 6 _ _ _ _ _ hs₁) hleave hkept ?_⟩
  exact .inl ⟨rfl, 0, rfl, Nat.le_refl 0, by rw [hposition]; exact Nat.zero_lt_one⟩

/-- A rule for a name that may be empty. A name may stand for an expression. -/
def emptyName : Setup where
  source := { text := "a", tokens := [⟨⟨3⟩, ⟨0, 1⟩⟩] }
  language := (LanguageTable.addGroup {} [⟨23⟩, ⟨24⟩]).toLanguage
  limits := default
  grammar := [("name",
    .seq (.prim (.enter "name" {} none none 0)) <|
    .leave "name" (some ⟨24⟩) (.const true) (.const false) none 0)]

/-- A section that has consumed nothing keeps an empty node from before it in its own place: two nodes
should be there in the end, and there is one. -/
theorem keptChild_from_before :
    emptyName.grammar.Balanced (fun _ => true) ∧
      ∃ s s₂, runRef emptyName (eval emptyName 6) (.named "name") 2 (start default none) =
          some (true, s) ∧
        (keeping emptyName ⟨23⟩ s).2.leave emptyName (runRef emptyName (eval emptyName 6))
          (fun _ _ _ => none) 1 1 (keeping emptyName ⟨23⟩ s).1 none true false none = some s₂ ∧
        (keeping emptyName ⟨23⟩ s).2.keptChild? emptyName (keeping emptyName ⟨23⟩ s).1 none true
          false = some ⟨0⟩ ∧
        s.log.isCommitted ⟨0⟩ = true ∧ (keeping emptyName ⟨23⟩ s).1 = ⟨1⟩ ∧ s₂.aborted = none ∧
        s₂.log.isCommitted ⟨0⟩ = false ∧ s.log.committedNodes.length = 1 ∧
        s₂.log.committedNodes.length = 1 :=
  ⟨by decide, _, _, rfl, rfl, rfl, rfl, rfl, rfl, rfl, rfl, rfl⟩

end Session

end Descent
