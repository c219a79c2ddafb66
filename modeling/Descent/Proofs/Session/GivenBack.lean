import Descent.Proofs.Grammar.Balanced
import Descent.Proofs.Session.RunWork
import Descent.Proofs.Session.SkipAll
import Descent.Proofs.Session.WorkLog

/-!
# Sections that give their input back

A section that looks ahead gives its input back, and so does one that failed without being pinned.
Whatever was done inside, then the position, the committed nodes, the level and the lookahead
context are as they were (`Session.leave_lookahead_restores`, `SectionSort.fail_restores`). Only the
kinds that sections inside have handed to those around stay handed over: rolling back does not reach
the frames.
-/

namespace Descent

open Session (Calm Steady Surroundings)
open Grammar (eval runRef)

namespace MarkerLog

variable {log : MarkerLog}

/-- A marker that is merely open is no node. -/
theorem brackets_openAt (h : log.Sound) (p : Nat) : (log.openAt p).2.brackets = log.brackets := by
  have hold (e : Entry) (he : e ∈ log.entries.reverse) :
      (log.openAt p).2.shapes e = log.shapes e := by
    have hcommitted : (log.openAt p).2.isCommitted e.marker = log.isCommitted e.marker := by
      rw [isCommitted, isCommitted, stage?, stage?,
        info?_openAt_of_lt (h.known e (List.mem_reverse.1 he))]
    cases e with
    | start m => exact hcommitted
    | commit m => exact hcommitted
    | drop m prior => rfl
  have hnew : (log.openAt p).2.shapes (.start log.fresh) = false := by
    simp [shapes, isCommitted, stage?, openAt, info?, fresh]
  have hentries : (log.openAt p).2.entries.reverse = log.entries.reverse ++ [.start log.fresh] :=
    List.reverse_cons
  rw [brackets, hentries, List.filter_append, List.filter_congr hold]
  simp [hnew, brackets]

theorem committedNodes_openAt (h : log.Sound) (p : Nat) :
    (log.openAt p).2.committedNodes = log.committedNodes := by
  refine committedNodes_congr (brackets_openAt h p) fun m hm => ?_
  obtain ⟨info, hi, -⟩ := isCommitted_iff.1 hm
  rw [hi, info?_openAt hi p]

end MarkerLog

namespace Session

/-- The kinds of the open sections, the innermost first. -/
def kinds (s : Session) : List (Option Kind) := s.frames.map (·.kind)

variable {allows : Modifiers → Bool} {g : Setup} {s s' s₁ t : Session} {run : Runner}
  {hook : HookRunner} {rounds level : Nat} {modifiers : Modifiers} {early kind : Option Kind}
  {name : Option String} {result : Bool} {frame : Frame} {m : Marker}

theorem Steady.kinds (h : Steady s s') : s'.kinds = s.kinds := by
  have hkinds (fs : List Frame) : fs.map (·.kind) = (fs.map Frame.core).map (·.kind) := by
    rw [List.map_map]
    rfl
  rw [Session.kinds, hkinds, h.frames, ← hkinds]
  rfl

/-! ## Leaving -/

/-- What becomes of the marker of a section that gives everything back. -/
theorem shapeSection_givesBack {stays : Bool}
    (h : stays = false ∨ frame.modifiers.looksAhead = true ∧ kind = none ∧
      (frame.modifiers.leftInner = true → frame.leftNode = none)) :
    (t.shapeSection g frame m kind stays).2 =
      { t.rollback m with lookahead := (t.rollback m).lookahead.leave frame.modifiers } := by
  rw [shapeSection_eq]
  by_cases hahead : frame.modifiers.looksAhead = true
  · have hkeeps : (kind.isSome && stays) = false := by
      rcases h with rfl | ⟨-, rfl, -⟩
      · exact Bool.and_false _
      · rfl
    have hmodifiers := Frame.modifiers_eq_of_core (Work.core_eraseSection t frame m)
    have hcore := Work.core_leftMarker (g := g) t frame m false
    have hleft : (t.leftMarker g frame m false).1 = none ∧ (t.leftMarker g frame m false).2.2 =
        { t.rollback m with lookahead := (t.rollback m).lookahead.leave frame.modifiers } := by
      unfold leftMarker endLookahead
      rw [if_pos hahead]
      simp only [hmodifiers]
      exact ⟨rfl, rfl⟩
    rw [hkeeps]
    dsimp only
    rw [hleft.1, hleft.2]
    unfold settleMarker
    rcases h with rfl | ⟨-, rfl, hnot⟩
    · rfl
    · rw [Frame.modifiers_eq_of_core hcore, Frame.leftNode_eq_of_core hcore]
      cases stays with
      | false => rfl
      | true =>
        by_cases hinner : frame.modifiers.leftInner = true
        · rw [hnot hinner]
          rfl
        · rw [Bool.eq_false_iff.2 hinner]
          cases frame.leftNode <;> rfl
  · obtain rfl : stays = false := h.resolve_right fun h => hahead h.1
    unfold leftMarker settleMarker
    rw [if_neg hahead, Work.leave_of_not_looksAhead (Bool.eq_false_iff.2 hahead)]
    rfl

/-- A section that succeeded or was not pinned and eats nothing more reports nothing when it is left. -/
theorem exists_settleErrors_calm (g : Setup) (run : Runner) (rounds : Nat) (frame : Frame)
    (kind : Option Kind) {result pinned : Bool} (h : (!result && pinned) = false) (t : Session) :
    ∃ t', t.settleErrors g run rounds frame kind result pinned none = some t' ∧ Steady t t' ∧
      t'.position = t.position := by
  have hname : Steady t (t.attemptsByName g frame kind (result || pinned)).2 :=
    .calm (Work.calm_attemptsByName t frame kind (result || pinned))
  have hposition := Work.position_attemptsByName g t frame kind (result || pinned)
  rw [settleErrors_eq]
  generalize t.attemptsByName g frame kind (result || pinned) = x at hname hposition
  refine ⟨x.2.modifyFrame (·.absorb x.1), ?_,
    hname.trans (.modifyFrame x.2 fun f => Work.core_absorb f x.1), hposition⟩
  simp only [settleFrame, ite_self, h, Bool.false_and, Bool.false_eq_true, if_false]
  rfl

/-- Where all hooks wait for sections further out, none is run. -/
theorem runLevelHooks_of_lt (g : Setup) (hook : HookRunner) (rounds : Nat) (kind : Option Kind)
    (hs : ∀ h ∈ s.hooks, h.level < s.level)
    (hkind : kind.isSome = true → s.log.lastCommitted?.isSome = true) :
    s.runLevelHooks g hook (rounds + 1) kind = some s := by
  have hfrom (m? : Option Marker) : s.runHooksFrom hook (rounds + 1) m? = some s := by
    rw [runHooksFrom]
    split
    · rfl
    · next h hooks hhooks =>
      rw [if_pos (hs h (by rw [hhooks]; exact List.mem_cons_self))]
  unfold runLevelHooks
  split
  · rfl
  · split
    · exact hfrom none
    · exact hfrom _
    · next hlast =>
      have hsome := hkind rfl
      rw [hlast] at hsome
      cases hsome

/-! ## What is restored -/

/-- A section was entered in the state `s`, by the marker that was opened when it had come to `r`. -/
theorem log_enter (g : Setup) (level : Nat) (modifiers : Modifiers) (early : Option Kind)
    (name : Option String) (s : Session) :
    (s.enter g level modifiers early name).2.log = ((s.entering g).openMarker g).2.log :=
  (steady_enter g level modifiers early name s).log

theorem start_openMarker (g : Setup) (s : Session) :
    (s.openMarker g).2.log.start (s.openMarker g).1 = g.significant s.position := by
  simp [openMarker, MarkerLog.start, MarkerLog.info?, MarkerLog.openAt, MarkerLog.fresh,
    toSignificant]

theorem position_enter (g : Setup) (level : Nat) (modifiers : Modifiers) (early : Option Kind)
    (name : Option String) (s : Session) :
    (s.enter g level modifiers early name).2.position = g.significant (s.entering g).position := by
  have hagain := significant_significant g
  unfold enter openFrame
  dsimp only
  split
  · exact hagain _
  · unfold abort
    split
    · exact hagain _
    · exact (hagain _).trans (hagain _)

/-- Rolling back changes nothing but the position and the log. -/
theorem rollback_eq (m : Marker) (s : Session) : s.rollback m =
    { s with position := (s.rollback m).position, log := (s.rollback m).log } := by
  unfold rollback
  split <;> rfl

theorem lookahead_rollback (m : Marker) (s : Session) :
    (s.rollback m).lookahead = s.lookahead := by
  rw [rollback_eq]

theorem kinds_rollback (m : Marker) (s : Session) : (s.rollback m).kinds = s.kinds := by
  rw [rollback_eq]
  rfl

/-- The position and the nodes are those of `s`. -/
structure GivesBack (s s' : Session) : Prop where
  position : s'.position = s.position
  brackets : s'.log.brackets = s.log.brackets
  nodes : s'.log.committedNodes = s.log.committedNodes

/-- Rolling back to a marker gives everything back that was done since it was opened. -/
theorem givesBack_rollback (hs : s.log.Sound) (h : (s.openMarker g).2.log.Continues t.log) :
    (s.openMarker g).2.GivesBack (t.rollback (s.openMarker g).1) := by
  let p := g.significant s.position
  have hsince := h.since s.log p hs (.intro hs p)
  obtain ⟨q, log', hr⟩ := hsince.exists_rollback
  obtain ⟨hq, hbrackets, hinfo⟩ := hsince.restore hs hr
  have hback : t.rollback (s.openMarker g).1 = { t with position := q, log := log' } := by
    rw [rollback, show (s.openMarker g).1 = s.log.fresh from rfl, hr]
  rw [hback]
  refine ⟨hq, ?_, ?_⟩
  · exact hbrackets.trans (MarkerLog.brackets_openAt hs p).symm
  · have hnodes := MarkerLog.committedNodes_congr hbrackets hinfo
    exact hnodes.trans (MarkerLog.committedNodes_openAt hs p).symm

theorem Regular.entering (hs : s.Regular) : (s.entering g).Regular :=
  have hagain := hs.work (@Work.reportAgain (fun _ => true) g s)
  ⟨hagain.log, Work.hooksOpen_entering hs.hooks, hagain.lookahead⟩

theorem Regular.openMarker (hs : s.Regular) : (s.openMarker g).2.Regular :=
  ⟨hs.log.openAt _, hs.hooks, hs.lookahead⟩

theorem Regular.enter (hs : s.Regular) : (s.enter g level modifiers early name).2.Regular := by
  have hentering := @Regular.entering g s hs
  have hsteady := steady_enter g level modifiers early name s
  refine ⟨?_, Work.hooksOpen_enter hs.hooks, ?_⟩
  · rw [hsteady.log]
    exact hentering.log.openAt _
  · rw [hsteady.lookahead]
    exact Lookahead.enter_admissible modifiers hentering.lookahead

/-- Inside a section everything around it is as it was entered. -/
theorem exists_frame_inside (hs : s.Regular)
    (hbody : Work allows g none (s.enter g level modifiers early name).2 s₁) :
    ∃ f fs, s₁.frames = f :: fs ∧ (s.enteredFrame g level modifiers early name).Becomes allows f ∧
      s₁.level = s.level + 1 ∧ s₁.hooks = s.hooks ∧
      s₁.lookahead = s.lookahead.enter modifiers := by
  have hagain := (@Work.reportAgain allows g s).surroundings
  have hsteady := steady_enter g level modifiers early name s
  obtain ⟨hlevel, hhooks, -, hframes, hahead⟩ := ((Work.steady hsteady).trans hbody).surroundings
  obtain ⟨f, fs, hf, -, hfs⟩ := List.forall₂_cons_left_iff.1 hframes
  have hentering : (s.entering g).lookahead = s.lookahead := hagain.lookahead hs.lookahead
  refine ⟨f, fs, hfs, hf, ?_, hhooks.trans hagain.hooks, ?_⟩
  · exact hlevel.trans (congrArg (· + 1) hagain.level)
  · refine (hahead ?_).trans (congrArg (·.enter modifiers) hentering)
    exact Lookahead.enter_admissible modifiers (hentering ▸ hs.lookahead)

/-- A section can be left that succeeded or was not pinned and eats nothing more, if no hook waits for it.
What it comes to is the settling of its marker. -/
theorem exists_leave_calm {pinned : Bool} {frames : List Frame} (run : Runner) (hook : HookRunner)
    (rounds : Nat) (hframes : s₁.frames = frame :: frames) (hlevel : frame.level = level)
    (hcalm : (!result && pinned) = false)
    (hhooks : ∀ h ∈ (s₁.shape g frame frames m kind result pinned).2.hooks,
      h.level < (s₁.shape g frame frames m kind result pinned).2.level)
    (hkind : (if pinned || result then frame.kind <|> kind else none).isSome = true →
      (s₁.shape g frame frames m kind result pinned).2.log.lastCommitted?.isSome = true) :
    ∃ u, s₁.leave g run hook (rounds + 1) level m kind result pinned none = some u.closeLevel ∧
      Steady (s₁.shape g frame frames m kind result pinned).2 u ∧
      u.position = (s₁.shape g frame frames m kind result pinned).2.position := by
  obtain ⟨u, hsettle, hu, hposition⟩ := exists_settleErrors_calm g run (rounds + 1)
    (s₁.shape g frame frames m kind result pinned).1 (frame.kind <|> kind) hcalm
    (s₁.shape g frame frames m kind result pinned).2
  rw [← hu.hooks, ← hu.level] at hhooks
  refine ⟨u, ?_, hu, hposition⟩
  rw [leave_eq hframes hlevel]
  dsimp only
  rw [hsettle, Option.bind_some, runLevelHooks_of_lt g hook rounds _ hhooks fun h => ?_,
    Option.bind_some]
  rw [hu.log]
  exact hkind h

/-- A section that gives everything back can be left. -/
theorem exists_leave_givesBack (hs : s.Regular)
    (hbody : BalancedRun allows g (s.enter g level modifiers early name).2 s₁)
    (hback : result = false ∨ modifiers.looksAhead = true ∧
      (∀ f ∈ s₁.frames.head?, (f.kind <|> kind) = none) ∧
      (modifiers.leftInner = true → (s.enteredFrame g level modifiers early name).leftNode = none)) :
    ∃ s₂, s₁.leave g run hook (rounds + 1) level (s.enter g level modifiers early name).1 kind
        result false none = some s₂ ∧
      (s.enter g level modifiers early name).2.GivesBack s₂ ∧
      s₂.level = s.level ∧ s₂.lookahead = s.lookahead ∧ s₂.kinds = s₁.kinds.tail := by
  have hbody := hbody.work (Work.hooksOpen_enter hs.hooks)
  obtain ⟨f, fs, hfs, hf, hlevel₁, hhooks₁, hcontext⟩ := exists_frame_inside hs hbody
  -- the marker is rolled back, and nothing else happens
  let m := (s.enter g level modifiers early name).1
  let t := { s₁ with frames := fs }.note (.sectionLeft f result false)
  have hshape : (s₁.shape g f fs m kind result false).2 =
      { t.rollback m with lookahead := (t.rollback m).lookahead.leave f.modifiers } := by
    refine shapeSection_givesBack ?_
    rw [hf.modifiers, hf.leftNode, Bool.or_false]
    exact hback.imp_right fun ⟨hahead, hnone, hleft⟩ => ⟨hahead, hnone f (by rw [hfs]; rfl), hleft⟩
  have hlevel : (s₁.shape g f fs m kind result false).2.level = s.level + 1 := by
    rw [hshape, rollback_eq]
    exact hlevel₁
  have hhooks : ∀ h ∈ (s₁.shape g f fs m kind result false).2.hooks,
      h.level < (s₁.shape g f fs m kind result false).2.level := by
    rw [hlevel, hshape, rollback_eq]
    intro h hh
    exact Nat.lt_succ_of_le (hs.hooks h (hhooks₁ ▸ hh))
  have hnokind : (if (false || result) = true then f.kind <|> kind else none) = none := by
    rcases hback with rfl | ⟨-, hnone, -⟩
    · rfl
    · rw [hnone f (by rw [hfs]; rfl), ite_self]
  obtain ⟨t', hleave, ht', hposition'⟩ := exists_leave_calm run hook rounds hfs hf.level
    (Bool.and_false (!result)) hhooks fun h => by
      rw [hnokind] at h
      cases h
  have hlevel' : t'.level = s.level + 1 := ht'.level.trans hlevel
  rw [hshape] at ht' hposition'
  have hrestored : (s.enter g level modifiers early name).2.GivesBack (t.rollback m) := by
    have hsound := (@Regular.entering g s hs).log
    have hentered := log_enter g level modifiers early name s
    have hcontinues := hbody.continues (hentered ▸ hsound.openAt _)
    rw [hentered] at hcontinues
    obtain ⟨hposition, hbrackets, hnodes⟩ := givesBack_rollback (t := t) hsound hcontinues
    exact ⟨hposition.trans (position_enter g level modifiers early name s).symm,
      hentered ▸ hbrackets, hentered ▸ hnodes⟩
  refine ⟨t'.closeLevel, hleave, ⟨?_, ?_, ?_⟩, ?_, ?_, ?_⟩
  · exact hposition'.trans hrestored.position
  · exact (congrArg MarkerLog.brackets ht'.log).trans hrestored.brackets
  · exact (congrArg MarkerLog.committedNodes ht'.log).trans hrestored.nodes
  · show t'.level - 1 = s.level
    rw [hlevel']
    rfl
  · show t'.lookahead = s.lookahead
    rw [ht'.lookahead, hf.modifiers]
    show (t.rollback m).lookahead.leave modifiers = _
    rw [lookahead_rollback]
    show s₁.lookahead.leave modifiers = _
    rw [hcontext, Lookahead.leave_enter modifiers hs.lookahead]
  · show t'.kinds = s₁.kinds.tail
    rw [ht'.kinds]
    show (t.rollback m).kinds = _
    rw [kinds_rollback, kinds, kinds, hfs]
    rfl

/-- A section that looks ahead, has no kind and is left without more ado gives back whatever was done
inside: its position, its nodes and the lookahead context are as they were. So are the kinds of the
sections around it, if it was handed none by a section inside and none was handed through it. -/
theorem leave_lookahead_restores (hs : s.Regular) (hahead : modifiers.looksAhead = true)
    (hbody : BalancedRun allows g (s.enter g level modifiers none name).2 s₁)
    (haround : s₁.kinds.tail = s.kinds)
    (hown : result = true → s₁.kinds.head? = some none)
    (hleft : result = true → modifiers.leftInner = true →
      (s.enteredFrame g level modifiers none name).leftNode = none) :
    ∃ s₂, s₁.leave g run hook (rounds + 1) level (s.enter g level modifiers none name).1 none
        result false none = some s₂ ∧
      s₂.position = (s.enter g level modifiers none name).2.log.start
        (s.enter g level modifiers none name).1 ∧
      s₂.log.brackets = (s.enter g level modifiers none name).2.log.brackets ∧
      s₂.log.committedNodes = (s.enter g level modifiers none name).2.log.committedNodes ∧
      s₂.kinds = s.kinds ∧ s₂.lookahead = s.lookahead := by
  have hback : result = false ∨ modifiers.looksAhead = true ∧
      (∀ f ∈ s₁.frames.head?, (f.kind <|> none) = none) ∧
      (modifiers.leftInner = true → (s.enteredFrame g level modifiers none name).leftNode = none) := by
    cases result with
    | false => exact .inl rfl
    | true =>
      refine .inr ⟨hahead, fun f hf => ?_, hleft rfl⟩
      have hkind : s₁.kinds.head? = some f.kind := by
        rw [kinds, List.head?_map, Option.mem_def.1 hf]
        rfl
      rw [Option.some.inj (hkind.symm.trans (hown rfl))]
      rfl
  obtain ⟨s₂, hleave, hgives, -, hlookahead, hkinds⟩ :=
    @exists_leave_givesBack _ _ _ _ run hook rounds _ _ _ _ _ _ hs hbody hback
  refine ⟨s₂, hleave, ?_, hgives.brackets, hgives.nodes, hkinds.trans haround, hlookahead⟩
  rw [hgives.position, position_enter, log_enter]
  exact (start_openMarker g (s.entering g)).symm

/-- A token, and a rule that makes a name of it in a section with some modifiers. -/
def naming (modifiers : Modifiers) : Setup where
  source := { text := "a", tokens := [⟨⟨3⟩, ⟨0, 1⟩⟩] }
  language := (LanguageTable.toBareLanguage {})
  limits := default
  grammar := [("name",
    .seq (.prim (.enter "name" modifiers none none 0)) <|
    .seq (.prim (.consume ⟨3⟩)) <|
    .leave "name" (some ⟨24⟩) (.const true) (.const false) none 0)]

/-- The state in which a lookahead section was entered first, and its marker. -/
def aheadFirst (g : Setup) : Marker × Session :=
  (start default none).enter g 1 { ahead := true } none none

theorem leave_lookahead_restores_naming :
    ∃ s₁ s₂, runRef (naming {}) (eval (naming {}) 6) (.named "name") 2
        (aheadFirst (naming {})).2 = some (true, s₁) ∧
      s₁.position = 1 ∧ s₁.log.committedNodes.length = 1 ∧
      s₁.leave (naming {}) (fun _ _ _ => none) (fun _ _ _ => none) 1 1 (aheadFirst (naming {})).1
        none true false none = some s₂ ∧ s₂.position = 0 ∧ s₂.log.committedNodes = [] := by
  have hrun : ∃ s₁, runRef (naming {}) (eval (naming {}) 6) (.named "name") 2
      (aheadFirst (naming {})).2 = some (true, s₁) ∧ s₁.position = 1 ∧
        s₁.log.committedNodes.length = 1 ∧ s₁.kinds = [none] := ⟨_, rfl, rfl, rfl, rfl⟩
  obtain ⟨s₁, hs₁, hposition, hlength, hkinds⟩ := hrun
  have hg : (naming {}).grammar.Balanced fun _ => true := by decide
  have hbody := Grammar.balanced hg 6 _ _ _ _ _ hs₁
  obtain ⟨s₂, hleave, hback, -, hnodes, -, -⟩ := @leave_lookahead_restores _ _ _ s₁
    (fun _ _ _ => none) (fun _ _ _ => none) 0 1 { ahead := true } none true
    (.start {} none) rfl hbody (congrArg List.tail hkinds)
    (fun _ => congrArg List.head? hkinds) (fun _ h => nomatch h)
  exact ⟨s₁, s₂, hs₁, hposition, hlength, hleave, hback, hnodes⟩

/-- A kind that is handed to a lookahead section makes a node of what it gives back. -/
theorem leave_lookahead_handed :
    (naming { upper := true }).grammar.Balanced (fun _ => true) ∧
      ∃ s₁ s₂, runRef (naming { upper := true }) (eval (naming { upper := true }) 6)
          (.named "name") 2 (aheadFirst (naming { upper := true })).2 = some (true, s₁) ∧
        s₁.leave (naming { upper := true }) (fun _ _ _ => none) (fun _ _ _ => none) 1 1
          (aheadFirst (naming { upper := true })).1 none true false none = some s₂ ∧
        s₂.aborted = none ∧ s₁.hooks = [] ∧
        (aheadFirst (naming { upper := true })).2.log.committedNodes = [] ∧
        s₂.log.committedNodes.length = 1 :=
  ⟨by decide, _, _, rfl, rfl, rfl, rfl, rfl, rfl⟩

end Session

/-! ## Sections that failed -/

/-- How a section is entered. -/
inductive SectionSort where
  /-- Without a frame. -/
  | simple
  | framed (level : Nat) (modifiers : Modifiers) (kind : Option Kind) (name : Option String)

namespace SectionSort

def enter (g : Setup) : SectionSort → Session → Marker × Session
  | simple, s => s.enterSimple g
  | framed level modifiers kind name, s => s.enter g level modifiers kind name

/-- Leaves a section; what is more than `kind` and `result` is for a section with a frame. -/
def leave (g : Setup) (run : Runner) (hook : HookRunner) (rounds : Nat) (m : Marker)
    (kind : Option Kind) (result pinned : Bool) (eatMore : Option RuleRef) :
    SectionSort → Session → Option Session
  | simple, s => s.leaveSimple g hook rounds m kind result
  | framed level _ _ _, s => s.leave g run hook rounds level m kind result pinned eatMore

/-- The frames of the sections around, as a section of the sort sees them from inside. -/
def around (s : Session) : SectionSort → List Frame
  | simple => s.frames
  | framed .. => s.frames.tail

variable {allows : Modifiers → Bool} {g : Setup} {s s₁ : Session} {run : Runner}
  {hook : HookRunner} {rounds : Nat} {kind : Option Kind} {sort : SectionSort}

theorem exists_leaveSimple_failed (hs : s.Regular)
    (hbody : BalancedRun allows g (s.enterSimple g).2 s₁) (kind : Option Kind) :
    ∃ s₂, s₁.leaveSimple g hook (rounds + 1) (s.enterSimple g).1 kind false = some s₂ ∧
      (s.enterSimple g).2.GivesBack s₂ ∧ s₂.level = s.level ∧ s₂.lookahead = s.lookahead ∧
      s₂.kinds = s₁.kinds := by
  have hsound : (s.entering g).log.Sound := (Session.Regular.entering hs).log
  have hbody : Work allows g none ((s.entering g).openMarker g).2 s₁ :=
    hbody.work (Work.hooksOpen_entering hs.hooks)
  let f (frame : Frame) := frame.forgetErrorsAfter (s₁.log.start (s.enterSimple g).1)
    (s₁.frames.tail.head?.bind (·.errorAt))
  have hforget : Steady s₁ (s₁.modifyFrame f) := by
    refine .modifyFrame s₁ fun x => ?_
    show (x.forgetErrorsAfter _ _).core = x.core
    unfold Frame.forgetErrorsAfter
    split <;> rfl
  have hclosed := Work.closeMarker hbody kind false
  have hlt := Work.hooks_lt_of_work hs.hooks hclosed
  have hleft := (Work.closeLevel hclosed).surroundings
  refine ⟨(s₁.closeMarker (s.enterSimple g).1 kind false).closeLevel, ?_, ?_, hleft.level,
    hleft.lookahead hs.lookahead, ?_⟩
  · rw [Session.leaveSimple_eq]
    show (Session.runLevelHooks g hook (rounds + 1) none _).bind _ = _
    rw [Session.runLevelHooks_of_lt g hook rounds none hlt fun h => nomatch h]
    rfl
  · have hcontinues := hbody.continues (hsound.openAt _)
    rw [← hforget.log] at hcontinues
    have hgives := Session.givesBack_rollback (t := s₁.modifyFrame f) hsound hcontinues
    exact ⟨hgives.position, hgives.brackets, hgives.nodes⟩
  · exact (Session.kinds_rollback _ (s₁.modifyFrame f)).trans hforget.kinds

/-- A section that fails without being pinned gives back whatever was done inside. The position and
the nodes are as right after it was entered, and the level and the lookahead context as before. So are
the kinds of the sections around it, if they were handed none. -/
theorem leave_failed_restores (sort : SectionSort) (hs : s.Regular)
    (hbody : BalancedRun allows g (sort.enter g s).2 s₁)
    (haround : (sort.around s₁).map (·.kind) = s.kinds) :
    ∃ s₂, sort.leave g run hook (rounds + 1) (sort.enter g s).1 kind false false none s₁ =
        some s₂ ∧
      s₂.position = (sort.enter g s).2.position ∧
      s₂.log.brackets = (sort.enter g s).2.log.brackets ∧
      s₂.log.committedNodes = (sort.enter g s).2.log.committedNodes ∧
      s₂.level = s.level ∧ s₂.lookahead = s.lookahead ∧ s₂.kinds = s.kinds := by
  cases sort with
  | simple =>
    obtain ⟨s₂, hleave, ⟨hposition, hbrackets, hnodes⟩, hlevel, hlookahead, hkinds⟩ :=
      @exists_leaveSimple_failed _ _ _ _ hook rounds hs hbody kind
    exact ⟨s₂, hleave, hposition, hbrackets, hnodes, hlevel, hlookahead, hkinds.trans haround⟩
  | framed level modifiers early name =>
    obtain ⟨s₂, hleave, ⟨hposition, hbrackets, hnodes⟩, hlevel, hlookahead, hkinds⟩ :=
      @Session.exists_leave_givesBack _ _ _ _ run hook rounds _ _ _ kind _ _ hs hbody (.inl rfl)
    have htail : s₁.kinds.tail = s.kinds := List.map_tail.symm.trans haround
    exact ⟨s₂, hleave, hposition, hbrackets, hnodes, hlevel, hlookahead, hkinds.trans htail⟩

/-- The state in which a section without a frame was entered inside the section of a statement, and
its marker. -/
def statementFirst (g : Setup) : Marker × Session :=
  simple.enter g ((Session.start default none).enter g 1 {} none none).2

theorem leave_failed_restores_naming :
    ∃ s₁ s₂, runRef (Session.naming {}) (eval (Session.naming {}) 6) (.named "name") 2
        (statementFirst (Session.naming {})).2 = some (true, s₁) ∧
      s₁.position = 1 ∧ s₁.log.committedNodes.length = 1 ∧
      simple.leave (Session.naming {}) (fun _ _ _ => none) (fun _ _ _ => none) 1
        (statementFirst (Session.naming {})).1 none false false none s₁ = some s₂ ∧
      s₂.position = 0 ∧ s₂.log.committedNodes = [] ∧ s₂.kinds = [none] := by
  have hrun : ∃ s₁, runRef (Session.naming {}) (eval (Session.naming {}) 6) (.named "name") 2
      (statementFirst (Session.naming {})).2 = some (true, s₁) ∧ s₁.position = 1 ∧
        s₁.log.committedNodes.length = 1 ∧ s₁.kinds = [none] := ⟨_, rfl, rfl, rfl, rfl⟩
  obtain ⟨s₁, hs₁, hposition, hlength, hkinds⟩ := hrun
  have hg : (Session.naming {}).grammar.Balanced fun _ => true := by decide
  have hstart : ((Session.start {} none).enter (Session.naming {}) 1 {} none none).2.Regular :=
    .enter (.start {} none)
  have hbody := Grammar.balanced hg 6 _ _ _ _ _ hs₁
  obtain ⟨s₂, hleave, hback, -, hnodes, -, -, hkinds₂⟩ := @leave_failed_restores _ _ _ s₁
    (fun _ _ _ => none) (fun _ _ _ => none) 0 none simple hstart hbody hkinds
  exact ⟨s₁, s₂, hs₁, hposition, hlength, hleave, hback, hnodes, hkinds₂⟩

/-- A kind that is handed to a section around stays there although the section inside failed. -/
theorem leave_failed_handed :
    (Session.naming { upper := true }).grammar.Balanced (fun _ => true) ∧
      ∃ s₁ s₂, runRef (Session.naming { upper := true }) (eval (Session.naming { upper := true }) 6)
          (.named "name") 2 (statementFirst (Session.naming { upper := true })).2 = some (true, s₁) ∧
        simple.leave (Session.naming { upper := true }) (fun _ _ _ => none) (fun _ _ _ => none) 1
          (statementFirst (Session.naming { upper := true })).1 none false false none s₁ =
            some s₂ ∧
        s₂.aborted = none ∧ s₁.hooks = [] ∧
        (statementFirst (Session.naming { upper := true })).2.kinds = [none] ∧
        s₂.kinds = [some ⟨24⟩] :=
  ⟨by decide, _, _, rfl, rfl, rfl, rfl, rfl, rfl⟩

end SectionSort

end Descent
