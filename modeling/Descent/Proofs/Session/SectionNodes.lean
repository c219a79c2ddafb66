import Descent.Proofs.Grammar.Onward
import Descent.Proofs.Session.GivenBack
import Descent.Proofs.Tree.Crossing

/-!
# The tokens of a section

A section that stays commits its own node, or puts one around the node before it. Either reaches from
the position at which the section was entered, or from further back, up to the one at which it is left
(`SectionSort.reaches_shape`). Nothing that is done later changes this as long as the node is there.
So in the tree of the parse all tokens of the section are below its node, unless another node cuts it
short (`SectionSort.tokens_below_node`), which a section with `left` or `leftInner` may do: the node
that it takes up was committed last, but it may be one in front of a section that is still open.
-/

namespace Descent

open Session (Steady continues_openMarker)

namespace MarkerLog

variable {log log' : MarkerLog} {m n x : Marker} {p q : Nat} {info : MarkerInfo}

/-! ## What later steps leave alone -/

/-- Whatever is done to the markers, of one that was committed nothing but the stage changes. -/
theorem info?_step {s : Session} (hs : s.log.Sound) (hi : s.log.info? m = some info)
    (hkind : info.kind.isSome = true) (step : MarkerStep) :
    ∃ stage, (step.run s).log.info? m = some { info with stage } := by
  have hsame : ∃ stage, s.log.info? m = some { info with stage } := ⟨info.stage, hi⟩
  cases step with
  | seek p => exact hsame
  | openAt p => exact ⟨info.stage, info?_openAt hi p⟩
  | commit x kind error =>
    obtain ⟨info', hi', -, hold⟩ := info?_commit hi x kind error s.position
    have hopen : info.stage ≠ .opened := fun ho => by
      rw [((hs.life hi).of_opened ho).2] at hkind
      cases hkind
    obtain rfl := hold hopen
    refine ⟨info'.stage, ?_⟩
    rw [MarkerStep.run, Session.log_commit]
    exact hi'
  | drop x => exact info?_drop hi x
  | wrap x =>
    refine ⟨info.stage, ?_⟩
    rw [MarkerStep.run, Session.log_wrap]
    exact info?_wrap hi x
  | rollback x =>
    rw [MarkerStep.run]
    rcases s.log_rollback x with he | ⟨q, hr⟩
    · rw [he]
      exact hsame
    · obtain ⟨-, -, hl⟩ := rollback_eq_some_iff.1 hr
      rw [← hl]
      exact info?_unwind hi s.log.entries x

/-! ## New nodes -/

/-- Every node that was not one in the old log reaches from `p` or further back up to `q` or further
ahead. -/
structure Reaches (old : MarkerLog) (p q : Nat) (log : MarkerLog) : Prop where
  nodes : ∀ n, log.isCommitted n = true → old.isCommitted n = false →
    log.start n ≤ p ∧ q ≤ log.stop n

theorem Reaches.refl (log : MarkerLog) (p q : Nat) : log.Reaches p q log where
  nodes n hn hnot := by
    rw [hn] at hnot
    cases hnot

theorem Reaches.of_info {old : MarkerLog} (h : old.Reaches p q log)
    (hn : ∀ n, log'.isCommitted n = true → log.isCommitted n = true ∧ log'.start n = log.start n ∧
      log'.stop n = log.stop n) : old.Reaches p q log' where
  nodes n hn' hnot := by
    obtain ⟨hcommitted, hstart, hstop⟩ := hn n hn'
    rw [hstart, hstop]
    exact h.nodes n hcommitted hnot

theorem Reaches.drop {old : MarkerLog} (h : old.Reaches p q log) (m : Marker) :
    old.Reaches p q (log.drop m) := by
  refine h.of_info fun n hn => ?_
  have hn := isCommitted_iff_stage?.2 (stage?_of_drop (by decide) (isCommitted_iff_stage?.1 hn))
  obtain ⟨info, hi, -⟩ := isCommitted_iff.1 hn
  obtain ⟨stage, hd⟩ := info?_drop hi m
  exact ⟨hn, by simp [MarkerLog.start, hi, hd], by simp [stop, hi, hd]⟩

theorem Reaches.commit {old : MarkerLog} (h : old.Reaches p q log) (hm : log.start m ≤ p) {x : Nat}
    (hq : q ≤ x) (kind : Kind) (error : Option SyntaxError) :
    old.Reaches p q (log.commit m kind error x) := by
  by_cases hopen : log.stage? m = some .opened
  · refine ⟨fun n hn hnot => ?_⟩
    by_cases hnm : n = m
    · subst hnm
      obtain ⟨info, hi, hs⟩ := Option.map_eq_some_iff.1 hopen
      have hinfo := info?_commit_self hi hs kind error x
      have hstart : log.start n = info.start := by simp [MarkerLog.start, hi]
      refine ⟨?_, ?_⟩
      · simp only [MarkerLog.start, hinfo, Option.map_some, Option.getD_some]
        omega
      · simp only [stop, hinfo, Option.map_some, Option.getD_some]
        omega
    · have hinfo : (log.commit m kind error x).info? n = log.info? n :=
        info?_commit_of_ne (Ne.symm hnm) kind error x
      rw [MarkerLog.start, stop, hinfo]
      refine h.nodes n ?_ hnot
      rwa [isCommitted, stage?, hinfo] at hn
  · rw [MarkerLog.commit, if_neg hopen]
    exact h

theorem start_wrap_fresh (log : MarkerLog) (m : Marker) :
    (log.wrap m).2.start log.fresh = log.start m := by
  simp [MarkerLog.start, info?, wrap, fresh]

/-- A node is put around a marker. -/
theorem Reaches.enclose {old : MarkerLog} (h : old.Reaches p q log) (hm : log.start m ≤ p) {x : Nat}
    (hq : q ≤ x) (kind : Kind) (error : Option SyntaxError) :
    old.Reaches p q (log.enclose m kind error x) := by
  refine Reaches.commit (h.of_info fun n hn => ?_) ?_ hq kind error
  · have hne : n ≠ log.fresh := by
      rintro rfl
      rw [isCommitted_iff_stage?, stage?_wrap, if_pos rfl] at hn
      cases hn
    rw [isCommitted_iff_stage?, stage?_wrap, if_neg hne] at hn
    have hlt := number_lt_of_stage? hn
    rw [MarkerLog.start, stop, info?_wrap_of_lt hlt]
    exact ⟨isCommitted_iff_stage?.2 hn, rfl, rfl⟩
  · rw [start_wrap_fresh]
    exact hm

end MarkerLog

open MarkerLog (Reaches)

namespace Session

/-- What is known of a marker that was committed does not change any more, but for the stage. -/
theorem LeadsTo.info? {s s' : Session} {m : Marker} {info : MarkerInfo} (h : s.LeadsTo s')
    (hs : s.log.Sound) (hi : s.log.info? m = some info) (hkind : info.kind.isSome = true) :
    ∃ stage, s'.log.info? m = some { info with stage } := by
  induction h generalizing info with
  | still h => exact ⟨info.stage, h ▸ hi⟩
  | step step s _ => exact MarkerLog.info?_step hs hi hkind step
  | trans h _ ih ih' =>
    obtain ⟨stage, hi₁⟩ := ih hs hi hkind
    have h₁ := ih' (h.sound hs) hi₁ hkind
    exact h₁

variable {g : Setup} {old : MarkerLog} {p q : Nat} {s : Session} {m left : Marker} {frame : Frame}

theorem reaches_widen (h : old.Reaches p q s.log) (hm : s.log.start m ≤ p) (hq : q ≤ s.position) :
    old.Reaches p q (s.widen m).log := by
  rcases widen_cases m s with he | ⟨-, kind, error, he⟩
  · rw [he]
    exact h
  · rw [he, log_drop, log_enclose]
    exact (h.enclose hm hq kind error).drop m

theorem start_drop (m n : Marker) (s : Session) : (s.drop m).log.start n = s.log.start n := by
  cases hi : s.log.info? n with
  | none =>
    have hnone : (s.drop m).log.info? n = none := by
      rw [MarkerLog.info?_eq_none_iff, log_drop, MarkerLog.size_drop]
      exact MarkerLog.info?_eq_none_iff.1 hi
    rw [MarkerLog.start, hnone, MarkerLog.start, hi]
  | some info =>
    obtain ⟨stage, hd⟩ := MarkerLog.info?_drop hi m
    simp [MarkerLog.start, hi, hd]

theorem start_commit (m n : Marker) (kind : Kind) (error : Option SyntaxError) (s : Session) :
    (s.commit m kind error).log.start n = s.log.start n := by
  rw [log_commit]
  cases hi : s.log.info? n with
  | none =>
    have hnone : (s.log.commit m kind error s.position).info? n = none := by
      rw [MarkerLog.info?_eq_none_iff, MarkerLog.size_commit]
      exact MarkerLog.info?_eq_none_iff.1 hi
    rw [MarkerLog.start, hnone, MarkerLog.start, hi]
  | some info =>
    obtain ⟨info', hi', hstart, -⟩ := MarkerLog.info?_commit hi m kind error s.position
    simp [MarkerLog.start, hi, hi', hstart]

theorem reaches_commitAs (h : old.Reaches p q s.log) (hm : s.log.start m ≤ p)
    (hq : q ≤ s.position) (kind : Kind) : old.Reaches p q (s.commitAs m kind).log := by
  rw [commitAs, log_commit]
  exact h.commit hm hq kind none

/-- The marker of a section that stays is committed where its modifiers want it. -/
theorem reaches_placeNode (h : old.Reaches p q s.log) (hm : s.log.start m ≤ p)
    (hq : q ≤ s.position) (hleft : ∀ left, frame.leftNode = some left → s.log.start left ≤ p)
    (kind : Kind) : old.Reaches p q (s.placeNode g frame m kind).log := by
  unfold placeNode
  split
  · exact h.drop m
  · split
    · next left hl =>
      split
      · have hcommit := reaches_commitAs h hm hq kind
        refine reaches_widen hcommit ?_ ?_
        · rw [commitAs, start_commit]
          exact hleft left hl
        · rw [commitAs, position_commit]
          exact hq
      · show old.Reaches p q ((s.drop m).enclose left kind none).log
        rw [log_enclose]
        refine Reaches.enclose (h.drop m) ?_ hq kind none
        rw [← log_drop, start_drop]
        exact hleft left hl
    · split
      · have hq' : q ≤ (s.toSignificant g).position :=
          Nat.le_trans hq (g.le_significant s.position)
        exact reaches_commitAs (s := s.toSignificant g) h hm hq' kind
      · exact reaches_commitAs h hm hq kind

/-- Of the log and the position no more changes than that the child is dropped. -/
theorem absorbChild_cases (g : Setup) (frame : Frame) (kind : Kind) (s : Session) :
    (s.absorbChild g frame kind).2.position = s.position ∧
      ((s.absorbChild g frame kind).2.log = s.log ∨
        ∃ child, (s.absorbChild g frame kind).2.log = (s.drop child).log) := by
  unfold absorbChild
  split
  · next child _ => exact ⟨rfl, .inr ⟨child, rfl⟩⟩
  · exact ⟨rfl, .inl rfl⟩

theorem reaches_commitShaped (hm : s.log.start m ≤ p)
    (hleft : ∀ left, frame.leftNode = some left → s.log.start left ≤ p) (kind : Kind) :
    s.log.Reaches p s.position (s.commitShaped g frame m kind).log := by
  obtain ⟨hposition, hlog⟩ := s.absorbChild_cases g frame kind
  have hstart (x : Marker) : (s.absorbChild g frame kind).2.log.start x = s.log.start x := by
    rcases hlog with he | ⟨child, he⟩
    · rw [he]
    · rw [he, start_drop]
  have hreaches : s.log.Reaches p s.position (s.absorbChild g frame kind).2.log := by
    rcases hlog with he | ⟨child, he⟩
    · rw [he]
      exact .refl ..
    · rw [he]
      exact (Reaches.refl ..).drop child
  rw [commitShaped_eq]
  refine reaches_placeNode hreaches ?_ (Nat.le_of_eq hposition.symm) (fun left hl => ?_) _
  · rw [hstart]
    exact hm
  · rw [hstart]
    exact hleft left hl

/-- When a section that stays is left, all new nodes are its own. -/
theorem reaches_shapeSection (hahead : frame.modifiers.looksAhead = false)
    (hm : s.log.start m ≤ p) (hleft : ∀ left, frame.leftNode = some left → s.log.start left ≤ p)
    (kind : Option Kind) :
    s.log.Reaches p s.position (s.shapeSection g frame m kind true).2.log := by
  have hdrop : s.log.Reaches p s.position (s.dropAny (some m)).log :=
    (Reaches.refl ..).drop m
  have hmarker (keeps : Bool) : s.leftMarker g frame m keeps = (some m, frame, s) := by
    rw [leftMarker, hahead]
    rfl
  rw [shapeSection_eq, hmarker]
  unfold settleMarker
  cases kind with
  | some kind => exact reaches_commitShaped hm hleft kind
  | none =>
    cases hl : frame.leftNode with
    | none => simpa [hl] using hdrop
    | some left =>
      cases hinner : frame.modifiers.leftInner with
      | false => simpa [hl, hinner] using hdrop
      | true =>
        have hstart : (s.dropAny (some m)).log.start left ≤ p := by
          rw [dropAny, start_drop]
          exact hleft left hl
        simpa [hl, hinner] using reaches_widen hdrop hstart (Nat.le_refl s.position)

end Session

namespace SectionSort

variable {g : Setup} {s s₁ : Session} {kind : Option Kind} {result pinned : Bool}

/-- Settles the marker of a section that is left. -/
def shape (g : Setup) (m : Marker) (kind : Option Kind) (result pinned : Bool) :
    SectionSort → Session → Session
  | simple, s => s.closeMarker m kind result
  | framed .., s =>
    match s.frames with
    | [] => s
    | f :: fs => (s.shape g f fs m kind result pinned).2

/-- Whether a section stays that is left with a result and a pin. -/
def stays (result pinned : Bool) : SectionSort → Bool
  | simple => result
  | framed .. => result || pinned

def looksAhead : SectionSort → Bool
  | simple => false
  | framed _ modifiers _ _ => modifiers.looksAhead

theorem log_enter (sort : SectionSort) :
    (sort.enter g s).2.log = ((s.entering g).openMarker g).2.log := by
  cases sort with
  | simple => rfl
  | framed level modifiers kind name => exact Session.log_enter g level modifiers kind name s

theorem position_enter (sort : SectionSort) :
    (sort.enter g s).2.position = g.significant (s.entering g).position := by
  cases sort with
  | simple => rfl
  | framed level modifiers kind name => exact Session.position_enter g level modifiers kind name s

theorem hooksOpen_enter (sort : SectionSort) (hs : s.HooksOpen) :
    (sort.enter g s).2.HooksOpen := by
  cases sort with
  | simple => exact Work.hooksOpen_entering hs
  | framed level modifiers kind name => exact Work.hooksOpen_enter hs

/-- Every node of a section that stays reaches from where the section was entered, or from further
back, to where it is left. -/
theorem reaches_shape (sort : SectionSort) (hs : s.Regular) (hascends : s.Ascends)
    (hahead : sort.looksAhead = false) (hstays : sort.stays result pinned = true)
    (hbody : BalancedRun (fun _ => true) g (sort.enter g s).2 s₁) :
    s₁.log.Reaches (sort.enter g s).2.position s₁.position
      (sort.shape g (sort.enter g s).1 kind result pinned s₁).log := by
  have hentering : (s.entering g).Regular := .entering hs
  have hopen := hentering.log.openAt (g.significant (s.entering g).position)
  have hwork := hbody.work (sort.hooksOpen_enter hs.hooks)
  have hlog := sort.log_enter (g := g) (s := s)
  have hcontinues : ((s.entering g).openMarker g).2.log.Continues s₁.log := by
    rw [← hlog]
    exact hwork.continues (hlog ▸ hopen)
  have hm : s₁.log.start ((s.entering g).openMarker g).1 ≤ (sort.enter g s).2.position := by
    have hstart := hcontinues.start_eq hopen List.mem_cons_self
    exact Nat.le_of_eq (hstart.trans ((Session.start_openMarker g _).trans sort.position_enter.symm))
  cases sort with
  | simple =>
    obtain rfl : result = true := hstays
    cases kind with
    | some kind => exact Session.reaches_commitAs (.refl ..) hm (Nat.le_refl _) kind
    | none => exact (Reaches.refl ..).drop _
  | framed level modifiers early name =>
    obtain ⟨f, fs, hfs, hf, -⟩ := Work.exists_frame rfl hwork
    have hadmitted := (@Work.admitted_enteredFrame (fun _ => true) g s level modifiers early name
      rfl).becomes hf
    -- the node on the left was there when the section was entered
    have hagain : (s.entering g).Ascends :=
      ((@Work.reportAgain (fun _ => true) g s).ascends hs.log hascends).1
    have hleft (left : Marker) (hl : f.leftNode = some left) :
        s₁.log.start left ≤ ((framed level modifiers early name).enter g s).2.position := by
      have hmem := MarkerLog.start_mem_of_lastCommitted? hentering.log (hadmitted.left left hl).2
      rw [position_enter, hcontinues.start_eq hopen (List.mem_cons_of_mem _ hmem)]
      have hle := (Session.ascends_openMarker hagain hentering.log g).start_le
        (List.mem_cons_of_mem _ hmem)
      exact hle
    have hahead : f.modifiers.looksAhead = false := by
      rw [hf.modifiers]
      exact hahead
    have hstays : (result || pinned) = true := hstays
    let left := { s₁ with frames := fs }.note (.sectionLeft f result pinned)
    have hshape := Session.reaches_shapeSection (g := g) (s := left) hahead hm hleft
      (f.kind <|> kind)
    rw [shape, hfs]
    simp only [Session.shape, hstays]
    exact hshape

/-- Leaving a section continues the log in which its marker was settled. -/
theorem continues_shape {run : Runner} {hook : HookRunner} {rounds : Nat}
    {eatMore : Option RuleRef} {s₂ : Session} (sort : SectionSort)
    (hrun : run.Balanced (fun _ => true) g) (hs : s.Regular)
    (hbody : BalancedRun (fun _ => true) g (sort.enter g s).2 s₁)
    (hleave : sort.leave g run hook rounds (sort.enter g s).1 kind result pinned eatMore s₁ =
      some s₂) :
    (sort.shape g (sort.enter g s).1 kind result pinned s₁).log.Sound ∧
      (sort.shape g (sort.enter g s).1 kind result pinned s₁).log.Continues s₂.log := by
  have hwork := hbody.work (sort.hooksOpen_enter hs.hooks)
  have hentering : (s.entering g).Regular := .entering hs
  cases sort with
  | simple =>
    have hclosed := Work.closeMarker hwork kind result
    rw [SectionSort.leave, Session.leaveSimple_eq] at hleave
    obtain ⟨u, hu, hleave⟩ := Option.bind_eq_some_iff.1 hleave
    have hcalm := Work.calm_runLevelHooks (Work.hooks_lt_of_work hs.hooks hclosed) hu
    obtain rfl := Option.some.inj hleave
    have hsound := (hclosed.continues hentering.log).sound
    refine ⟨hsound, ?_⟩
    show MarkerLog.Continues _ u.log
    rw [hcalm.log]
    exact .refl hsound
  | framed level modifiers early name =>
    obtain ⟨f, fs, hfs, hf, hshape⟩ := Work.exists_shape rfl hwork kind result pinned
    have hlevel : f.level = level := hf.level
    rw [SectionSort.leave, Session.leave_eq hfs hlevel] at hleave
    obtain ⟨u, hu, rfl⟩ := Work.exists_settle hrun.works hs.hooks hshape hleave
    have hsound := (hshape.continues hentering.log).sound
    rw [shape, hfs]
    exact ⟨hsound, hu.continues hsound⟩

end SectionSort

/-- The tree of a parse is that of the log it ended with. -/
theorem Session.tree_of_parse {g : Setup} {fuel : Nat} {root : Kind} {rule : RuleRef}
    {limits : Limits} {caret : Option Nat} {o : Output}
    (h : (start limits caret).parse g fuel root rule = some o) :
    o.tree = o.session.log.toTree g.source g.language root := by
  rw [parse_eq] at h
  obtain ⟨x, -, h⟩ := Option.bind_eq_some_iff.1 h
  obtain ⟨s, -, h⟩ := Option.bind_eq_some_iff.1 h
  cases h
  rfl

open Grammar (eval runRef runHook)

/-- All tokens of a section that stays are below the node it commits, if that is still there at the end
of the parse, but for those behind the end of another node that cuts it. -/
theorem SectionSort.tokens_below_node {g : Setup} {fuel rounds : Nat} {root : Kind} {rule : RuleRef}
    {limits : Limits} {caret : Option Nat} {s s₁ s₂ : Session} {kind : Option Kind}
    {result pinned : Bool} {eatMore : Option RuleRef} {n : Marker} {o : Output}
    (sort : SectionSort) (hpairs : g.language.delimiters = [])
    (hg : g.grammar.Balanced fun _ => true) (hahead : sort.looksAhead = false)
    (hstays : sort.stays result pinned = true)
    (hs : Session.Visited g fuel root rule limits caret s)
    (hbody : BalancedRun (fun _ => true) g (sort.enter g s).2 s₁)
    (hleave : sort.leave g (runRef g (eval g rounds)) (runHook (eval g rounds)) rounds
      (sort.enter g s).1 kind result pinned eatMore s₁ = some s₂)
    (hnew : s₁.log.isCommitted n = false)
    (hcommitted :
      (sort.shape g (sort.enter g s).1 kind result pinned s₁).log.isCommitted n = true)
    (hparse : (Session.start limits caret).parse g fuel root rule = some o)
    (hafter : s₂.LeadsTo o.session)
    (hstill : o.session.log.isCommitted n = true) :
    ∃ p, o.session.log.HasPlace root o.tree n p ∧ o.session.log.kind? n = some p.tree.kind ∧
      p.tree.leaves = g.source.between p.first p.stop ∧
      ∀ i < g.source.size, g.isTriviaAt i = false → (sort.enter g s).2.position ≤ i →
        i < s₁.position → (p.first ≤ i ∧ i < p.stop) ∨
          ∃ y, o.session.log.Cuts root y n ∧ o.session.log.stop y ≤ i := by
  have hstart := Session.Regular.start limits caret
  have hempty : (Session.start limits caret).Ascends := List.pairwise_singleton ..
  have hamid := hs.amid hpairs hg rfl
  have hend := (Session.Visited.ends hparse).amid hpairs hg rfl
  have hreaches : s₁.log.Reaches (sort.enter g s).2.position s₁.position
      (sort.shape g (sort.enter g s).1 kind result pinned s₁).log :=
    sort.reaches_shape (hamid.regular hstart) (hamid.ascends hstart hempty) hahead
      hstays hbody
  obtain ⟨hfrom, hto⟩ := hreaches.nodes n hcommitted hnew
  -- what is known of the node when the marker of the section is settled is known to the end
  obtain ⟨hsound, hcontinues⟩ := sort.continues_shape (Grammar.balanced hg rounds)
    (hamid.regular hstart) hbody hleave
  obtain ⟨info, k, hi, -, -, hk⟩ := MarkerLog.exists_info hsound hcommitted
  obtain ⟨info', hi', -, hsame⟩ := hcontinues.infos n info hi
  obtain ⟨stage, rfl⟩ := hsame (by simp [hk])
  obtain ⟨stage', hlast⟩ := hafter.info? hcontinues.sound hi' (by simp [hk])
  have hstarts : o.session.log.start n ≤ (sort.enter g s).2.position := by
    simpa [MarkerLog.start, hi, hlast] using hfrom
  have hstops : s₁.position ≤ o.session.log.stop n := by
    simpa [MarkerLog.stop, hi, hlast] using hto
  obtain ⟨p, hplace, hkind, hleaves, hcovers⟩ := MarkerLog.exists_place (hend.regular hstart).log
    (hend.ascends hstart hempty) hstill g.source g.language root
  rw [← Session.tree_of_parse hparse] at hplace
  refine ⟨p, hplace, hkind, hleaves, fun i hi htrivia hfirst hstop => ?_⟩
  exact hcovers i hi htrivia (Nat.le_trans hstarts hfirst) (Nat.lt_of_lt_of_le hstop hstops)

open Session (Calm Visited start enterRoot)

/-- A name, and a statement with a section inside that takes up the node before it. -/
def splicing : Setup where
  source := { text := "a+b;", tokens :=
    [⟨⟨3⟩, ⟨0, 1⟩⟩, ⟨⟨6⟩, ⟨1, 2⟩⟩, ⟨⟨3⟩, ⟨2, 3⟩⟩, ⟨⟨10⟩, ⟨3, 4⟩⟩] }
  language := (LanguageTable.toBareLanguage {})
  grammar := [("statement",
    .seq
      (.seq (.prim (.enter "name" {} (some ⟨24⟩) none 0)) <|
        .seq (.prim (.consume ⟨3⟩)) <|
        .leave "name" none (.const true) (.const false) none 0) <|
    .seq (.prim (.enter "statement" {} (some ⟨21⟩) none 0)) <|
    .seq
      (.seq (.prim (.consume ⟨6⟩)) <|
        .seq (.prim (.enter "sum" { left := true } (some ⟨23⟩) none 0)) <|
        .seq (.prim (.consume ⟨3⟩)) <|
        .seq (.leave "sum" none (.const true) (.const false) none 0) <|
        .prim (.consume ⟨10⟩)) <|
    .leave "statement" none (.const true) (.const false) none 0)]

/-- The section of the statement. -/
def spliced : SectionSort := .framed 1 {} (some ⟨21⟩) none

/-- The statement is parsed, and between two states its section is entered and left, which commits
marker 2. -/
structure SplicedRun (s s₁ s₂ : Session) (o : Output) : Prop where
  parse : (start {} none).parse splicing 12 ⟨20⟩ (.named "statement") = some o
  visited : Visited splicing 12 ⟨20⟩ (.named "statement") {} none s
  body : BalancedRun (fun _ => true) splicing (spliced.enter splicing s).2 s₁
  leave : spliced.leave splicing (runRef splicing (eval splicing 8)) (runHook (eval splicing 8)) 8
    (spliced.enter splicing s).1 none true false none s₁ = some s₂
  after : s₂.LeadsTo o.session
  marker : (spliced.enter splicing s).1 = ⟨2⟩
  entered : (spliced.enter splicing s).2.position = 1
  left : s₁.position = 4
  committed : s₁.log.isCommitted ⟨2⟩ = false ∧
    (spliced.shape splicing ⟨2⟩ none true false s₁).log.isCommitted ⟨2⟩ = true

theorem exists_splicedRun {o : Output}
    (hparse : (start {} none).parse splicing 12 ⟨20⟩ (.named "statement") = some o) :
    ∃ s s₁ s₂, SplicedRun s s₁ s₂ o := by
  have hg : splicing.grammar.Balanced fun _ => true := by decide
  have hevals : ∃ before enter body leave vars s vars₁ entered vars₂ s₁ s₂ vars₃ s₃,
      splicing.grammar.body "statement" = .seq before (.seq enter (.seq body leave)) ∧
      body.after (fun _ => true) [] = some [] ∧
      eval splicing 11 1 {} before (enterRoot splicing {} none).2 = some (true, vars, s) ∧
      (eval splicing 10 1 vars enter s = some (true, vars₁, entered) ∧
        Calm (spliced.enter splicing s).2 entered) ∧
      eval splicing 9 1 vars₁ body entered = some (true, vars₂, s₁) ∧
      spliced.leave splicing (runRef splicing (eval splicing 8)) (runHook (eval splicing 8)) 8
        (spliced.enter splicing s).1 none true false none s₁ = some s₂ ∧
      (eval splicing 9 1 vars₂ leave s₁ = some (true, vars₃, s₃) ∧ s₂.LeadsTo s₃) ∧
      (spliced.enter splicing s).1 = ⟨2⟩ ∧ (spliced.enter splicing s).2.position = 1 ∧
      s₁.position = 4 ∧ s₁.log.isCommitted ⟨2⟩ = false ∧
      (spliced.shape splicing ⟨2⟩ none true false s₁).log.isCommitted ⟨2⟩ = true :=
    ⟨_, _, _, _, _, _, _, _, _, _, _, _, _, rfl, rfl, rfl, ⟨rfl, .recordCall ..⟩, rfl, rfl,
      ⟨rfl, .still rfl⟩, rfl, rfl, rfl, rfl, rfl⟩
  obtain ⟨before, enter, body, leave, vars, s, vars₁, entered, vars₂, s₁, s₂, vars₃, s₃, hstatement,
    hafter, hbefore, ⟨henter, hcalm⟩, hbody, hleave, ⟨hleft, hrecorded⟩, hrest⟩ := hevals
  obtain ⟨hmarker, hentered, hposition, hopen, hcommitted⟩ := hrest
  have hvisited : Visited splicing 12 ⟨20⟩ (.named "statement") {} none s :=
    .inside rfl (hstatement ▸ .first rfl (.ends hbefore))
  have hvisited₃ : Visited splicing 12 ⟨20⟩ (.named "statement") {} none s₃ :=
    .inside rfl (hstatement ▸ .next rfl hbefore rfl (.next rfl henter rfl (.next rfl hbody rfl
      (.ends hleft))))
  have hinside := Grammar.keepsInside hg 9 hbody hafter (.none (.calm hcalm))
  cases hinside with
  | none hrun =>
    exact ⟨s, s₁, s₂, hparse, hvisited, hrun, hleave, hrecorded.trans (hvisited₃.leadsTo hparse),
      hmarker, hentered, hposition, hopen, hcommitted⟩

/-- The node of the statement is cut by that of the section inside it. -/
theorem SectionSort.tokens_below_node_splicing :
    ∃ s s₁ s₂ o p, SplicedRun s s₁ s₂ o ∧ o.session.log.isCommitted ⟨2⟩ = true ∧
      o.session.log.HasPlace ⟨20⟩ o.tree ⟨2⟩ p ∧
      ∀ i < 4, 1 ≤ i → (p.first ≤ i ∧ i < p.stop) ∨
        ∃ y, o.session.log.Cuts ⟨20⟩ y ⟨2⟩ ∧ o.session.log.stop y ≤ i := by
  have hrun : ((start {} none).parse splicing 12 ⟨20⟩ (.named "statement")).map
      (fun o => o.session.log.isCommitted ⟨2⟩) = some true := by decide +kernel
  obtain ⟨o, hparse, hstill⟩ := Option.map_eq_some_iff.1 hrun
  obtain ⟨s, s₁, s₂, h⟩ := exists_splicedRun hparse
  obtain ⟨p, hplace, -, -, hcovers⟩ := SectionSort.tokens_below_node spliced rfl (by decide) rfl rfl
    h.visited h.body h.leave h.committed.1 (h.marker ▸ h.committed.2) hparse h.after hstill
  have htrivia : ∀ i < 4, splicing.isTriviaAt i = false := by decide
  exact ⟨s, s₁, s₂, o, p, h, hstill, hplace, fun i hi hle =>
    hcovers i hi (htrivia i hi) (h.entered ▸ hle) (h.left ▸ hi)⟩

/-- The last token of the statement is not below its node. -/
theorem SectionSort.token_not_below_node_splicing :
    ∃ s s₁ s₂ o, SplicedRun s s₁ s₂ o ∧ o.fatal = none ∧ o.session.log.isCommitted ⟨2⟩ = true ∧
      ∀ p, o.session.log.HasPlace ⟨20⟩ o.tree ⟨2⟩ p → ¬ (p.first ≤ 3 ∧ 3 < p.stop) := by
  have hrun : ((start {} none).parse splicing 12 ⟨20⟩ (.named "statement")).map
      (fun o => (o.fatal.isNone && o.session.log.isCommitted ⟨2⟩, o.session.log.rootMarker? ⟨20⟩,
        ((o.session.log.innerNodes ⟨20⟩).zip o.tree.innerPlaces).map fun x =>
          (x.1.number, x.2.first, x.2.stop))) =
      some (true, some ⟨0⟩, [(4, 0, 3), (1, 0, 1), (2, 1, 3)]) := by decide +kernel
  obtain ⟨o, hparse, heq⟩ := Option.map_eq_some_iff.1 hrun
  simp only [Prod.mk.injEq, Bool.and_eq_true] at heq
  obtain ⟨⟨hfatal, hstill⟩, hroot, hplaces⟩ := heq
  obtain ⟨s, s₁, s₂, h⟩ := exists_splicedRun hparse
  refine ⟨s, s₁, s₂, o, h, Option.isNone_iff_eq_none.1 hfatal, hstill, fun p hp => ?_⟩
  cases hp with
  | root hm =>
    rw [hroot] at hm
    cases hm
  | inner hp =>
    have hmem : (2, p.first, p.stop) ∈ [(4, 0, 3), (1, 0, 1), (2, 1, 3)] :=
      hplaces ▸ List.mem_map.2 ⟨_, hp, rfl⟩
    simp only [List.mem_cons, Prod.mk.injEq, List.not_mem_nil, or_false] at hmem
    omega

end Descent
