import Descent.Proofs.Grammar.Diagnostics
import Descent.Proofs.MarkerLog.Gains
import Descent.Proofs.Session.Raised

/-!
# What recovery does to the nodes

Where the rules that are run leave the nodes as they are and do not go back (`Runner.gentle`), recovery
only adds nodes: first, at most one error, and then chunks (`Session.Gained`). In the end it may widen the
node that was committed last when it began, and the nodes are `Kept`.
-/

namespace Descent

/-- The runner without the runs that change a node or go back: these have no answer. -/
def Runner.gentle (run : Runner) : Runner := fun rule level s =>
  (run rule level s).filter fun x =>
    s.log.sameNodes x.2.log && decide (s.position ≤ x.2.position)

namespace Session

variable {g : Setup} {s₀ s s' s₁ : Session} {error? : Option Marker} {m : Marker}

/-- From `s` to `s'` the nodes stay as they are, and the session does not go back. -/
structure Gentle (s s' : Session) : Prop where
  position : s.position ≤ s'.position
  sound : s.log.Sound → s'.log.Sound
  nodes : s.log.sameNodes s'.log = true

/-- Since `s₀` chunks and at most one error have come in, and the session has not gone back. -/
structure Gained (error? : Option Marker) (s₀ s : Session) : Prop where
  position : s₀.position ≤ s.position
  log : s₀.log.Gains error? s.log

/-- The nodes of `s₀` are in their places in `s`, with chunks and at most one error besides. A node that
was widened ends at the position. The session has not gone back. -/
structure Kept (s₀ s : Session) : Prop where
  position : s₀.position ≤ s.position
  log : ∃ place widened? error?, s₀.log.Keeps place widened? error? s.position s.log

namespace Gentle

theorem still (hlog : s'.log = s.log) (hposition : s.position ≤ s'.position) : Gentle s s' :=
  ⟨hposition, fun h => hlog ▸ h, hlog ▸ MarkerLog.sameNodes_refl s.log⟩

theorem refl (s : Session) : Gentle s s := still rfl (Nat.le_refl _)

theorem trans (h : Gentle s s₁) (h' : Gentle s₁ s') : Gentle s s' :=
  ⟨Nat.le_trans h.position h'.position, h'.sound ∘ h.sound,
    MarkerLog.sameNodes_trans h.nodes h'.nodes⟩

theorem calm (h : Calm s s') : Gentle s s' := still h.log h.position

theorem gained (h : Gentle s₀ s) (hs : s₀.log.Sound) : Gained none s₀ s :=
  ⟨h.position, (MarkerLog.Gains.refl hs).same (h.sound hs) h.nodes⟩

/-- What may be widened now was committed last before. -/
theorem brackets (h : Gentle s₀ s) (hlast : s.log.lastWidenable? = some m) :
    ∃ es, s₀.log.brackets = es ++ [.commit m] :=
  MarkerLog.brackets_eq_of_sameNodes h.nodes ▸ MarkerLog.brackets_of_lastWidenable? hlast

end Gentle

theorem Kept.still (h : Kept s₀ s) (hlog : s'.log = s.log) (hposition : s'.position = s.position) :
    Kept s₀ s' :=
  ⟨hposition ▸ h.position, by rw [hlog, hposition]; exact h.log⟩

/-! ## Gains -/

namespace Gained

theorem kept (h : Gained error? s₀ s) : Kept s₀ s :=
  ⟨h.position, id, none, error?, h.log.keeps _⟩

theorem gentle (h : Gained error? s₀ s) (hs : Gentle s s') : Gained error? s₀ s' :=
  ⟨Nat.le_trans h.position hs.position, h.log.same (hs.sound h.log.sound) hs.nodes⟩

theorem openMarker (h : Gained error? s₀ s) :
    Gained error? s₀ (s.openMarker g).2 ∧ s₀.log.isCommitted (s.openMarker g).1 = false :=
  ⟨⟨Nat.le_trans h.position (Smooth.openMarker g s).position, h.log.openAt _⟩,
    h.log.isCommitted_fresh⟩

theorem commitError (h : Gained none s₀ s) (hm : s₀.log.isCommitted m = false)
    (error : Option SyntaxError) : Gained (some m) s₀ (s.commit m .error error) := by
  refine ⟨Nat.le_trans h.position (Smooth.commit ..).position, ?_⟩
  rw [log_commit]
  exact h.log.commitError hm error _

/-- Grouping makes chunks and nothing else. -/
theorem invariant (g : Setup) (error? : Option Marker) (s₀ : Session) :
    MarkerInvariant g (Gained error? s₀) (fun m => s₀.log.isCommitted m = false) (· = .chunk) where
  calm h hc := h.gentle (.calm hc)
  openMarker h := h.openMarker
  commitAs kind h hm hkind := by
    subst hkind
    refine ⟨Nat.le_trans h.position (Smooth.commitAs ..).position, ?_⟩
    rw [commitAs, log_commit]
    exact h.log.commitChunk hm _
  drop h hm := ⟨h.position, h.log.drop hm⟩
  wrap {s m} h _ := by
    refine ⟨⟨Nat.le_trans h.position (Smooth.wrap s m).position, ?_⟩, ?_⟩
    · rw [log_wrap]
      exact h.log.wrap m
    · rw [fst_wrap]
      exact h.log.isCommitted_fresh

end Gained

/-! ## Widening -/

theorem position_widen (m : Marker) (s : Session) : (s.widen m).position = s.position := by
  rcases widen_cases m s with h | ⟨-, kind, error, h⟩
  · rw [h]
  · rw [h, drop, enclose, position_commit, position_wrap]

theorem position_widenOver (node : Option Marker) (site : Nat) (s : Session) :
    (s.widenOver node site).position = s.position := by
  unfold widenOver
  split
  · split
    · exact position_widen ..
    · rfl
  · rfl

/-- Widening a node renews it. -/
theorem log_widen_renew {info : MarkerInfo} {kind : Kind} (hi : s.log.info? m = some info)
    (hs : info.stage = .committed) (hkind : info.kind = some kind)
    (herror : ∀ e, info.error = some e → kind = .error) :
    (s.widen m).log = s.log.renew m kind info.error s.position := by
  have hkind? : s.log.kind? m = some kind := by
    rw [MarkerLog.kind?, hi, Option.bind_some, if_pos hs, hkind]
  have herror? : (s.wrap m).2.log.error? m = info.error := by
    rw [log_wrap, MarkerLog.error?, MarkerLog.info?_wrap hi]
    rfl
  unfold widen
  rw [hkind?]
  dsimp only
  rw [herror?, fst_wrap]
  cases he : info.error with
  | none => simp only [commitAs, log_drop, log_commit, log_wrap, position_wrap, MarkerLog.renew]
  | some e =>
    simp only [log_drop, log_commit, log_wrap, position_wrap, herror e he, MarkerLog.renew]

/-- The node that was committed last is kept where it is widened. -/
theorem Gained.widenOver (h : Gained error? s₀ s) (hold : s₀.log.ErrorsInInput)
    {node : Option Marker} (hnode : ∀ m, node = some m → ∃ es, s₀.log.brackets = es ++ [.commit m])
    (site : Nat) : Kept s₀ (s.widenOver node site) := by
  unfold Session.widenOver
  split
  · next m =>
    split
    · obtain ⟨es, hes⟩ := hnode m rfl
      have hcommitted : s₀.log.isCommitted m = true := by
        have hmem : .commit m ∈ s₀.log.brackets := by simp [hes]
        exact MarkerLog.isCommitted_of_shapes (List.mem_filter.1 hmem).2
      obtain ⟨info, hi, hs⟩ := MarkerLog.isCommitted_iff.1 (h.log.isCommitted hcommitted)
      obtain ⟨-, -, hsome⟩ := (h.log.sound.life hi).of_committed hs
      obtain ⟨kind, hkind⟩ := Option.isSome_iff_exists.1 hsome
      have herror (e : SyntaxError) (he : info.error = some e) : kind = .error := by
        have hinput := hold m info ((h.log.nodes m hcommitted).symm.trans hi) e he
        rw [hkind] at hinput
        exact Option.some.inj hinput.1
      refine ⟨position_widen m s ▸ h.position, m.inPlace s.log.fresh, some m, error?, ?_⟩
      rw [log_widen_renew hi hs hkind herror, position_widen]
      exact h.log.renew hes hi hkind s.position
    · exact h.kept
  · exact h.kept

/-! ## Reports -/

/-- Chunks and at most one error have come in since `s₀`. If a node may be widened, it may have been. -/
def Grown (widens : Bool) (s₀ s : Session) : Prop :=
  (∃ error?, Gained error? s₀ s) ∨ widens = true ∧ Kept s₀ s

namespace Grown

variable {widens : Bool}

theorem gained (h : Gained error? s₀ s) : Grown widens s₀ s := .inl ⟨error?, h⟩

theorem kept (h : Grown widens s₀ s) : Kept s₀ s := h.elim (fun ⟨_, h⟩ => h.kept) (·.2)

section
variable (hold : s₀.log.ErrorsInInput) (hs₀ : s₀.log.Sound) (h : Gentle s₀ s)
include hold hs₀ h

/-- The error that is reported is a node of its own, over which the node before it may be widened. -/
theorem report (g : Setup) (site : Nat) (inner force : Bool) :
    Grown inner s₀ (s.report g site inner force).2 := by
  unfold Session.report
  split
  · exact gained (h.gained hs₀)
  dsimp only
  have hseek := h.trans (.calm (.toSignificant g s))
  split
  · exact gained (hseek.gained hs₀)
  generalize (s.toSignificant g).errorHere g _ = error
  generalize hnoted : (s.toSignificant g).note _ = noted
  have hnote : Gentle s₀ noted := hseek.trans (hnoted ▸ .still rfl (Nat.le_refl _))
  have hposition : noted.position = g.significant s.position := by rw [← hnoted]; rfl
  obtain ⟨hopen, hm⟩ := (hnote.gained hs₀).openMarker (g := g)
  have herror := hopen.commitError hm (some error)
  split
  · next hinner =>
    refine .inr ⟨hinner, (herror.widenOver hold (fun m hm => hnote.brackets hm) site).still rfl ?_⟩
    -- the position was at a significant token already
    have hthere : ((noted.insertError g error).widenOver noted.log.lastWidenable? site).position =
        g.significant s.position := by
      rw [position_widenOver, insertError, position_commit]
      exact (congrArg g.significant hposition).trans (significant_significant ..)
    exact (congrArg g.significant hthere).trans
      ((significant_significant ..).trans hthere.symm)
  · exact gained (herror.gentle (.calm (.toSignificant ..)))

theorem reportFor (g : Setup) (frame : Frame) (inner force : Bool) :
    Grown inner s₀ (s.reportFor g frame inner force).2.2 := by
  rw [session_reportFor]
  exact report hold hs₀ h g frame.position inner force

theorem reportPinned (g : Setup) (frame : Frame) (kind : Option Kind) (initial lastError : Nat) :
    Kept s₀ (s.reportPinned g frame kind initial lastError).2 := by
  unfold Session.reportPinned
  split
  · exact (reportFor hold hs₀ h g frame _ false).kept
  · split <;> exact (h.gained hs₀).kept

end

end Grown

/-! ## Recovery -/

section
variable {run : Runner} {rounds level lastError initial : Nat} {frame frame' : Frame}
  {kind : Option Kind} {result pinned more b : Bool} {eatMore : RuleRef}
  (hrun : ∀ rule level t b t', run rule level t = some (b, t') → Gentle t t')
include hrun

theorem Gentle.skipRun {name : String} {depth : Int}
    (h : s.skipRun g run eatMore name level lastError rounds more depth = some (b, s')) :
    Gentle s s' :=
  skipRun_keeps (fun _ _ _ _ _ _ h ht => h.trans (hrun _ _ _ _ _ ht))
    (fun _ _ h hc => h.trans (.calm hc)) (.refl s) h

variable (hs₀ : s₀.log.Sound)
include hs₀

/-- An error is reported whose node takes in what is stepped over. -/
theorem Gained.reportSwallowingFor (hs : Gentle s₀ s)
    (h : s.reportSwallowingFor g run frame = some (b, frame', s')) :
    ∃ error?, Gained error? s₀ s' := by
  obtain ⟨⟨p, t⟩, ht, h⟩ := Option.bind_eq_some_iff.1 h
  obtain rfl : t = s' := by cases p <;> cases h <;> rfl
  unfold reportSwallowing at ht
  split at ht
  · cases ht
    exact ⟨none, hs.gained hs₀⟩
  · dsimp only [Option.bind_eq_bind] at ht
    generalize (s.toSignificant g).errorHere g _ = error at ht
    generalize hnoted : (s.toSignificant g).note _ = noted at ht
    have hnote : Gentle s₀ noted :=
      (hs.trans (.calm (.toSignificant g s))).trans (hnoted ▸ .still rfl (Nat.le_refl _))
    obtain ⟨hopen, hm⟩ := (hnote.gained hs₀).openMarker (g := g)
    obtain ⟨⟨c, u⟩, hu, ht⟩ := Option.bind_eq_some_iff.1 ht
    have herror := (hopen.gentle (hrun _ _ _ _ _ hu)).commitError hm (some error)
    cases ht
    exact ⟨_, herror.gentle (.calm (.toSignificant ..))⟩

variable (hold : s₀.log.ErrorsInInput)
include hold

/-- No node is widened here if more was eaten at once. -/
theorem Grown.reportSkipped {eatsFirst : Bool} (hs : Gentle s₀ s)
    (h : s.reportSkipped g run rounds frame kind result pinned eatMore initial eatsFirst more =
      some (b, frame', s')) : Grown (!eatsFirst) s₀ s' := by
  refine reportSkipped_induction (P := fun _ t => ∃ error?, Gained error? s₀ t)
    (Q := fun _ t => Grown (!eatsFirst) s₀ t) (fun _ _ _ _ => Gained.reportSwallowingFor hrun hs₀ hs)
    ⟨none, hs.gained hs₀⟩ (fun rule _ _ t b u ⟨error?, ht⟩ hu => ⟨error?, ht.gentle (hrun _ _ _ _ _ hu)⟩)
    (fun _ t b u ⟨error?, ht⟩ hu => ?_) (fun _ _ ⟨_, ht⟩ => gained ht) (fun _ => ?_)
    (fun _ heats => ?_) h
  · exact ⟨error?, (Gained.invariant g error? s₀).groupRun
      (fun rule _ level t b t' ht hr => ht.gentle (hrun rule level t b t' hr)) ht hu rfl⟩
  · exact (Grown.reportFor hold hs₀ hs g frame false true).imp_right fun hkept =>
      absurd hkept.1 Bool.false_ne_true
  · exact .inr ⟨by rw [heats]; rfl, (Grown.reportFor hold hs₀ hs g frame kind.isSome false).kept⟩

/-- What recovery widens is the node that was committed last before it, and only where no other node is
widened. -/
theorem Kept.recover (hs : Gentle s₀ s)
    (h : s.recover g run rounds frame kind result pinned eatMore initial lastError =
      some (frame', s')) : Kept s₀ s' := by
  have hseek : Gentle s₀ ({ s with quiet := true }.toSignificant g) :=
    hs.trans (.still rfl (g.le_significant s.position))
  obtain ⟨eatsFirst, t, starts, more, u, reported, frame₁, v, last, ht, hu, hv, hlast, hend⟩ :=
    exists_stages h
  have hfirst : Gentle s₀ t := by
    rcases ht with ⟨-, rfl⟩ | ht
    · exact hseek
    · exact hseek.trans (hrun _ _ _ _ _ ht)
  have hskip : Gentle s₀ (u.note (.skipped u.position lastError more)) :=
    (hfirst.trans (Gentle.skipRun hrun hu)).trans (.still rfl (Nat.le_refl _))
  have hwiden : Kept s₀ (v.widenOver last frame₁.position) := by
    obtain ⟨error?, hgained⟩ | ⟨hnot, hkept⟩ := Grown.reportSkipped hrun hs₀ hold hskip hv
    · exact hgained.widenOver hold (fun m hm => hfirst.brackets (hlast m hm).2) _
    · have hnone : last = none := by
        refine Option.eq_none_iff_forall_ne_some.2 fun m hm => ?_
        rw [(hlast m hm).1] at hnot
        cases hnot
      rw [hnone]
      exact hkept
  have hquiet : Kept s₀ { v.widenOver last frame₁.position with quiet := false } :=
    hwiden.still rfl rfl
  rcases hend with heq | heq
  · cases heq
    exact hquiet
  · obtain ⟨-, rfl⟩ := Prod.mk.inj heq
    exact hquiet.still rfl rfl

theorem Kept.settleErrors {eatMore : Option RuleRef}
    (h : s₀.settleErrors g run rounds frame kind result pinned eatMore = some s') : Kept s₀ s' := by
  have hname : Gentle s₀ (s₀.attemptsByName g frame kind (result || pinned)).2 :=
    .calm (Work.calm_attemptsByName ..)
  obtain ⟨frame₁, t, rfl, hcases⟩ := settleErrors_cases h
  have hsettle : Kept s₀ t := by
    obtain ⟨rule, -, -, hrecover⟩ | ⟨-, -, rfl⟩ | ⟨-, rfl⟩ := hcases
    · exact Kept.recover hrun hs₀ hold hname hrecover
    · exact Grown.reportPinned hold hs₀ hname ..
    · exact (hname.gained hs₀).kept
  exact hsettle.still rfl rfl

end

end Session

end Descent
