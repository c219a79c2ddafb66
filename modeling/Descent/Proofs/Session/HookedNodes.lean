import Descent.Proofs.Grammar.RecoveryAdds
import Descent.Proofs.Session.KeptChildren
import Descent.Proofs.Session.LeavingEnds
import Descent.Proofs.Session.SectionNodes

/-!
# What the hooks of a section are given

The first hook that waits for a section is given the node that was committed last. When the marker of a
section is settled, its node is the last one (`Session.exists_lastNode_shape`). It still is when the hooks are
run, or else a node is that has taken its place and only ends elsewhere, unless something was committed behind
it meanwhile (`Session.LastNode.settleErrors`). So that is what the hook is given
(`SectionSort.first_hook_given_node`).

Recovery does commit something behind it: an error that it reports, and chunks. Only if the condition under
which more is eaten holds where recovery begins is the node of the section widened over them. Nor is its node
the last one if a section hands on its kind, or leaves its node inside the one before it.
-/

namespace Descent

namespace MarkerLog

variable {log : MarkerLog} {m x : Marker} {info : MarkerInfo} {es : List Entry}

/-- A marker that was not allocated yet is no node. -/
theorem isCommitted_of_size_le (h : log.markers.size ≤ x.number) : log.isCommitted x = false := by
  rw [isCommitted, stage?, info?_eq_none_iff.2 h]
  rfl

/-- A marker whose commitment is the latest entry was committed last, and nothing was opened behind it. -/
theorem last_of_entries (h : log.entries = .commit x :: es) (hx : log.isCommitted x = true) :
    log.lastCommitted? = some x ∧ log.lastWidenable? = some x := by
  constructor
  · rw [lastCommitted?, h, List.findSome?_cons]
    simp only [hx, if_true]
  · rw [lastWidenable?, h, List.find?_cons_of_pos]
    exact hx

/-- A node that is put in the place of another one is the last one. -/
theorem lastCommitted?_renew (hi : log.info? x = some info) (hs : info.stage = .committed) {kind : Kind}
    (hkind : info.kind = some kind) (p : Nat) :
    (log.renew x kind info.error p).lastCommitted? = some log.fresh := by
  have hcommitted : (log.renew x kind info.error p).isCommitted log.fresh = true :=
    isCommitted_iff.2 ⟨_, info?_renew_fresh hi hkind hs p, hs⟩
  have hopened : (log.wrap x).2.stage? log.fresh = some .opened := by
    simp [wrap, stage?, info?, fresh]
  have hentries : ((log.wrap x).2.commit log.fresh kind info.error p).entries =
      .commit log.fresh :: (log.wrap x).2.entries := by rw [commit, if_pos hopened]
  rcases entries_drop ((log.wrap x).2.commit log.fresh kind info.error p) x with h | ⟨prior, h⟩
  · exact (last_of_entries (h.trans hentries) hcommitted).1
  · rw [lastCommitted?, show (log.renew x kind info.error p).entries = _ from h.trans (by rw [hentries]),
      List.findSome?_cons, List.findSome?_cons]
    simp only [hcommitted, if_true]

end MarkerLog

namespace Session

variable {g : Setup} {s s₀ s₁ s' : Session} {run : Runner} {rounds : Nat} {frame frame' : Frame}
  {frames : List Frame} {m x : Marker} {info : MarkerInfo} {site level : Nat} {kind : Option Kind}
  {result pinned : Bool} {eatMore : Option RuleRef} {k : Kind}

/-! ## The last node -/

/-- The node `x` was committed last, without an error, and reaches over a position. Nothing was opened behind
it. -/
structure LastNode (x : Marker) (info : MarkerInfo) (site : Nat) (s : Session) : Prop where
  sound : s.log.Sound
  errors : s.log.ErrorsInInput
  last : s.log.lastCommitted? = some x
  widenable : s.log.lastWidenable? = some x
  committed : info.stage = .committed
  error : info.error = none
  start : info.start ≤ site
  stop : site ≤ info.stop
  known : s.log.info? x = some info

/-- The node `x` of `s₀` is the last one, or it has given way to a node that is, and that only ends
elsewhere. -/
def StaysLast (x : Marker) (info : MarkerInfo) (s₀ s : Session) : Prop :=
  ∃ n stop, s.log.lastCommitted? = some n ∧ s.log.info? n = some { info with stop } ∧
    (n = x ∨ s₀.log.isCommitted n = false ∧ s.log.isCommitted x = false)

namespace StaysLast

theorem of_log (h : StaysLast x info s₀ s) (hlog : s'.log = s.log) : StaysLast x info s₀ s' := by
  obtain ⟨n, stop, hlast, hn, hplace⟩ := h
  exact ⟨n, stop, hlog ▸ hlast, hlog ▸ hn, hlog ▸ hplace⟩

/-- A node that is widened gives way to one that is the last. -/
theorem widen (hs : s.log.Sound) (hnew : s₀.log.isCommitted s.log.fresh = false)
    (hi : s.log.info? x = some info) (hcommitted : info.stage = .committed) (herror : info.error = none) :
    StaysLast x info s₀ (s.widen x) := by
  obtain ⟨kind, hkind⟩ := Option.isSome_iff_exists.1 ((hs.life hi).of_committed hcommitted).2.2
  have hlog := log_widen_renew hi hcommitted hkind fun e he => by
    rw [herror] at he
    cases he
  refine ⟨s.log.fresh, max s.position info.start, ?_, ?_, .inr ⟨hnew, ?_⟩⟩
  · rw [hlog]
    exact MarkerLog.lastCommitted?_renew hi hcommitted hkind s.position
  · rw [hlog]
    exact MarkerLog.info?_renew_fresh hi hkind hcommitted s.position
  · rw [hlog]
    exact MarkerLog.isCommitted_drop_self ..

theorem widenOver (hs : s.log.Sound) (hnew : s₀.log.isCommitted s.log.fresh = false)
    (h : LastNode x info site s₀) (hi : s.log.info? x = some info) :
    StaysLast x info s₀ (s.widenOver (some x) site) := by
  have hstart : s.log.start x = info.start := by
    rw [MarkerLog.start, hi]
    rfl
  have hstop : s.log.stop x = info.stop := by
    rw [MarkerLog.stop, hi]
    rfl
  unfold Session.widenOver
  dsimp only
  rw [hstart, hstop, if_pos ⟨h.start, h.stop⟩]
  exact widen hs hnew hi h.committed h.error

end StaysLast

namespace LastNode

section
variable (h : LastNode x info site s)
include h

theorem staysLast (hlog : s'.log = s.log) : StaysLast x info s s' :=
  ⟨x, info.stop, hlog ▸ h.last, hlog ▸ h.known, .inl rfl⟩

/-- An error that is reported for the inside of a section is taken in by the node of the section. -/
theorem report (g : Setup) (force : Bool) : StaysLast x info s (s.report g site true force).2 := by
  unfold Session.report
  split
  · exact h.staysLast rfl
  dsimp only
  split
  · exact h.staysLast rfl
  generalize (s.toSignificant g).errorHere g _ = error
  generalize hnoted : (s.toSignificant g).note _ = noted
  have hlog : noted.log = s.log := by rw [← hnoted]; rfl
  rw [if_pos rfl, hlog, h.widenable]
  have hlt : x.number < noted.log.markers.size := hlog ▸ MarkerLog.lt_size_of_info? h.known
  have hsound : (noted.insertError g error).log.Sound := by
    rw [insertError, log_commit]
    exact MarkerLog.Sound.commit (MarkerLog.Sound.openAt (hlog ▸ h.sound) _) ..
  have hnew : s.log.isCommitted (noted.insertError g error).log.fresh = false := by
    refine MarkerLog.isCommitted_of_size_le ?_
    show _ ≤ (noted.insertError g error).log.markers.size
    rw [insertError, log_commit, MarkerLog.size_commit, size_openMarker, hlog]
    exact Nat.le_succ _
  have hknown : (noted.insertError g error).log.info? x = some info := by
    rw [insertError, log_commit]
    exact (MarkerLog.info?_commit_of_ne (MarkerLog.fresh_ne_of_lt hlt) ..).trans
      ((MarkerLog.info?_openAt_of_lt hlt _).trans (hlog ▸ h.known))
  exact (StaysLast.widenOver hsound hnew h hknown).of_log (Calm.toSignificant g _).log

end

theorem reportFor (h : LastNode x info frame.position s) (g : Setup) (force : Bool) :
    StaysLast x info s (s.reportFor g frame true force).2.2 := by
  rw [session_reportFor]
  exact h.report g force

end LastNode

/-! ## Settling errors -/

/-- The frame of a section that is left stays where the section began. -/
theorem position_of_reportSkipped {rule : RuleRef} {initial : Nat} {eatsFirst more b : Bool}
    (h : s.reportSkipped g run rounds frame kind result pinned rule initial eatsFirst more =
      some (b, frame', s')) : frame'.position = frame.position := by
  have hfor (inner force : Bool) :
      (s.reportFor g frame inner force).2.1.position = frame.position := by
    unfold Session.reportFor
    split <;> rfl
  refine reportSkipped_induction (P := fun frame₁ _ => frame₁.position = frame.position)
    (Q := fun frame₁ _ => frame₁.position = frame.position) (fun _ _ _ _ ht => ?_) rfl
    (fun _ _ _ _ _ _ hf _ => hf) (fun _ _ _ _ hf _ => hf) (fun _ _ => id) (fun _ => hfor ..)
    (fun _ _ => hfor ..) h
  obtain ⟨⟨p, u⟩, -, ht⟩ := Option.bind_eq_some_iff.1 ht
  cases p <;> cases ht <;> rfl

/-- What is left over is eaten at once: the condition holds where recovery begins, and what was committed last
may be widened still. -/
structure EatsFirst (g : Setup) (run : Runner) (frame : Frame) (rule : RuleRef) (s : Session) : Prop where
  more : ({ s with quiet := true }.toSignificant g).isAtEnd g = false
  first : ∃ t, run rule (frame.level + 1) ({ s with quiet := true }.toSignificant g) = some (true, t) ∧
    t.log.lastWidenable? = s.log.lastWidenable?

/-- Recovery that eats at once widens the node of the section over all it commits. -/
theorem LastNode.recover {rule : RuleRef} {initial lastError : Nat}
    (h : LastNode x info frame.position s) (hstays : (result || pinned) = true)
    (hrun : ∀ rule level t b t', run rule level t = some (b, t') → Gentle t t')
    (heats : EatsFirst g run frame rule s)
    (hr : s.recover g run rounds frame (some k) result pinned rule initial lastError = some (frame', s')) :
    StaysLast x info s s' := by
  obtain ⟨t, ht, hsame⟩ := heats.first
  have hseek : Gentle s ({ s with quiet := true }.toSignificant g) :=
    .still rfl (g.le_significant s.position)
  have hfirst := hseek.trans (hrun _ _ _ _ _ ht)
  simp only [Session.recover, Option.bind_eq_bind, heats.more, Bool.false_eq_true, if_false, ht,
    Option.bind_some] at hr
  obtain ⟨⟨more, u⟩, hu, hr⟩ := Option.bind_eq_some_iff.1 hr
  have hskip : Gentle s (u.note (.skipped u.position lastError more)) :=
    (hfirst.trans (Gentle.skipRun hrun hu)).trans (.still rfl (Nat.le_refl _))
  obtain ⟨⟨reported, frame₁, v⟩, hv, hr⟩ := Option.bind_eq_some_iff.1 hr
  have hwidens : ((pinned || result) && (g.widensAlways || (some k).isSome) && true) = true := by
    rw [Bool.or_comm pinned, hstays, Option.isSome_some, Bool.or_true]
    rfl
  rw [if_pos hwidens, hsame, h.widenable] at hr
  obtain ⟨error?, hgained⟩ | ⟨hnot, -⟩ := Grown.reportSkipped hrun h.sound h.errors hskip hv
  · have hposition := position_of_reportSkipped hv
    have hlast : StaysLast x info s (v.widenOver (some x) frame₁.position) := by
      rw [hposition]
      have hx : s.log.isCommitted x = true := MarkerLog.isCommitted_iff.2 ⟨info, h.known, h.committed⟩
      exact .widenOver hgained.log.sound hgained.log.isCommitted_fresh h
        ((hgained.log.nodes x hx).trans h.known)
    dsimp only at hr
    split at hr
    · cases hr
      exact hlast.of_log rfl
    · cases hr
      exact hlast.of_log rfl
  · cases hnot

/-- What settles the errors of a section keeps its node the last one: nothing is eaten, or it is eaten at
once by rules that change no nodes, or no node changes anyway. -/
inductive KeepsLast (g : Setup) (run : Runner) (rounds : Nat) (frame : Frame) (kind : Option Kind)
    (result pinned : Bool) (eatMore : Option RuleRef) (s : Session) : Prop
  | spared (h : (s.quiet || s.isAborted || eatMore.isNone) = true)
  | eatsFirst {rule : RuleRef} (hrule : eatMore = some rule) (heats : EatsFirst g run.gentle frame rule s)
    (hgentle : s.settleErrors g run.gentle rounds frame kind result pinned eatMore =
      s.settleErrors g run rounds frame kind result pinned eatMore)
  | idle (h : ∀ u, s.settleErrors g run rounds frame kind result pinned eatMore = some u →
      s.log.sameNodes u.log = true)

namespace LastNode

/-- A section that was pinned and failed takes in the error that is reported for it. -/
theorem reportPinned (h : LastNode x info frame.position s) (hupper : frame.modifiers.upper = false)
    (initial lastError : Nat) :
    StaysLast x info s (s.reportPinned g frame (some k) initial lastError).2 := by
  unfold Session.reportPinned
  rw [hupper]
  split
  · exact h.reportFor g false
  · split <;> exact h.staysLast rfl

/-- Where nothing is eaten, what may be reported is taken in. -/
theorem settleErrors_spared (h : LastNode x info frame.position s) (hstays : (result || pinned) = true)
    (hupper : frame.modifiers.upper = false) (hspared : (s.quiet || s.isAborted || eatMore.isNone) = true)
    (hr : s.settleErrors g run rounds frame (some k) result pinned eatMore = some s') :
    StaysLast x info s s' := by
  have hnone : (if s.quiet || s.isAborted then none else eatMore) = none := by
    split
    · rfl
    · next hnot =>
      rw [Bool.eq_false_iff.2 hnot, Bool.false_or] at hspared
      exact Option.isNone_iff_eq_none.1 hspared
  rw [settleErrors_eq, hstays, attemptsByName_of_stays] at hr
  dsimp only at hr
  rw [hnone] at hr
  dsimp only [settleFrame] at hr
  split at hr
  · cases hr
    exact (h.reportPinned hupper ..).of_log rfl
  · cases hr
    exact h.staysLast rfl

/-- So the node of the section is the last one when its errors are settled, or one in its place is. -/
theorem settleErrors (h : LastNode x info frame.position s) (hstays : (result || pinned) = true)
    (hupper : frame.modifiers.upper = false) (hrun : run.Leads)
    (hkeeps : KeepsLast g run rounds frame (some k) result pinned eatMore s)
    (hr : s.settleErrors g run rounds frame (some k) result pinned eatMore = some s') :
    StaysLast x info s s' := by
  cases hkeeps with
  | spared hspared => exact h.settleErrors_spared hstays hupper hspared hr
  | @eatsFirst rule hrule heats hgentle =>
    subst hrule
    cases hquiet : s.quiet || s.isAborted with
    | true => exact h.settleErrors_spared hstays hupper (by rw [hquiet]; rfl) hr
    | false =>
      rw [← hgentle, settleErrors_eq, hstays, attemptsByName_of_stays] at hr
      dsimp only at hr
      rw [hquiet] at hr
      obtain ⟨⟨frame', t⟩, ht, hr⟩ := Option.bind_eq_some_iff.1 hr
      cases hr
      exact (h.recover hstays (fun _ _ _ _ _ hr => hrun.gentle hr) heats ht).of_log rfl
  | idle hidle =>
    have hsame := hidle _ hr
    obtain ⟨es, hes⟩ := MarkerLog.brackets_of_lastWidenable? h.widenable
    have hx : s.log.isCommitted x = true := MarkerLog.isCommitted_iff.2 ⟨info, h.known, h.committed⟩
    refine ⟨x, info.stop, ?_, (MarkerLog.info?_of_sameNodes h.sound hsame hx).trans h.known, .inl rfl⟩
    exact MarkerLog.lastCommitted?_of_brackets ((MarkerLog.brackets_eq_of_sameNodes hsame).trans hes)

end LastNode

/-! ## Committing the node of a section -/

/-- A section can be committed: its marker is open and starts where the section began, which is not behind
the position, and so does the node before it, if it is to take that up. -/
structure Committable (g : Setup) (m : Marker) (frame : Frame) (s : Session) : Prop where
  sound : s.log.Sound
  errors : s.log.ErrorsInInput
  opened : s.log.stage? m = some .opened
  start : s.log.start m = frame.position
  significant : g.significant frame.position = frame.position
  position : frame.position ≤ s.position
  left : ∀ left, frame.leftNode = some left →
    ∃ info, s.log.info? left = some info ∧ info.start ≤ frame.position

namespace Committable

variable (h : Committable g m frame s)
include h

theorem start_of_leadsTo (hleads : s.LeadsTo s') : s'.log.start m = frame.position := by
  obtain ⟨info, hi, -⟩ := Option.map_eq_some_iff.1 h.opened
  obtain ⟨info', hi', hstart⟩ := hleads.exists_start hi
  rw [← h.start, MarkerLog.start, MarkerLog.start, hi, hi', Option.map_some, Option.map_some, hstart]

/-- What is done to the markers does not matter as long as the marker is open. -/
theorem leadsTo (hleads : s.LeadsTo s') (hopened : s'.log.stage? m = some .opened)
    (hposition : frame.position ≤ s'.position) : Committable g m frame s' where
  sound := hleads.sound h.sound
  errors := hleads.errorsInInput h.errors
  opened := hopened
  start := h.start_of_leadsTo hleads
  significant := h.significant
  position := hposition
  left left hleft := by
    obtain ⟨info, hi, hstart⟩ := h.left left hleft
    obtain ⟨info', hi', hstart'⟩ := hleads.exists_start hi
    exact ⟨info', hi', hstart' ▸ hstart⟩

/-- A section that looked ahead begins anew when its input is given back. -/
theorem openMarker_rollback :
    Committable g ((s.rollback m).openMarker g).1 frame ((s.rollback m).openMarker g).2 := by
  obtain ⟨info, hi, -⟩ := Option.map_eq_some_iff.1 h.opened
  have hrollback : (s.rollback m).position = frame.position := by
    have hr := MarkerLog.rollback_eq_some_iff.2 ⟨h.sound.start_mem_of_opened h.opened, ⟨info, hi, rfl⟩, rfl⟩
    rw [rollback, hr, ← h.start, MarkerLog.start, hi]
    rfl
  have hleads := (LeadsTo.rollback m s).trans (.openMarker g (s.rollback m))
  have hposition : ((s.rollback m).openMarker g).2.position = frame.position := by
    show g.significant (s.rollback m).position = _
    rw [hrollback, h.significant]
  refine ⟨hleads.sound h.sound, hleads.errorsInInput h.errors, ?_, ?_, h.significant,
    Nat.le_of_eq hposition.symm, fun left hleft => ?_⟩
  · exact (MarkerLog.stage?_openAt ..).trans (if_pos rfl)
  · rw [start_openMarker]
    exact hposition
  · obtain ⟨info, hi, hstart⟩ := h.left left hleft
    obtain ⟨info', hi', hstart'⟩ := hleads.exists_start hi
    exact ⟨info', hi', hstart' ▸ hstart⟩

end Committable

/-- A marker that is committed was committed last. -/
theorem last_commitAs (hi : s.log.info? m = some info) (hopened : info.stage = .opened) (kind : Kind) :
    (s.commitAs m kind).log.lastCommitted? = some m ∧ (s.commitAs m kind).log.lastWidenable? = some m ∧
      (s.commitAs m kind).log.info? m = some
        { info with
          stop := max s.position info.start, kind := some kind, error := none, stage := .committed } := by
  have hstage : s.log.stage? m = some .opened := by rw [MarkerLog.stage?, hi, Option.map_some, hopened]
  have hknown := MarkerLog.info?_commit_self hi hopened kind none s.position
  rw [commitAs, log_commit]
  have hentries : (s.log.commit m kind none s.position).entries = .commit m :: s.log.entries := by
    rw [MarkerLog.commit, if_pos hstage]
  obtain ⟨hlast, hwidenable⟩ := MarkerLog.last_of_entries hentries
    (MarkerLog.isCommitted_iff.2 ⟨_, hknown, rfl⟩)
  exact ⟨hlast, hwidenable, hknown⟩

theorem lastNode_commitAs (hs : s.log.Sound) (herrors : s.log.ErrorsInInput) (hi : s.log.info? m = some info)
    (hopened : info.stage = .opened) (hstart : info.start ≤ site) (hposition : site ≤ s.position)
    (kind : Kind) :
    LastNode m
      { info with
        stop := max s.position info.start, kind := some kind, error := none, stage := .committed }
      site (s.commitAs m kind) := by
  obtain ⟨hlast, hwidenable, hknown⟩ := last_commitAs hi hopened kind
  have hleads : s.LeadsTo (s.commitAs m kind) := .commitAs m kind s
  exact ⟨hleads.sound hs, hleads.errorsInInput herrors, hlast, hwidenable, rfl, rfl, hstart,
    Nat.le_trans hposition (Nat.le_max_left ..), hknown⟩

namespace Committable

variable (h : Committable g m frame s)
include h

/-- A section that keeps a child in its place can be committed all the same. -/
theorem absorbChild (kind : Kind) : Committable g m frame (s.absorbChild g frame kind).2 := by
  have hleads := LeadsTo.absorbChild g frame kind s
  unfold Session.absorbChild at hleads ⊢
  split
  · next child hchild =>
    rw [hchild] at hleads
    have hkept : s.absorbable? g frame kind = some child := by
      split at hchild
      · exact hchild
      · cases hchild
    have hcommitted := MarkerLog.isCommitted_of_lastCommitted? (absorbable?_eq_some_iff.1 hkept).1
    refine h.leadsTo hleads ?_ h.position
    show (s.log.drop child).stage? m = _
    rw [MarkerLog.stage?_drop_of_ne, h.opened]
    rintro rfl
    have hopened := h.opened
    rw [MarkerLog.isCommitted_iff_stage?.1 hcommitted] at hopened
    cases hopened
  · exact h

end Committable

/-- The node of a section is the last one, and it was no node before. -/
theorem exists_lastNode_placeNode (h : Committable g m frame s) (hupper : frame.modifiers.upper = false)
    (hinner : frame.modifiers.leftInner = true → frame.leftNode = none) (kind : Kind) :
    ∃ x info, LastNode x info frame.position (s.placeNode g frame m kind) ∧ info.kind = some kind ∧
      (x = m ∨ x.number = s.log.markers.size) := by
  obtain ⟨info, hi, hopened⟩ := Option.map_eq_some_iff.1 h.opened
  have hstart : info.start = frame.position := by
    rw [← h.start, MarkerLog.start, hi]
    rfl
  unfold placeNode
  rw [hupper, if_neg Bool.false_ne_true]
  split
  · next left hleft =>
    rw [if_neg fun hin => by rw [hinner hin] at hleft; cases hleft]
    obtain ⟨linfo, hli, hle⟩ := h.left left hleft
    have hleads := (LeadsTo.drop m s).trans (.wrap left (s.drop m))
    have hdropped : (s.drop m).log.start left = linfo.start := by
      obtain ⟨info', hi', hstart'⟩ := (LeadsTo.drop m s).exists_start hli
      rw [MarkerLog.start, hi', Option.map_some, hstart']
      rfl
    have hfresh : ((s.drop m).wrap left).2.log.info? ((s.drop m).wrap left).1 =
        some { start := linfo.start, stop := linfo.start } := by
      rw [fst_wrap, log_wrap, ← hdropped]
      exact Array.getElem?_push_size
    have hposition : ((s.drop m).wrap left).2.position = s.position := position_wrap ..
    refine ⟨_, _, lastNode_commitAs (hleads.sound h.sound) (hleads.errorsInInput h.errors) hfresh rfl hle
      (hposition ▸ h.position) kind, rfl, .inr ?_⟩
    rw [fst_wrap]
    exact MarkerLog.size_drop ..
  · have hseek (t : Session) (hlog : t.log = s.log) (hposition : frame.position ≤ t.position) :=
      @lastNode_commitAs t m info frame.position (hlog ▸ h.sound) (hlog ▸ h.errors) (hlog ▸ hi) hopened
        (Nat.le_of_eq hstart) hposition kind
    split
    · exact ⟨m, _, hseek _ rfl (Nat.le_trans h.position (g.le_significant _)), rfl, .inl rfl⟩
    · exact ⟨m, _, hseek s rfl h.position, rfl, .inl rfl⟩

/-- Of the frame no more matters than where the section began and what it takes up. -/
theorem Committable.congr (h : Committable g m frame s) (hposition : frame'.position = frame.position)
    (hleft : frame'.leftNode = frame.leftNode) : Committable g m frame' s := by
  refine ⟨h.sound, h.errors, h.opened, ?_, ?_, ?_, ?_⟩
  all_goals rw [hposition]
  · exact h.start
  · exact h.significant
  · exact h.position
  · rw [hleft]
    exact h.left

/-- When a section is left whose marker is to be committed, it can be. -/
theorem Committable.exists_leaving (h : Committable g m frame s) (frames : List Frame)
    (result pinned : Bool) :
    let x := s.leaving g frame frames m result pinned true
    ∃ n, x.1 = some n ∧ Committable g n x.2.1 x.2.2 ∧ s.log.isCommitted n = false ∧
      s.log.markers.size ≤ x.2.2.log.markers.size := by
  intro x
  have hcore : x.2.1.core = frame.core := Work.core_leftMarker ..
  cases hahead : frame.modifiers.looksAhead with
  | false =>
    have hx : x = (some m, frame, { s with frames }.note (.sectionLeft frame result pinned)) :=
      leaving_of_not_looksAhead hahead true
    rw [hx]
    refine ⟨m, rfl, h.leadsTo (.still rfl) h.opened h.position, ?_, Nat.le_refl _⟩
    rw [MarkerLog.isCommitted, h.opened]
    rfl
  | true =>
    obtain ⟨hlog, hthere⟩ := @leaving_of_looksAhead g s result pinned frame frames m hahead
    have hmarker : x.1 = some ((s.rollback m).openMarker g).1 := by
      show (s.leaving g frame frames m result pinned true).1 = _
      unfold leaving leftMarker endLookahead eraseSection
      rw [if_pos hahead]
      unfold rollback
      dsimp only [note]
      cases s.log.rollback m <;> rfl
    have hcan := h.openMarker_rollback
    have hsize := (LeadsTo.rollback m s).size_le
    refine ⟨_, hmarker, ?_, ?_, ?_⟩
    · refine (hcan.leadsTo (.still hlog) ?_ ?_).congr (Frame.position_eq_of_core hcore)
        (Frame.leftNode_eq_of_core hcore)
      · rw [hlog]
        exact hcan.opened
      · rw [hthere]
        exact hcan.position
    · exact MarkerLog.isCommitted_of_size_le hsize
    · rw [hlog, size_openMarker]
      exact Nat.le_succ_of_le hsize

/-- When the marker of a section is settled, the node that it leaves is the last one, and it is a new one. -/
theorem exists_lastNode_shape (h : Committable g m frame s) (frames : List Frame)
    (hkind : (frame.kind <|> kind) = some k) (hstays : (result || pinned) = true)
    (hupper : frame.modifiers.upper = false)
    (hinner : frame.modifiers.leftInner = true → frame.leftNode = none) :
    let t := s.leaving g frame frames m result pinned true
    let u := s.shape g frame frames m kind result pinned
    u.1.modifiers = frame.modifiers ∧ ∃ x info, LastNode x info u.1.position u.2 ∧
      info.kind = some (t.2.2.absorbChild g t.2.1 k).1 ∧ s.log.isCommitted x = false := by
  intro t u
  have hcore : t.2.1.core = frame.core := Work.core_leftMarker ..
  obtain ⟨n, hn, hcan, hnew, hsize⟩ := h.exists_leaving frames result pinned
  have hshape : u = (t.2.1, t.2.2.commitShaped g t.2.1 n k) := shape_of_stays hkind hstays hn
  rw [hshape, commitShaped_eq]
  have hmodifiers := Frame.modifiers_eq_of_core hcore
  obtain ⟨x, info, hlast, hinfo, hx⟩ := exists_lastNode_placeNode (hcan.absorbChild k)
    (hmodifiers ▸ hupper) (by rw [hmodifiers, Frame.leftNode_eq_of_core hcore]; exact hinner)
    (t.2.2.absorbChild g t.2.1 k).1
  refine ⟨hmodifiers, x, info, hlast, hinfo, ?_⟩
  rcases hx with rfl | hnumber
  · exact hnew
  · refine MarkerLog.isCommitted_of_size_le ?_
    rw [hnumber]
    exact Nat.le_trans hsize (LeadsTo.absorbChild g t.2.1 k t.2.2).size_le

/-! ## Hooks -/

/-- The first hook that waits for a section is given what the hooks are run with. Those further in are
dropped before. -/
theorem runHooksFrom_first (hook : HookRunner) (rounds : Nat) (m? : Option Marker) {dropped hooks : List Hook}
    {first : Hook} (hhooks : s.hooks = dropped ++ first :: hooks)
    (hdropped : ∀ d ∈ dropped, s.level < d.level) (hlevel : first.level = s.level) :
    s.runHooksFrom hook (dropped.length + 1 + rounds) m? =
      (hook first.body m? { s with hooks }).bind fun x => x.2.runHooksFrom hook rounds x.1 := by
  induction dropped generalizing s with
  | nil =>
    rw [List.length_nil, Nat.zero_add, Nat.add_comm, runHooksFrom, hhooks]
    dsimp only [List.nil_append]
    rw [if_neg (by omega), if_pos hlevel]
    rfl
  | cons d dropped ih =>
    obtain ⟨hd, hdropped⟩ := List.forall_mem_cons.1 hdropped
    have hrounds : (d :: dropped).length + 1 + rounds = dropped.length + 1 + rounds + 1 := by
      rw [List.length_cons]
      omega
    rw [hrounds, runHooksFrom, hhooks]
    dsimp only [List.cons_append]
    rw [if_neg (by omega), if_neg (by omega)]
    exact @ih { s with hooks := dropped ++ first :: hooks } rfl hdropped hlevel

/-- The hooks of a section that leaves a node are run with the node committed last. -/
theorem runLevelHooks_of_last (hook : HookRunner) (rounds : Nat) (k : Kind)
    (hlast : s.log.lastCommitted? = some x) (hhooks : s.hooks ≠ []) :
    s.runLevelHooks g hook rounds (some k) = s.runHooksFrom hook rounds (some x) := by
  unfold runLevelHooks
  rw [hlast, if_neg fun hempty => hhooks (List.isEmpty_iff.1 hempty)]

end Session

namespace SectionSort

variable {g : Setup} {s u : Session} {run : Runner} {rounds : Nat} {sort : SectionSort} {m : Marker}
  {kind : Option Kind} {result pinned : Bool} {eatMore : Option RuleRef} {k : Kind}

/-- Leaves a section up to where its hooks are run. -/
def settle (g : Setup) (run : Runner) (rounds : Nat) (m : Marker) (kind : Option Kind)
    (result pinned : Bool) (eatMore : Option RuleRef) : SectionSort → Session → Option Session
  | simple, s => some (s.closeMarker m kind result)
  | framed .., s =>
    match s.frames with
    | [] => none
    | frame :: frames =>
      let x := s.shape g frame frames m kind result pinned
      x.2.settleErrors g run rounds x.1 (frame.kind <|> kind) result pinned eatMore

/-- The frame of the section is on top, if it has one. -/
def OnTop : SectionSort → Session → Prop
  | simple, _ => True
  | framed level .., s => s.Matches level

/-- The kind that a section hands to its hooks when it is left, if it produced anything. -/
def producedKind? (kind : Option Kind) (result pinned : Bool) : SectionSort → Session → Option Kind
  | simple, _ => if result then kind else none
  | framed .., s => if pinned || result then s.frames.head?.bind (·.kind) <|> kind else none

/-- The kind of the node that a section commits: that of the child it keeps in its place, or its own. -/
def commitKind? (g : Setup) (m : Marker) (kind : Option Kind) (result pinned : Bool) :
    SectionSort → Session → Option Kind
  | simple, _ => kind
  | framed .., s => do
    let frame ← s.frames.head?
    let kind ← frame.kind <|> kind
    let x := s.leaving g frame s.frames.tail m result pinned true
    some (x.2.2.absorbChild g x.2.1 kind).1

/-- A section can be committed: its marker is open, and a section with a frame has that on top. -/
def CanCommit (g : Setup) (m : Marker) : SectionSort → Session → Prop
  | simple, s => s.log.Sound ∧ s.log.ErrorsInInput ∧ s.log.stage? m = some .opened
  | framed level .., s => ∃ frame frames, s.frames = frame :: frames ∧ frame.level = level ∧
    s.Committable g m frame

/-- A section does not hand on its kind, and does not leave its node inside the one before it. -/
def CommitsOwn : SectionSort → Session → Prop
  | simple, _ => True
  | framed .., s => ∀ frame ∈ s.frames.head?, frame.modifiers.upper = false ∧
    (frame.modifiers.leftInner = true → frame.leftNode = none)

/-- What settles the errors of a section keeps its node the last one. -/
def KeepsLast (g : Setup) (run : Runner) (rounds : Nat) (m : Marker) (kind : Option Kind)
    (result pinned : Bool) (eatMore : Option RuleRef) : SectionSort → Session → Prop
  | simple, _ => True
  | framed .., s => ∀ frame frames, s.frames = frame :: frames →
    let x := s.shape g frame frames m kind result pinned
    x.2.KeepsLast g run rounds x.1 (frame.kind <|> kind) result pinned eatMore

/-! ### Sections that can be committed -/

/-- A section that is entered can be committed. -/
theorem canCommit_enter (sort : SectionSort) (hs : s.Regular) (hascends : s.Ascends)
    (herrors : s.log.ErrorsInInput) : sort.CanCommit g (sort.enter g s).1 (sort.enter g s).2 := by
  have hentering : (s.entering g).Regular := .entering hs
  have hsound : (sort.enter g s).2.log.Sound := by
    rw [sort.log_enter]
    exact hentering.openMarker.log
  have hopened : (sort.enter g s).2.log.stage? (sort.enter g s).1 = some .opened := by
    rw [sort.log_enter]
    cases sort <;> exact (MarkerLog.stage?_openAt ..).trans (if_pos rfl)
  cases sort with
  | simple =>
    have hacts : s.Acts g true (s.enterSimple g).2 := .enterSimple g s
    exact ⟨hsound, hacts.leadsTo.errorsInInput herrors, hopened⟩
  | framed level modifiers early name =>
    have hacts : s.Acts g true (s.enter g level modifiers early name).2 :=
      .enter g level modifiers early name s
    have hleads := hacts.leadsTo
    have hposition := Session.position_enteredFrame g level modifiers early name s
    have hframes := (Session.steady_enter g level modifiers early name s).frames
    obtain ⟨frame, frames, hfs, hcore, -⟩ := List.map_eq_cons_iff.1 hframes
    refine ⟨frame, frames, hfs, Frame.level_eq_of_core hcore, Session.Committable.congr ?_
      (Frame.position_eq_of_core hcore) (Frame.leftNode_eq_of_core hcore)⟩
    refine ⟨hsound, hleads.errorsInInput herrors, hopened, ?_, ?_, Nat.le_of_eq hposition,
      fun left hleft => ?_⟩
    · show ((framed level modifiers early name).enter g s).2.log.start _ = _
      rw [(framed level modifiers early name).log_enter, hposition, Session.position_enter]
      exact Session.start_openMarker g (s.entering g)
    · rw [hposition, Session.position_enter]
      exact Session.significant_significant g _
    · -- the node to be taken up is there already, and so it does not start behind the position
      have hlast : ((s.entering g).openMarker g).2.log.lastCommitted? = some left := by
        change (if modifiers.takesLeft && !_ then ((s.entering g).openMarker g).2.log.lastCommitted?
          else none) = some left at hleft
        split at hleft
        · exact hleft
        · cases hleft
      have hopen := Session.ascends_openMarker (Session.ascends_entering hs hascends) hentering.log g
      obtain ⟨info, hi, hstage⟩ := MarkerLog.isCommitted_iff.1 (MarkerLog.isCommitted_of_lastCommitted? hlast)
      have hle := MarkerLog.Ascends.start_le hopen (hentering.openMarker.log.start_mem_of_committed
        (MarkerLog.isCommitted_iff_stage?.1 (MarkerLog.isCommitted_of_lastCommitted? hlast)))
      refine ⟨info, ?_, ?_⟩
      · show ((framed level modifiers early name).enter g s).2.log.info? left = some info
        rw [(framed level modifiers early name).log_enter]
        exact hi
      · rw [MarkerLog.start, hi] at hle
        rw [hposition, Session.position_enter]
        exact hle

/-- Work that is done inside does not change that. -/
theorem CanCommit.work {allows : Modifiers → Bool} {s' : Session} (h : sort.CanCommit g m s)
    (hascends : s.Ascends) (hwork : Work allows g none s s') (hleads : s.LeadsTo s') :
    sort.CanCommit g m s' := by
  cases sort with
  | simple =>
    obtain ⟨hsound, herrors, hopened⟩ := h
    exact ⟨hleads.sound hsound, hleads.errorsInInput herrors, (hwork.heeds hsound).opened m hopened⟩
  | framed level modifiers early name =>
    obtain ⟨frame, frames, hframes, hlevel, hcan⟩ := h
    have hopened := (hwork.heeds hcan.sound).opened m hcan.opened
    have hfs := hwork.surroundings.frames
    rw [hframes] at hfs
    obtain ⟨frame', frames', hbecomes, -, hframes'⟩ := List.forall₂_cons_left_iff.1 hfs
    have hsound := hleads.sound hcan.sound
    have hposition := MarkerLog.Ascends.start_le (hwork.ascends hcan.sound hascends).1
      (hsound.start_mem_of_opened hopened)
    rw [hcan.start_of_leadsTo hleads] at hposition
    exact ⟨frame', frames', hframes', hbecomes.level.trans hlevel,
      (hcan.leadsTo hleads hopened hposition).congr hbecomes.position hbecomes.leftNode⟩

/-- Neither does a hook that is to wait for it. -/
theorem CanCommit.addHook (h : sort.CanCommit g m s) (body : Expr) : sort.CanCommit g m (s.addHook body) := by
  cases sort with
  | simple => exact h
  | framed level modifiers early name =>
    obtain ⟨frame, frames, hframes, hlevel, hcan⟩ := h
    exact ⟨frame, frames, hframes, hlevel, hcan.leadsTo (.still rfl) hcan.opened hcan.position⟩

/-! ### What the hooks are given -/

/-- Until its hooks are run the node of a section stays the last one, or gives way to one that is. -/
theorem exists_staysLast (hs : sort.CanCommit g m s) (hown : sort.CommitsOwn s)
    (hstays : sort.stays result pinned = true) (hkind : sort.commitKind? g m kind result pinned s = some k)
    (hrun : run.Leads) (hkeeps : sort.KeepsLast g run rounds m kind result pinned eatMore s)
    (hsettle : sort.settle g run rounds m kind result pinned eatMore s = some u) :
    ∃ x info, s.log.isCommitted x = false ∧
      (sort.shape g m kind result pinned s).log.info? x = some info ∧ info.stage = .committed ∧
      info.kind = some k ∧ info.error = none ∧
      Session.StaysLast x info (sort.shape g m kind result pinned s) u := by
  cases sort with
  | simple =>
    obtain ⟨hsound, herrors, hopened⟩ := hs
    obtain rfl : kind = some k := hkind
    obtain rfl : result = true := hstays
    obtain rfl := Option.some.inj hsettle
    obtain ⟨info, hi, hstage⟩ := Option.map_eq_some_iff.1 hopened
    obtain ⟨hlast, -, hknown⟩ := Session.last_commitAs hi hstage k
    refine ⟨m, _, ?_, hknown, rfl, rfl, rfl, m, _, hlast, hknown, .inl rfl⟩
    rw [MarkerLog.isCommitted, hopened]
    rfl
  | framed level modifiers early name =>
    obtain ⟨frame, frames, hframes, -, hcan⟩ := hs
    obtain ⟨hupper, hinner⟩ := hown frame (by rw [hframes]; rfl)
    simp only [commitKind?, hframes, List.head?_cons, List.tail_cons, Option.bind_eq_bind,
      Option.bind_some] at hkind
    obtain ⟨own, hown, hkind⟩ := Option.bind_eq_some_iff.1 hkind
    obtain ⟨hmodifiers, x, info, hlast, hinfo, hnew⟩ :=
      Session.exists_lastNode_shape hcan frames hown hstays hupper hinner
    have hkeeps := hkeeps frame frames hframes
    simp only [settle, hframes] at hsettle
    rw [hown] at hkeeps hsettle
    have hstaysLast := hlast.settleErrors hstays (hmodifiers ▸ hupper) hrun hkeeps hsettle
    have hshape : (framed level modifiers early name).shape g m kind result pinned s =
        (s.shape g frame frames m kind result pinned).2 := by
      rw [shape, hframes]
    rw [hshape]
    exact ⟨x, info, hnew, hlast.known, hlast.committed, hinfo.trans hkind, hlast.error, hstaysLast⟩

/-- A section that is left is settled first, and then its hooks are run. -/
theorem leave_eq {hook : HookRunner} (htop : sort.OnTop s) :
    sort.leave g run hook rounds m kind result pinned eatMore s =
      (sort.settle g run rounds m kind result pinned eatMore s).bind fun u =>
        (u.runLevelHooks g hook rounds (sort.producedKind? kind result pinned s)).map
          Session.closeLevel := by
  cases sort with
  | simple =>
    rw [leave, Session.leaveSimple_eq, settle, Option.bind_some, Option.map_eq_bind]
    rfl
  | framed level modifiers early name =>
    obtain ⟨frame, frames, hframes, hlevel⟩ := htop
    rw [leave, Session.leave_eq hframes hlevel]
    simp only [settle, producedKind?, hframes, List.head?_cons, Option.bind_some, Option.map_eq_bind]
    rfl

theorem CanCommit.onTop (h : sort.CanCommit g m s) : sort.OnTop s := by
  cases sort with
  | simple => trivial
  | framed level modifiers early name =>
    obtain ⟨frame, frames, hframes, hlevel, -⟩ := h
    exact ⟨frame, frames, hframes, hlevel⟩

/-- A section whose node is committed hands on a kind of its own. -/
theorem exists_producedKind (hs : sort.CanCommit g m s) (hstays : sort.stays result pinned = true)
    (hkind : sort.commitKind? g m kind result pinned s = some k) :
    ∃ own, sort.producedKind? kind result pinned s = some own := by
  cases sort with
  | simple =>
    obtain rfl : kind = some k := hkind
    obtain rfl : result = true := hstays
    exact ⟨k, rfl⟩
  | framed level modifiers early name =>
    obtain ⟨frame, frames, hframes, -⟩ := hs
    simp only [commitKind?, hframes, List.head?_cons, Option.bind_eq_bind, Option.bind_some] at hkind
    obtain ⟨own, hown, -⟩ := Option.bind_eq_some_iff.1 hkind
    have hstays : (pinned || result) = true := (Bool.or_comm pinned result).trans hstays
    refine ⟨own, ?_⟩
    simp only [producedKind?, hframes, if_pos hstays, List.head?_cons, Option.bind_some]
    exact hown

/-- When a section is left, its hooks are run behind all else. -/
theorem leave_eq_settle (hs : sort.CanCommit g m s) (hstays : sort.stays result pinned = true)
    (hook : HookRunner)
    (hkind : sort.commitKind? g m kind result pinned s = some k) :
    ∃ own, sort.leave g run hook rounds m kind result pinned eatMore s =
      (sort.settle g run rounds m kind result pinned eatMore s).bind fun u =>
        (u.runLevelHooks g hook rounds (some own)).map Session.closeLevel := by
  obtain ⟨own, hown⟩ := exists_producedKind hs hstays hkind
  exact ⟨own, by rw [leave_eq hs.onTop, hown]⟩

/-- The first hook that waits for a section is given the node that the section has committed, of the kind that
it was committed with, or else the node that has taken its place and only ends elsewhere. Hooks of sections
further in are dropped before. -/
theorem first_hook_given_node (hs : sort.CanCommit g m s) (hown : sort.CommitsOwn s)
    (hstays : sort.stays result pinned = true) (hkind : sort.commitKind? g m kind result pinned s = some k)
    (hrun : run.Leads) (hkeeps : sort.KeepsLast g run rounds m kind result pinned eatMore s)
    (hsettle : sort.settle g run rounds m kind result pinned eatMore s = some u) :
    ∃ x info n stop, s.log.isCommitted x = false ∧
      (sort.shape g m kind result pinned s).log.info? x = some info ∧ info.stage = .committed ∧
      info.kind = some k ∧ info.error = none ∧ u.log.info? n = some { info with stop } ∧
      (n = x ∨ (sort.shape g m kind result pinned s).log.isCommitted n = false ∧
        u.log.isCommitted x = false) ∧
      u.log.kind? n = some k ∧
      ∀ (hook : HookRunner) (dropped hooks : List Hook) (first : Hook) (rest : Nat),
        u.hooks = dropped ++ first :: hooks → (∀ d ∈ dropped, u.level < d.level) →
        first.level = u.level → rounds = dropped.length + 1 + rest →
          sort.leave g run hook rounds m kind result pinned eatMore s =
            (hook first.body (some n) { u with hooks }).bind fun y =>
              (y.2.runHooksFrom hook rest y.1).map Session.closeLevel := by
  obtain ⟨x, info, hnew, hinfo, hcommitted, hkindx, herror, n, stop, hlast, hn, hplace⟩ :=
    exists_staysLast hs hown hstays hkind hrun hkeeps hsettle
  refine ⟨x, info, n, stop, hnew, hinfo, hcommitted, hkindx, herror, hn, hplace, ?_,
    fun hook dropped hooks first rest hhooks hdropped hlevel hrounds => ?_⟩
  · rw [MarkerLog.kind?, hn, Option.bind_some, if_pos hcommitted]
    exact hkindx
  · obtain ⟨own, hleave⟩ := @leave_eq_settle g s run rounds sort m kind result pinned eatMore k hs hstays
      hook hkind
    have hany : u.hooks ≠ [] := by simp [hhooks]
    rw [hleave, hsettle, Option.bind_some, Session.runLevelHooks_of_last hook rounds own hlast hany, hrounds,
      Session.runHooksFrom_first hook rest (some n) hhooks hdropped hlevel, Option.map_bind]
    rfl

open Grammar (eval runRef)

/-- A name and a number. A statement is a name, but a sign is missing behind it. -/
def nameAndNumber : Setup where
  source := { text := "ab", tokens := [⟨⟨3⟩, ⟨0, 1⟩⟩, ⟨⟨4⟩, ⟨1, 2⟩⟩] }
  language := LanguageTable.toBareLanguage {}
  limits := default
  grammar := [
    ("statement", .seq (.prim (.consume ⟨3⟩)) (.prim (.consume ⟨10⟩))),
    ("number", .prim (.next ⟨4⟩)),
    ("nothing", .const false)]

def statement : SectionSort := .framed 1 {} (some ⟨21⟩) none

/-- The section of the statement was entered, and a hook is to wait for it. -/
def hooked : Marker × Session :=
  ((statement.enter nameAndNumber (.start default none)).1,
    (statement.enter nameAndNumber (.start default none)).2.addHook (.const true))

/-- The runs of the rules. -/
def running : Runner := runRef nameAndNumber (eval nameAndNumber 9)

/-- The statement is left with more to eat, of which an error is made: its node is widened over that. -/
theorem first_hook_given_node_widened :
    ∃ s u n, running (.named "statement") 2 hooked.2 = some (false, s) ∧
      statement.settle nameAndNumber running 9 hooked.1 none false true (some (.named "number")) s = some u ∧
      u.log.committedNodes.length = 2 ∧ u.log.kind? n = some ⟨21⟩ ∧
      ∀ hook : HookRunner, statement.leave nameAndNumber running hook 9 hooked.1 none false true
          (some (.named "number")) s =
        (hook (.const true) (some n) { u with hooks := [] }).bind fun y =>
          (y.2.runHooksFrom hook 8 y.1).map Session.closeLevel := by
  have calm {rule : RuleRef} (h : ∀ level s b s', running rule level s = some (b, s') → Session.Calm s s') :
      running.KeepsNodes rule :=
    fun level s b s' hr => ⟨(Session.Gentle.calm (h level s b s' hr)).nodes, (h level s b s' hr).position⟩
  have heat : running.KeepsNodes (.named "number") := calm fun level s b s' h => by
    obtain ⟨-, rfl⟩ := Prod.mk.inj (Option.some.inj h)
    exact (Session.Calm.next nameAndNumber s ⟨4⟩).trans (.recordCall ..)
  have hadvancer : running.KeepsNodes .advance := calm fun level s b s' h => by
    obtain ⟨-, rfl⟩ := Prod.mk.inj (Option.some.inj h)
    exact .stepOver nameAndNumber s
  have hrun : ∃ s u, running (.named "statement") 2 hooked.2 = some (false, s) ∧
      statement.settle nameAndNumber running 9 hooked.1 none false true (some (.named "number")) s = some u ∧
      u.log.committedNodes.length = 2 ∧ statement.CommitsOwn s ∧
      statement.commitKind? nameAndNumber hooked.1 none false true s = some ⟨21⟩ ∧
      statement.KeepsLast nameAndNumber running 9 hooked.1 none false true (some (.named "number")) s ∧
      u.hooks = [⟨1, .const true⟩] ∧ u.level = 1 := by
    refine ⟨_, _, rfl, rfl, rfl, fun frame h => ?_, rfl, fun frame frames h => ?_, rfl, rfl⟩
    · cases h
      exact ⟨rfl, nofun⟩
    · cases h
      exact .eatsFirst rfl ⟨rfl, _, rfl, rfl⟩ (Session.settleErrors_gentle heat hadvancer ..)
  obtain ⟨s, u, hs, hu, hnodes, hown, hkind, hkeeps, hhooks, hlevel⟩ := hrun
  have hg : nameAndNumber.grammar.Balanced fun _ => true := by decide
  have hopen : hooked.2.HooksOpen := fun h hh => by
    obtain rfl := List.mem_singleton.1 hh
    exact Nat.le_refl _
  have hcan : statement.CanCommit nameAndNumber hooked.1 hooked.2 :=
    (statement.canCommit_enter (.start default none) (List.pairwise_singleton ..)
      (fun _ _ hi => by cases hi)).addHook _
  have hascends : hooked.2.Ascends := List.pairwise_cons.2 ⟨by decide, List.pairwise_singleton ..⟩
  have hready := hcan.work hascends ((Grammar.balanced hg 9 _ _ _ _ _ hs).work hopen)
    (Grammar.leads_runRef nameAndNumber 9 _ _ _ _ _ hs)
  obtain ⟨-, -, n, -, -, -, -, -, -, -, -, hn, hfirst⟩ := first_hook_given_node hready hown rfl hkind
    (Grammar.leads_runRef nameAndNumber 9) hkeeps hu
  refine ⟨s, u, n, hs, hu, hnodes, hn, fun hook => ?_⟩
  exact hfirst hook [] [] ⟨1, .const true⟩ 8 hhooks (fun _ hd => nomatch hd) hlevel.symm rfl

/-- Hooks that go through only if they are given a node of a kind. -/
def onlyFor (kind : Kind) : HookRunner := fun _ m? s =>
  if m?.bind s.log.kind? = some kind then some (m?, s) else none

/-- The same statement is left with nothing to eat: the error that is reported comes behind its node, and it
is the error that the hook is given. -/
theorem first_hook_given_error :
    nameAndNumber.grammar.Balanced (fun _ => true) ∧
      ∃ s s', running (.named "statement") 2 hooked.2 = some (false, s) ∧
        s.hooks = [⟨1, .const true⟩] ∧ s.level = 1 ∧
        statement.commitKind? nameAndNumber hooked.1 none false true s = some ⟨21⟩ ∧
        statement.leave nameAndNumber running (onlyFor .error) 9 hooked.1 none false true
          (some (.named "nothing")) s = some s' ∧
        s'.aborted = none ∧ s'.log.kind? hooked.1 = some ⟨21⟩ ∧
        statement.leave nameAndNumber running (onlyFor ⟨21⟩) 9 hooked.1 none false true
          (some (.named "nothing")) s = none :=
  ⟨by decide, _, _, rfl, rfl, rfl, rfl, rfl, rfl, rfl, rfl⟩

end SectionSort

end Descent
