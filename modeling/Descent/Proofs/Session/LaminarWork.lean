import Descent.Proofs.MarkerLog.OnTop
import Descent.Proofs.Session.WorkLog

/-!
# Work above the open markers

Without `left` and `leftInner` no section reaches for a node in front of it, and without delimiters
no chunk does. Then whatever work is done happens above the open markers, and if it begins with a node
all of it is behind the start of that node (`Work.grows`). So the log stays laminar.
-/

namespace Descent

/-- The log has grown above its open markers, and behind the start of the first node if there is
one. -/
def MarkerLog.Grows : Option Marker → MarkerLog → MarkerLog → Prop
  | none => OnTop
  | some m => Behind m

open MarkerLog (OnTop Behind Grows)
open Session (continues_openMarker fst_wrap)

namespace Session

theorem log_enclose (m : Marker) (kind : Kind) (error : Option SyntaxError) (s : Session) :
    (s.enclose m kind error).log = s.log.enclose m kind error s.position := by
  rw [enclose, log_commit, log_wrap, fst_wrap, position_wrap, MarkerLog.enclose]

end Session

/-- The log of a session in which a marker was just opened. -/
theorem MarkerLog.opened_of_openMarker {g : Setup} {s : Session} {o : Marker}
    (h : (s.openMarker g).2.log.stage? o = some .opened) :
    o = s.log.fresh ∨ s.log.stage? o = some .opened := by
  have h : ite _ _ _ = _ := (MarkerLog.stage?_openAt s.log (g.significant s.position) o) ▸ h
  split at h
  · next ho => exact .inl ho
  · exact .inr h

namespace Work

variable {allows : Modifiers → Bool} {g : Setup} {s s' s₁ : Session} {first : Option Marker}
  {m : Marker}

theorem opened_fresh (h : OnTop (s.openMarker g).2.log s₁.log) :
    s₁.log.stage? s.log.fresh = some .opened := by
  have hopen : (s.openMarker g).2.log.stage? s.log.fresh = some .opened :=
    (MarkerLog.stage?_openAt _ _ _).trans (if_pos rfl)
  exact (h.opened_iff (MarkerLog.number_lt_of_stage? hopen)).2 hopen

/-- The latest marker is committed. -/
theorem grows_node (hs : s.log.Sound) (hc : (s.openMarker g).2.log.Continues s₁.log)
    (h : OnTop (s.openMarker g).2.log s₁.log) (kind : Kind) (error : Option SyntaxError) :
    Behind s.log.fresh s.log (s₁.commit s.log.fresh kind error).log := by
  have hopen := opened_fresh h
  have hlast (o : Marker) (ho : s₁.log.stage? o = some .opened) :
      s₁.log.opens o ≤ s₁.log.opens s.log.fresh := by
    rcases MarkerLog.opened_of_openMarker (h.opened_of_opened ho) with rfl | ho
    · exact Nat.le_refl _
    · have hmem := hs.start_mem_of_opened ho
      have hne : Entry.start s.log.fresh ≠ .start o := fun he => hs.start_fresh_notMem (he ▸ hmem)
      have hlt : rank (.start s.log.fresh :: s.log.entries) (.start o) <
          rank (.start s.log.fresh :: s.log.entries) (.start s.log.fresh) := by
        rw [rank_cons_of_ne _ hne, rank_cons_self]
        exact Nat.lt_succ_of_le (rank_le_length ..)
      exact Nat.le_of_lt
        ((hc.rank_lt_iff (List.mem_cons_of_mem _ hmem) List.mem_cons_self).2 hlt)
  rw [Session.log_commit]
  refine OnTop.behind h (h.laminar.commit hopen hlast kind error _)
    (MarkerLog.suffix_entries_commit ..) (fun x hx => ?_) ?_
  · rw [MarkerLog.stage?_commit hopen, if_neg hx]
  · rw [MarkerLog.stage?_commit hopen, if_pos rfl]
    exact fun h => by cases h

theorem grows_bare (h : OnTop (s.openMarker g).2.log s₁.log) :
    Behind s.log.fresh s.log (s₁.drop s.log.fresh).log := by
  refine OnTop.behind h (h.laminar.drop _) (MarkerLog.suffix_entries_drop ..) (fun x hx => ?_) ?_
  · exact MarkerLog.stage?_drop_of_ne (Ne.symm hx)
  · rw [Session.log_drop, MarkerLog.stage?_drop_self (.inl (opened_fresh h))]
    exact fun h => by cases h

theorem grows_undone (hs : s.log.Sound) (hl : s.log.Laminar)
    (hc : (s.openMarker g).2.log.Continues s₁.log) (h : OnTop (s.openMarker g).2.log s₁.log) :
    OnTop s.log (s₁.rollback s.log.fresh).log := by
  obtain ⟨q, log', hr⟩ :=
    (hc.since s.log _ hs (.intro hs (g.significant s.position))).exists_rollback
  have hlog : (s₁.rollback s.log.fresh).log = log' := by rw [Session.rollback, hr]
  rw [hlog]
  exact h.rollback hl hs hc.sound hr

theorem grows_widen (hs : s.log.Sound) (hl : s.log.Laminar) (hc : s.log.Continues s₁.log)
    (h : OnTop s.log s₁.log) (hm : s.log.lastWidenable? = some m) :
    OnTop s.log (s₁.widen m).log := by
  rcases Session.widen_cases m s₁ with he | ⟨hcommitted, kind, error, he⟩
  · rw [he]
    exact h
  · rw [he, Session.log_drop, Session.log_enclose]
    exact h.widen hl hs hc hm (MarkerLog.isCommitted_iff_stage?.1 hcommitted) kind error _

/-- Work is done above the open markers, and behind the node that it begins with. -/
theorem grows (hpairs : g.language.delimiters = [])
    (hleft : ∀ modifiers, allows modifiers = true → modifiers.takesLeft = false)
    (h : Work allows g first s s') (hs : s.log.Sound) (hl : s.log.Laminar) :
    Grows first s.log s'.log := by
  have hnot {modifiers : Modifiers} (hallows : allows modifiers = true)
      (htakes : modifiers.takesLeft = true) : False := by
    rw [hleft modifiers hallows] at htakes
    cases htakes
  induction h with
  | steady h =>
    rw [h.log]
    exact OnTop.refl hl
  | trans h h' ih ih' =>
    have hc := h.continues hs
    have h₁ : OnTop _ _ := ih hs hl
    exact h₁.trans (ih' hc.sound h₁.laminar) hc.size
  | node kind error h ih =>
    have hopen := (continues_openMarker hs g).sound
    exact grows_node hs (h.continues hopen) (ih hopen (hl.openAt _)) kind error
  | bare h ih =>
    have hopen := (continues_openMarker hs g).sound
    have hbare := grows_bare (ih hopen (hl.openAt _))
    exact hbare.onTop hs ((h.continues hopen).sound.drop _)
  | undone h ih =>
    have hopen := (continues_openMarker hs g).sound
    exact grows_undone hs hl (h.continues hopen) (ih hopen (hl.openAt _))
  | next h _ ih ih' =>
    have hc := h.continues hs
    have h₁ : Behind _ _ _ := ih hs hl
    exact h₁.next (ih' hc.sound h₁.laminar) hc.size
  | rest _ h' ih =>
    rw [h'.log]
    exact ih hs hl
  | @fold _ s₁ _ kind h ih =>
    have hfold := Behind.enclose (ih hs hl) hs (h.continues hs).sound kind none s₁.position
    rw [← Session.log_enclose, ← fst_wrap] at hfold
    exact hfold
  | forget h ih =>
    have h₁ : Behind _ _ _ := ih hs hl
    exact h₁.onTop hs (h.continues hs).sound
  | absorb hm =>
    exact OnTop.drop hl
      (MarkerLog.isCommitted_iff_stage?.1 (MarkerLog.isCommitted_of_lastCommitted? hm))
  | widen hm h ih => exact grows_widen hs hl (h.continues hs) (ih hs hl) hm
  | wrapLeft _ hallows htakes => exact (hnot hallows htakes).elim
  | widenLeft hallows htakes => exact (hnot hallows htakes).elim
  | supply => exact OnTop.refl hl
  | level _ ih => exact ih hs hl
  | framed _ _ _ ih => exact ih hs hl
  | hushed _ _ ih => exact ih hs hl
  | delimited h => exact absurd hpairs h

end Work

end Descent
