import Descent.Parse
import Descent.Proofs.MarkerLog.Continuation
import Descent.Proofs.Session.Grouped

/-!
# Work continues the log

Work rolls back to no marker but those it opened itself, so it continues the log
(`Work.continues`), whatever else it does to the markers.
-/

namespace Descent

namespace Session

variable {g : Setup} {s s₁ : Session} {m : Marker}

theorem fst_wrap (m : Marker) (s : Session) : (s.wrap m).1 = s.log.fresh := by
  unfold wrap
  dsimp only
  split <;> rfl

theorem position_wrap (m : Marker) (s : Session) : (s.wrap m).2.position = s.position := by
  unfold wrap
  dsimp only
  split <;> rfl

/-- Commits a node around a marker. -/
def enclose (m : Marker) (kind : Kind) (error : Option SyntaxError) (s : Session) : Session :=
  (s.wrap m).2.commit (s.wrap m).1 kind error

/-- Widening a node commits one around it and drops it; what is not committed is not widened. -/
theorem widen_cases (m : Marker) (s : Session) :
    s.widen m = s ∨ s.log.isCommitted m = true ∧
      ∃ kind error, s.widen m = (s.enclose m kind error).drop m := by
  unfold widen
  cases hkind : s.log.kind? m with
  | none => exact .inl rfl
  | some kind =>
    refine .inr ⟨?_, ?_⟩
    · obtain ⟨info, hi, hk⟩ := Option.bind_eq_some_iff.1 hkind
      refine MarkerLog.isCommitted_iff.2 ⟨info, hi, ?_⟩
      by_cases hs : info.stage = .committed
      · exact hs
      · rw [if_neg hs] at hk
        cases hk
    · dsimp only
      split
      · next error _ => exact ⟨.error, some error, rfl⟩
      · exact ⟨kind, none, rfl⟩

/-! ## What single steps do -/

theorem continues_openMarker (h : s.log.Sound) (g : Setup) :
    s.log.Continues (s.openMarker g).2.log :=
  .openAt h (s.toSignificant g).position

theorem continues_commit (h : s.log.Sound) (m : Marker) (kind : Kind)
    (error : Option SyntaxError) : s.log.Continues (s.commit m kind error).log := by
  rw [log_commit]
  exact .commit h m kind error s.position

theorem continues_enclose (h : s.log.Sound) (m : Marker) (kind : Kind)
    (error : Option SyntaxError) : s.log.Continues (s.enclose m kind error).log := by
  have hwrap : s.log.Continues (s.wrap m).2.log := by
    rw [log_wrap]
    exact .wrap h m
  exact hwrap.trans (continues_commit hwrap.sound _ kind error)

theorem continues_widen (h : s.log.Sound) (m : Marker) : s.log.Continues (s.widen m).log := by
  rcases widen_cases m s with he | ⟨-, kind, error, he⟩
  · rw [he]
    exact .refl h
  · have henclose := continues_enclose h m kind error
    rw [he]
    exact henclose.trans (.drop henclose.sound m)

/-- What was done since a marker was opened is taken back. -/
theorem continues_rollback (h : s.log.Sound) (hin : (s.openMarker g).2.log.Continues s₁.log) :
    s.log.Continues (s₁.rollback (s.openMarker g).1).log := by
  have hopen := continues_openMarker h g
  rcases s₁.log_rollback (s.openMarker g).1 with he | ⟨q, hr⟩
  · rw [he]
    exact hopen.trans hin
  · exact hin.rollback h hr

end Session

open Session

/-- Markers are opened, committed, dropped and wrapped in any order. -/
theorem MarkerLog.Continues.invariant (g : Setup) (log : MarkerLog) :
    MarkerInvariant g (fun s => log.Continues s.log) (fun _ => True) fun _ => True where
  calm h hc := hc.log ▸ h
  openMarker h := ⟨h.trans (.openAt h.sound _), trivial⟩
  commitAs kind h _ _ := h.trans (continues_commit h.sound _ kind none)
  drop h _ := h.trans (.drop h.sound _)
  wrap h _ := ⟨h.trans (by rw [log_wrap]; exact .wrap h.sound _), trivial⟩

namespace Work

variable {allows : Modifiers → Bool} {g : Setup} {s s' : Session} {first : Option Marker}

theorem continues (h : Work allows g first s s') (hs : s.log.Sound) : s.log.Continues s'.log := by
  induction h with
  | steady h =>
    rw [h.log]
    exact .refl hs
  | trans _ _ ih ih' => exact (ih hs).trans (ih' (ih hs).sound)
  | node kind error _ ih =>
    have hopen := continues_openMarker hs g
    have hin := hopen.trans (ih hopen.sound)
    exact hin.trans (continues_commit hin.sound _ kind error)
  | bare _ ih =>
    have hopen := continues_openMarker hs g
    have hin := hopen.trans (ih hopen.sound)
    exact hin.trans (.drop hin.sound _)
  | undone _ ih => exact continues_rollback hs (ih (continues_openMarker hs g).sound)
  | next _ _ ih ih' => exact (ih hs).trans (ih' (ih hs).sound)
  | rest _ h ih =>
    rw [h.log]
    exact ih hs
  | fold kind _ ih => exact (ih hs).trans (continues_enclose (ih hs).sound _ kind none)
  | forget _ ih => exact ih hs
  | absorb _ => exact .drop hs _
  | widen _ _ ih => exact (ih hs).trans (continues_widen (ih hs).sound _)
  | wrapLeft kind _ _ _ _ ih => exact (ih hs).trans (continues_enclose (ih hs).sound _ kind none)
  | widenLeft _ _ _ _ ih => exact (ih hs).trans (continues_widen (ih hs).sound _)
  | supply => exact .refl hs
  | level _ ih => exact ih hs
  | framed _ _ _ ih => exact ih hs
  | hushed _ _ ih => exact ih hs
  | @delimited _ _ _ _ _ _ _ _ s _ _ hrun hhooks h ih =>
    have hinvariant :=
      (@Surroundings.invariant allows g s).and (MarkerLog.Continues.invariant g s.log)
    have hstart : s.Surroundings allows s := .of_eq rfl rfl rfl rfl rfl
    refine (hinvariant.groupRun ?_ ⟨hstart, .refl hs⟩ h trivial).2
    -- the hooks stay as they are, so whatever rule is run does work
    intro rule _ level t b t' ⟨ht, hlog⟩ hr
    have hopen := ht.hooksOpen hhooks
    exact ⟨ht.trans (hrun rule level t b t' hopen hr).surroundings,
      hlog.trans (ih rule level t b t' hopen hr hlog.sound)⟩

end Work

/-- What holds in every state of a parse: the log is sound, no hook waits for a section that is
closed, and a lookahead section that is open can be left again. -/
structure Session.Regular (s : Session) : Prop where
  log : s.log.Sound
  hooks : s.HooksOpen
  lookahead : s.lookahead.depth = 0 → s.lookahead.positive = true

namespace Session.Regular

variable {allows : Modifiers → Bool} {g : Setup} {s s' : Session} {first : Option Marker}

theorem start (limits : Limits) (caret : Option Nat) : (Session.start limits caret).Regular where
  log := .empty
  hooks := fun _ h => nomatch h
  lookahead := fun _ => rfl

theorem work (hs : s.Regular) (h : Work allows g first s s') : s'.Regular where
  log := (h.continues hs.log).sound
  hooks := h.surroundings.hooksOpen hs.hooks
  lookahead := by
    rw [h.surroundings.lookahead hs.lookahead]
    exact hs.lookahead

end Session.Regular

end Descent
