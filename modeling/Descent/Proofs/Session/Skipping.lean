import Descent.Proofs.Session.Grouping
import Descent.Session.Recovery

/-!
# What skipping keeps

Skipping runs the advancer and the condition under which more is eaten, in turn. Afterwards one error may
be reported, with more runs and chunks behind it. A property of sessions that the parts keep is kept by
the whole (`Session.skipRun_keeps`, `Session.reportSkipped_induction`). A recovery that has an outcome goes
through its stages one after another (`Session.exists_stages`).
-/

namespace Descent

/-- Whether an error was reported where a section ended, or, if it failed, anywhere inside. Recovery
does not report another one then. -/
def Frame.countsReported (frame : Frame) (result : Bool) (position : Nat) : Bool :=
  frame.errorAt == some position || (!result && frame.hasErrorFrom frame.position)

namespace Session

/-- The session comes out of a report for a frame as it does of any other. -/
theorem session_reportFor (g : Setup) (frame : Frame) (inner force : Bool) (s : Session) :
    (s.reportFor g frame inner force).2.2 = (s.report g frame.position inner force).2 := by
  unfold reportFor
  split
  · next heq => rw [heq]
  · next heq => rw [heq]

variable {g : Setup} {run : Runner} {eatMore : RuleRef} {rounds level lastError initial : Nat}
  {frame frame' : Frame} {kind : Option Kind} {result pinned more b : Bool} {s s' : Session}

/-- Either a token is stepped over, reported or not, and more are grouped behind it, or there may be a report
and nothing else. `P` is kept by the former, and `Q` holds in the end. -/
theorem reportSkipped_induction {P Q : Frame → Session → Prop} {eatsFirst : Bool}
    (hswallow : frame.countsReported result initial = false → ∀ b frame₁ t,
      s.reportSwallowingFor g run frame = some (b, frame₁, t) → P frame₁ t)
    (hstay : P frame s)
    (hrun : ∀ rule, rule = g.advancer ∨ rule = eatMore → ∀ frame₁ t b u, P frame₁ t →
      run rule (frame.level + 1) t = some (b, u) → P frame₁ u)
    (hgroup : ∀ frame₁ t b u, P frame₁ t →
      t.groupRun g run rounds (frame.level + 1) .chunk true g.advancer eatMore = some (b, u) →
      P frame₁ u)
    (hend : ∀ frame₁ t, P frame₁ t → Q frame₁ t)
    (hreport : frame.countsReported result initial = false →
      Q (s.reportFor g frame false true).2.1 (s.reportFor g frame false true).2.2)
    (hpinned : frame.countsReported result initial = false → eatsFirst = false →
      Q (s.reportFor g frame kind.isSome false).2.1 (s.reportFor g frame kind.isSome false).2.2)
    (h : s.reportSkipped g run rounds frame kind result pinned eatMore initial eatsFirst more =
      some (b, frame', s')) : Q frame' s' := by
  simp only [reportSkipped, Option.bind_eq_bind, ← bind_ite] at h
  split at h
  · obtain ⟨⟨reported, frame₁, t⟩, ht, h⟩ := Option.bind_eq_some_iff.1 h
    have hfirst : P frame₁ t := by
      split at ht
      · next hnot => exact hswallow (Bool.not_eq_eq_eq_not.1 hnot) _ _ _ ht
      · split at ht
        · obtain ⟨⟨c, u⟩, hu, heq⟩ := Option.map_eq_some_iff.1 ht
          cases heq
          exact hrun _ (.inl rfl) _ _ _ _ hstay hu
        · cases ht
          exact hstay
    dsimp only at h
    split at h
    · cases h
      exact hend _ _ hfirst
    · obtain ⟨⟨again, u⟩, hu, h⟩ := Option.bind_eq_some_iff.1 h
      have hagain := hrun _ (.inr rfl) _ _ _ _ hfirst hu
      split at h
      · obtain ⟨⟨c, v⟩, hv, h⟩ := Option.bind_eq_some_iff.1 h
        cases h
        exact hend _ _ (hgroup _ _ _ _ hagain hv)
      · cases h
        exact hend _ _ hagain
  · next hnot =>
    have hnot : frame.countsReported result initial = false := by
      simp_all [Frame.countsReported]
    split at h
    · have hq := hreport hnot
      rw [Option.some.inj h] at hq
      exact hq
    · next heats =>
      split at h
      · have hq := hpinned hnot (by simp_all)
        rw [Option.some.inj h] at hq
        exact hq
      · cases h
        exact hend _ _ hstay

/-- The stages of a recovery. The condition is asked where the next significant token is, unless there is
none; tokens are skipped, and what was skipped is reported; at last a node may be widened that was the last one
after the condition had been found to hold at once. -/
theorem exists_stages (h : s.recover g run rounds frame kind result pinned eatMore initial lastError =
    some (frame', s')) :
    ∃ eatsFirst t starts more u reported frame₁ v last,
      (eatsFirst = false ∧ t = { s with quiet := true }.toSignificant g ∨
        run eatMore (frame.level + 1) ({ s with quiet := true }.toSignificant g) = some (eatsFirst, t)) ∧
      t.skipRun g run eatMore (frame.name.getD "<section>") (frame.level + 1) lastError rounds starts 0 =
        some (more, u) ∧
      (u.note (.skipped u.position lastError more)).reportSkipped g run rounds frame kind result pinned
        eatMore initial eatsFirst more = some (reported, frame₁, v) ∧
      (∀ m, last = some m → eatsFirst = true ∧ t.log.lastWidenable? = some m) ∧
      ((frame', s') = (frame₁, { v.widenOver last frame₁.position with quiet := false }) ∨
        (frame', s') = { v.widenOver last frame₁.position with quiet := false }.clearAttempts frame₁) := by
  simp only [recover, Option.bind_eq_bind, ← bind_ite] at h
  obtain ⟨⟨eatsFirst, t⟩, ht, h⟩ := Option.bind_eq_some_iff.1 h
  obtain ⟨⟨more, u⟩, hu, h⟩ := Option.bind_eq_some_iff.1 h
  obtain ⟨⟨reported, frame₁, v⟩, hv, h⟩ := Option.bind_eq_some_iff.1 h
  dsimp only at h
  generalize hlast : (if (pinned || result) && (g.widensAlways || kind.isSome) && eatsFirst then
    t.log.lastWidenable? else none) = last at h
  refine ⟨eatsFirst, t, _, more, u, reported, frame₁, v, last, ?_, hu, hv, fun m hm => ?_, ?_⟩
  · split at ht
    · cases ht
      exact .inl ⟨rfl, rfl⟩
    · exact .inr ht
  · subst hlast
    split at hm
    · next hwidens => exact ⟨(Bool.and_eq_true_iff.1 hwidens).2, hm⟩
    · cases hm
  · split at h
    · exact .inr (Option.some.inj h).symm
    · exact .inl (Option.some.inj h).symm

variable {I : Session → Prop}
  (hrun : ∀ rule, rule = g.advancer ∨ rule = eatMore → ∀ level s b s', I s →
    run rule level s = some (b, s') → I s')
include hrun

/-- Skipping goes on to the next significant token, and ends the session where the advancer steps over none. -/
theorem skipRun_moves (hseek : ∀ s, I s → I (s.toSignificant g))
    (habort : ∀ s error, I s → I (s.abort g error)) {name : String} {depth : Int} (hs : I s)
    (h : s.skipRun g run eatMore name level lastError rounds more depth = some (b, s')) : I s' := by
  induction rounds generalizing s more depth with
  | zero => cases h
  | succ rounds ih =>
    have hnext := hseek _ hs
    simp only [skipRun] at h
    split at h
    · split at h
      · cases h
        exact hnext
      · obtain ⟨⟨c, t⟩, ht, h⟩ := Option.bind_eq_some_iff.1 h
        have hstep := hrun _ (.inl rfl) _ _ _ _ hnext ht
        dsimp only at h
        split at h
        · cases h
          exact habort _ _ (hseek _ hstep)
        · obtain ⟨⟨c, u⟩, hu, h⟩ := Option.bind_eq_some_iff.1 h
          exact ih (hrun _ (.inr rfl) _ _ _ _ hstep hu) h
    · cases h
      exact hs

theorem skipRun_keeps (hcalm : ∀ s s', I s → Calm s s' → I s') {name : String} {depth : Int}
    (hs : I s)
    (h : s.skipRun g run eatMore name level lastError rounds more depth = some (b, s')) : I s' :=
  skipRun_moves hrun (fun s hs => hcalm _ _ hs (.toSignificant g s))
    (fun s error hs => hcalm _ _ hs (.abort g s error)) hs h

theorem reportSkipped_keeps
    (hswallow : ∀ b frame' t, s.reportSwallowingFor g run frame = some (b, frame', t) → I t)
    (hgroup : ∀ t b t', I t → t.groupRun g run rounds (frame.level + 1) .chunk true g.advancer
      eatMore = some (b, t') → I t')
    (hreport : ∀ inner force, I (s.reportFor g frame inner force).2.2) (hs : I s)
    {eatsFirst : Bool} (h : s.reportSkipped g run rounds frame kind result pinned eatMore initial
      eatsFirst more = some (b, frame', s')) : I s' := by
  refine reportSkipped_induction (P := fun _ t => I t) (Q := fun _ t => I t) (fun _ => hswallow) hs
    (fun rule hrule _ t b u ht hr => hrun rule hrule _ t b u ht hr)
    (fun _ t b u => hgroup t b u) (fun _ _ => id) (fun _ => hreport ..) (fun _ _ => hreport ..) h

end Session

end Descent
