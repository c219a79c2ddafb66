import Descent.Proofs.Session.LeadsTo

/-!
# Answers that lead to the end

While a section is left or items are grouped, rules are asked, and from each answer marker steps lead
to the end. So if another runner gives the same answers wherever they lead to that end, it comes to
the same end (`Session.leave_agree`, `Session.groupRun_agree`). It may have more rounds, and the hooks may
be run in another way if that gives all answers, too (`HookRunner.AgreesWith`).
-/

namespace Descent

open Session (LeadsTo)

/-- Another runner gives all answers from which marker steps lead to a state. -/
def Runner.AgreesTo (run run' : Runner) (s' : Session) : Prop :=
  ∀ rule level t b t', run rule level t = some (b, t') → t'.LeadsTo s' →
    run' rule level t = some (b, t')

/-- Another way to run hooks gives all answers. -/
def HookRunner.AgreesWith (hook hook' : HookRunner) : Prop :=
  ∀ body m? t x, hook body m? t = some x → hook' body m? t = some x

namespace Runner

variable {run run' : Runner} {rule : RuleRef} {level : Nat} {s t s' : Session} {b : Bool}
  {x : Bool × Session} {p : Prop} [Decidable p]

theorem AgreesTo.back (h : run.AgreesTo run' s') (ht : t.LeadsTo s') : run.AgreesTo run' t :=
  fun rule level u b u' hu hlead => h rule level u b u' hu (hlead.trans ht)

/-- A rule is asked on a condition. -/
theorem AgreesTo.ite (h : run.AgreesTo run' s') {a : Option (Bool × Session)}
    (hx : (if p then run rule level s else a) = some x) (hlead : x.2.LeadsTo s') :
    (if p then run' rule level s else a) = some x := by
  split at hx
  · next hp =>
    rw [if_pos hp]
    exact h _ _ _ _ _ hx hlead
  · next hp =>
    rw [if_neg hp]
    exact hx

theorem Leads.ite (h : run.Leads)
    (hx : (if p then run rule level s else some (b, s)) = some x) : s.LeadsTo x.2 := by
  split at hx
  · exact h _ _ _ _ _ hx
  · cases hx
    exact .refl s

end Runner

namespace Session

variable {g : Setup} {run run' : Runner} {s s' : Session}
  {rounds rounds' level lastError initial : Nat}
  {frame frame' : Frame} {name : String} {result pinned more : Bool} {item eatMore : RuleRef}
  {depth : Int} {c c' : Grouping} (hrun : run.Leads) (hsame : run.AgreesTo run' s')

/-! ## Grouping -/

section
variable {kind : Kind} {pair? : Option Delimiters}

theorem leadsTo_foldFull (g : Setup) (kind : Kind) (c : Grouping) (s : Session) :
    s.LeadsTo (s.foldFull g kind c).2 :=
  ((LeadsTo.invariant g s).steps.moves.foldFull kind (.refl s)
    c.all_true trivial).1

include hsame

theorem delimiterStep_agree {pair : Delimiters}
    (h : s.delimiterStep g run level kind pair c = some (c', s')) :
    s.delimiterStep g run' level kind pair c = some (c', s') := by
  obtain ⟨⟨b, t⟩, ht, hrest⟩ := Option.bind_eq_some_iff.1 h
  have hlead : t.LeadsTo s' := by
    dsimp only at hrest
    split at hrest
    · split at hrest
      · cases hrest
        exact .refl _
      · next region regions _ =>
        have hcommit : t.LeadsTo (t.commitAs region.marker kind) := .commitAs ..
        have hfold : (t.commitAs region.marker kind).LeadsTo (c', s').2 :=
          Option.some.inj hrest ▸ leadsTo_foldFull ..
        exact hcommit.trans hfold
    · cases hrest
      exact .refl _
  exact Option.bind_eq_some_iff.2 ⟨_, hsame _ _ _ _ _ ht hlead, hrest⟩

include hrun

theorem itemStep_agree {b : Bool}
    (h : s.itemStep g run level item eatMore c = some (b, c', s')) :
    s.itemStep g run' level item eatMore c = some (b, c', s') := by
  rw [itemStep_eq] at h ⊢
  obtain ⟨x, hx, h⟩ := Option.bind_eq_some_iff.1 h
  obtain ⟨y, hy, h⟩ := Option.bind_eq_some_iff.1 h
  have hlast : y.2.LeadsTo s' := by
    split at h
    · cases h
      exact .refl _
    · cases h
      exact .refl _
  rw [hsame.ite hx ((hrun.ite hy).trans hlast), Option.bind_some, hsame.ite hy hlast]
  exact h

theorem roundStep_agree {b : Bool}
    (h : s.roundStep g run level kind pair? item eatMore c = some (b, c', s')) :
    s.roundStep g run' level kind pair? item eatMore c = some (b, c', s') := by
  unfold roundStep at h ⊢
  split at h
  · obtain ⟨x, hx, hres⟩ := Option.map_eq_some_iff.1 h
    cases hres
    rw [delimiterStep_agree hsame hx, Option.map_some]
  · exact itemStep_agree hrun hsame h

theorem groupItems_agree (hrounds : rounds ≤ rounds')
    (h : s.groupItems g run level kind pair? item eatMore rounds c = some (c', s')) :
    s.groupItems g run' level kind pair? item eatMore rounds' c = some (c', s') := by
  induction rounds generalizing rounds' c s with
  | zero => cases h
  | succ rounds ih =>
    obtain ⟨rounds', rfl⟩ := Nat.exists_eq_add_one.2 (Nat.zero_lt_of_lt hrounds)
    rw [groupItems_succ] at h ⊢
    obtain ⟨⟨parsed, c₁, s₁⟩, hstep, h⟩ := Option.bind_eq_some_iff.1 h
    have hfold : s₁.LeadsTo (s₁.foldIfFull g kind c₁).2 :=
      ((LeadsTo.invariant g s₁).steps.moves.foldIfFull kind (.refl s₁) c₁.all_true trivial).1
    have hguard : s₁.LeadsTo
        ((s₁.foldIfFull g kind c₁).2.guardProgress g "parse_as_tree" s.position).2 :=
      hfold.trans (.calm (.guardProgress ..))
    have hround (hlead : s₁.LeadsTo s') := roundStep_agree hrun (hsame.back hlead) hstep
    dsimp only at h
    split at h
    · next hparsed =>
      cases h
      rw [hround (.refl _), Option.bind_some]
      exact if_pos hparsed
    · next hparsed =>
      split at h
      · next t ht =>
        rw [ht] at hguard
        have hmore : t.LeadsTo s' := ((LeadsTo.invariant g t).steps.moves.groupItems
          (fun rule _ level u b u' hu hr => ⟨hu.trans (hrun rule level u b u' hr), fun _ hm => hm⟩)
          (.refl t) (Grouping.all_true _) h trivial).1
        rw [hround (hguard.trans hmore), Option.bind_some]
        simp only [if_neg hparsed, ht]
        exact ih (Nat.le_of_succ_le_succ hrounds) h
      · next t ht =>
        rw [ht] at hguard
        cases h
        rw [hround hguard, Option.bind_some]
        simp only [if_neg hparsed, ht]

theorem groupRun_agree {minds b : Bool} (hrounds : rounds ≤ rounds')
    (h : s.groupRun g run rounds level kind minds item eatMore = some (b, s')) :
    s.groupRun g run' rounds' level kind minds item eatMore = some (b, s') := by
  rw [groupRun_eq] at h ⊢
  obtain ⟨⟨c, t⟩, hitems, h⟩ := Option.bind_eq_some_iff.1 h
  have hlead : t.LeadsTo s' := by
    obtain ⟨-, rfl⟩ := Prod.mk.inj (Option.some.inj h)
    have hdrop := (LeadsTo.invariant g t).steps.moves.dropOpen (.refl t) c.all_true
    exact hdrop.trans (.still rfl)
  exact Option.bind_eq_some_iff.2 ⟨_, groupItems_agree hrun (hsame.back hlead) hrounds hitems, h⟩

end

/-! ## Recovery -/

include hsame

theorem reportSwallowing_agree {p : Option Nat}
    (h : s.reportSwallowing g run level = some (p, s')) :
    s.reportSwallowing g run' level = some (p, s') := by
  unfold reportSwallowing at h ⊢
  split at h
  · next haborted =>
    rw [if_pos haborted]
    exact h
  · next haborted =>
    rw [if_neg haborted]
    obtain ⟨⟨b, t⟩, ht, h⟩ := Option.bind_eq_some_iff.1 h
    have hlead : t.LeadsTo s' := by
      obtain ⟨-, rfl⟩ := Prod.mk.inj (Option.some.inj h)
      exact .trans (.commitError (.inl (LeadsTo.errorHere_isSyntaxError ..))) (.still rfl)
    exact Option.bind_eq_some_iff.2 ⟨_, hsame _ _ _ _ _ ht hlead, h⟩

theorem reportSwallowingFor_agree {b : Bool}
    (h : s.reportSwallowingFor g run frame = some (b, frame', s')) :
    s.reportSwallowingFor g run' frame = some (b, frame', s') := by
  obtain ⟨⟨p, t⟩, ht, h⟩ := Option.bind_eq_some_iff.1 h
  have hlast : t = s' := by
    cases p with
    | some p => cases h; rfl
    | none => cases h; rfl
  rw [hlast] at ht h
  exact Option.bind_eq_some_iff.2 ⟨_, reportSwallowing_agree hsame ht, h⟩

variable (hrounds : rounds ≤ rounds')
include hrun hrounds

theorem skipRun_agree {more' : Bool}
    (h : s.skipRun g run eatMore name level lastError rounds more depth = some (more', s')) :
    s.skipRun g run' eatMore name level lastError rounds' more depth = some (more', s') := by
  induction rounds generalizing rounds' s more depth with
  | zero => cases h
  | succ rounds ih =>
    obtain ⟨rounds', rfl⟩ := Nat.exists_eq_add_one.2 (Nat.zero_lt_of_lt hrounds)
    simp only [skipRun] at h ⊢
    split at h
    · next hmore =>
      rw [if_pos hmore]
      split at h
      · next hend =>
        rw [if_pos hend]
        exact h
      · next hend =>
        rw [if_neg hend]
        obtain ⟨⟨b, t⟩, ht, h⟩ := Option.bind_eq_some_iff.1 h
        dsimp only at h
        split at h
        · next hstuck =>
          have hlead : t.LeadsTo s' := by
            cases h
            have hseek : t.LeadsTo (t.toSignificant g) := .still rfl
            exact hseek.trans (.calm (.abort ..))
          refine Option.bind_eq_some_iff.2 ⟨_, hsame _ _ _ _ _ ht hlead, ?_⟩
          exact (if_pos hstuck).trans h
        · next hmoved =>
          obtain ⟨⟨c, u⟩, hu, h⟩ := Option.bind_eq_some_iff.1 h
          have hrest : u.LeadsTo s' := .skipRun hrun h
          have hlead := (hrun _ _ _ _ _ hu).trans hrest
          refine Option.bind_eq_some_iff.2 ⟨_, hsame _ _ _ _ _ ht hlead, ?_⟩
          refine (if_neg hmoved).trans ?_
          have hmore := ih (Nat.le_of_succ_le_succ hrounds) h
          exact Option.bind_eq_some_iff.2 ⟨_, hsame _ _ _ _ _ hu hrest, hmore⟩
    · next hmore =>
      rw [if_neg hmore]
      exact h

section
variable {kind : Option Kind}

theorem reportSkipped_agree {eatsFirst reported : Bool}
    (h : s.reportSkipped g run rounds frame kind result pinned eatMore initial eatsFirst more =
      some (reported, frame', s')) :
    s.reportSkipped g run' rounds' frame kind result pinned eatMore initial eatsFirst more =
      some (reported, frame', s') := by
  simp only [reportSkipped, Option.bind_eq_bind, ← bind_ite] at h ⊢
  split at h
  · next hreports =>
    rw [if_pos hreports]
    obtain ⟨⟨b, frame₁, t⟩, ht, h⟩ := Option.bind_eq_some_iff.1 h
    have hfirst (hlead : t.LeadsTo s') :
        (if !(frame.errorAt == some initial || (!result && frame.hasErrorFrom frame.position)) then
          s.reportSwallowingFor g run' frame
        else if more then (run' g.advancer (frame.level + 1) s).map fun x => (true, frame, x.2)
        else some (true, frame, s)) = some (b, frame₁, t) := by
      split at ht
      · next hr =>
        rw [if_pos hr]
        exact reportSwallowingFor_agree (hsame.back hlead) ht
      · next hr =>
        rw [if_neg hr]
        split at ht
        · next hm =>
          rw [if_pos hm]
          obtain ⟨⟨c, u⟩, hu, heq⟩ := Option.map_eq_some_iff.1 ht
          cases heq
          rw [hsame _ _ _ _ _ hu hlead]
          rfl
        · next hm =>
          rw [if_neg hm]
          exact ht
    dsimp only at h
    split at h
    · next haborted =>
      cases h
      exact Option.bind_eq_some_iff.2 ⟨_, hfirst (.refl _), if_pos haborted⟩
    · next haborted =>
      obtain ⟨⟨again, u⟩, hu, h⟩ := Option.bind_eq_some_iff.1 h
      have hrest : u.LeadsTo s' := by
        split at h
        · obtain ⟨⟨c, v⟩, hv, h⟩ := Option.bind_eq_some_iff.1 h
          cases h
          exact .groupRun hrun hv
        · cases h
          exact .refl _
      refine Option.bind_eq_some_iff.2 ⟨_, hfirst ((hrun _ _ _ _ _ hu).trans hrest), ?_⟩
      refine (if_neg haborted).trans ?_
      refine Option.bind_eq_some_iff.2 ⟨_, hsame _ _ _ _ _ hu hrest, ?_⟩
      split at h
      · next hagain =>
        refine (if_pos hagain).trans ?_
        obtain ⟨⟨c, v⟩, hv, h⟩ := Option.bind_eq_some_iff.1 h
        cases h
        exact Option.bind_eq_some_iff.2 ⟨_, groupRun_agree hrun hsame hrounds hv, rfl⟩
      · next hagain => exact (if_neg hagain).trans h
  · next hreports =>
    rw [if_neg hreports]
    exact h

theorem recover_agree
    (h : s.recover g run rounds frame kind result pinned eatMore initial lastError =
      some (frame', s')) :
    s.recover g run' rounds' frame kind result pinned eatMore initial lastError =
      some (frame', s') := by
  simp only [recover, Option.bind_eq_bind, ← bind_ite] at h ⊢
  obtain ⟨⟨eatsFirst, t⟩, ht, h⟩ := Option.bind_eq_some_iff.1 h
  obtain ⟨⟨more, u⟩, hu, h⟩ := Option.bind_eq_some_iff.1 h
  obtain ⟨⟨reported, frame₁, v⟩, hv, h⟩ := Option.bind_eq_some_iff.1 h
  have hlast : v.LeadsTo s' := by
    dsimp only at h
    split at h
    · obtain ⟨-, rfl⟩ := Prod.mk.inj (Option.some.inj h)
      exact .trans (.widenOver ..) (.still rfl)
    · cases h
      exact .trans (.widenOver ..) (.still rfl)
  have hskipped : u.LeadsTo v := by
    have hnote : u.LeadsTo (u.note (.skipped u.position lastError more)) := .still rfl
    exact hnote.trans (.reportSkipped hrun hv)
  have hrest := hskipped.trans hlast
  have hfirst : (if ({ s with quiet := true }.toSignificant g).isAtEnd g then
        some (false, { s with quiet := true }.toSignificant g)
      else run' eatMore (frame.level + 1) ({ s with quiet := true }.toSignificant g)) =
        some (eatsFirst, t) := by
    split at ht
    · next hend =>
      rw [if_pos hend]
      exact ht
    · next hend =>
      rw [if_neg hend]
      exact hsame _ _ _ _ _ ht (.trans (.skipRun hrun hu) hrest)
  refine Option.bind_eq_some_iff.2 ⟨_, hfirst, ?_⟩
  refine Option.bind_eq_some_iff.2 ⟨_, skipRun_agree hrun (hsame.back hrest) hrounds hu, ?_⟩
  exact Option.bind_eq_some_iff.2 ⟨_, reportSkipped_agree hrun (hsame.back hlast) hrounds hv, h⟩

theorem settleErrors_agree {eatMore : Option RuleRef}
    (h : s.settleErrors g run rounds frame kind result pinned eatMore = some s') :
    s.settleErrors g run' rounds' frame kind result pinned eatMore = some s' := by
  rw [settleErrors_eq] at h ⊢
  generalize s.attemptsByName g frame kind (result || pinned) = x at h ⊢
  obtain ⟨⟨frame₁, t⟩, ht, h⟩ := Option.bind_eq_some_iff.1 h
  have hlead : t.LeadsTo s' := by
    cases h
    exact .still rfl
  refine Option.bind_eq_some_iff.2 ⟨_, ?_, h⟩
  unfold settleFrame at ht ⊢
  split at ht
  · exact recover_agree hrun (hsame.back hlead) hrounds ht
  · exact ht

end

/-! ## Leaving -/

section
omit hrun hsame
variable {hook hook' : HookRunner} {m : Marker} {kind : Option Kind} (hhook : hook.Leads)
  (hagrees : hook.AgreesWith hook')
include hagrees

theorem runHooksFrom_agree {m? : Option Marker} (h : s.runHooksFrom hook rounds m? = some s') :
    s.runHooksFrom hook' rounds' m? = some s' := by
  induction rounds generalizing rounds' s m? with
  | zero => cases h
  | succ rounds ih =>
    obtain ⟨rounds', rfl⟩ := Nat.exists_eq_add_one.2 (Nat.zero_lt_of_lt hrounds)
    have hrounds := Nat.le_of_succ_le_succ hrounds
    unfold runHooksFrom at h ⊢
    split at h
    · exact h
    · split at h
      · next hlevel => exact (if_pos hlevel).trans h
      · next hlevel =>
        refine (if_neg hlevel).trans ?_
        dsimp only at h ⊢
        split at h
        · next heq =>
          obtain ⟨x, hx, h⟩ := Option.bind_eq_some_iff.1 h
          refine (if_pos heq).trans ?_
          exact Option.bind_eq_some_iff.2 ⟨x, hagrees _ _ _ _ hx, ih hrounds h⟩
        · next heq => exact (if_neg heq).trans (ih hrounds h)

theorem runLevelHooks_agree (h : s.runLevelHooks g hook rounds kind = some s') :
    s.runLevelHooks g hook' rounds' kind = some s' := by
  unfold runLevelHooks at h ⊢
  split at h
  · next hempty => exact (if_pos hempty).trans h
  · next hempty =>
    refine (if_neg hempty).trans ?_
    split at h
    · exact runHooksFrom_agree hrounds hagrees h
    · exact runHooksFrom_agree hrounds hagrees h
    · exact runHooksFrom_agree hrounds hagrees h

theorem leaveSimple_agree (h : s.leaveSimple g hook rounds m kind result = some s') :
    s.leaveSimple g hook' rounds' m kind result = some s' := by
  rw [leaveSimple_eq] at h ⊢
  obtain ⟨t, ht, h⟩ := Option.bind_eq_some_iff.1 h
  exact Option.bind_eq_some_iff.2 ⟨t, runLevelHooks_agree hrounds hagrees ht, h⟩

include hrun hsame hhook

/-- Where the rules that are asked lead to the end, all answers may come from another runner. -/
theorem leave_agree {eatMore : Option RuleRef} {level : Nat}
    (h : s.leave g run hook rounds level m kind result pinned eatMore = some s') :
    s.leave g run' hook' rounds' level m kind result pinned eatMore = some s' := by
  cases hframes : s.frames with
  | nil =>
    simp only [leave, hframes] at h ⊢
    exact h
  | cons frame frames =>
    by_cases hlevel : frame.level = level
    · rw [leave_eq hframes hlevel] at h ⊢
      obtain ⟨t, ht, h⟩ := Option.bind_eq_some_iff.1 h
      have hlead : t.LeadsTo s' := by
        obtain ⟨u, hu, h⟩ := Option.bind_eq_some_iff.1 h
        cases h
        exact .trans (.runLevelHooks hhook hu) (.still rfl)
      refine Option.bind_eq_some_iff.2
        ⟨_, settleErrors_agree hrun (hsame.back hlead) hrounds ht, ?_⟩
      obtain ⟨u, hu, h⟩ := Option.bind_eq_some_iff.1 h
      exact Option.bind_eq_some_iff.2 ⟨u, runLevelHooks_agree hrounds hagrees hu, h⟩
    · simp only [leave, hframes, if_neg hlevel] at h ⊢
      exact h

end

end Session

end Descent
