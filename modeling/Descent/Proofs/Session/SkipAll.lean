import Descent.Grammar.Eval
import Descent.Proofs.Session.Grouping

/-!
# Skipping all that is left

Recovery that eats whatever comes ends, since it moves ahead in every round and there are only so
many tokens: as many rounds are enough, and one more (`Session.skipRun_always`,
`Session.isSome_groupRun_always`).
-/

namespace Descent

open Session (Calm)

/-- The runner runs the rules that every grammar has as they are meant. -/
structure Runner.Standard (g : Setup) (run : Runner) : Prop where
  always : ∀ level s, run .always level s = some (true, s)
  advance : ∀ level s, run .advance level s = some (s.stepOver g)

theorem Grammar.standard_runRef (g : Setup)
    (eval : Nat → Vars → Expr → Session → Option (Bool × Vars × Session)) :
    Runner.Standard g (runRef g eval) :=
  ⟨fun _ _ => rfl, fun _ _ => rfl⟩

/-- Where the advancer is the default one, the rules that grouping runs do no more than token
tests. -/
theorem Runner.Standard.calm {g : Setup} {run : Runner} (h : run.Standard g)
    (hadvancer : g.advancer = .advance) {rule : RuleRef}
    (hrule : rule = .advance ∨ rule = .always ∨ rule = g.advancer) {level : Nat} {s s' : Session}
    {b : Bool} (hr : run rule level s = some (b, s')) : Calm s s' := by
  have hstep (he : rule = .advance) : Calm s s' := by
    rw [he, h.advance] at hr
    have hs' : (s.stepOver g).2 = s' := congrArg Prod.snd (Option.some.inj hr)
    exact hs' ▸ .stepOver g s
  rcases hrule with he | he | he
  · exact hstep he
  · rw [he, h.always] at hr
    cases hr
    exact .refl s
  · exact hstep (he.trans hadvancer)

theorem takeWhile_drop_takeWhile {α : Type} (p : α → Bool) (l : List α) :
    (l.drop (l.takeWhile p).length).takeWhile p = [] := by
  induction l with
  | nil => rfl
  | cons a l ih =>
    by_cases ha : p a = true
    · rw [List.takeWhile_cons_of_pos ha]
      exact ih
    · rw [List.takeWhile_cons_of_neg ha]
      exact List.takeWhile_cons_of_neg ha

namespace Session

variable {g : Setup} {run : Runner} {s s' : Session}

/-! ## Positions -/

theorem significant_significant (g : Setup) (i : Nat) :
    g.significant (g.significant i) = g.significant i := by
  have h := takeWhile_drop_takeWhile (fun t : Token => g.language.isTrivia t.kind)
    (g.source.tokens.drop i)
  rw [List.drop_drop] at h
  show g.significant i + (List.takeWhile _ (g.source.tokens.drop (g.significant i))).length = _
  rw [Setup.significant, h]
  rfl

theorem toSignificant_toSignificant (g : Setup) (s : Session) :
    (s.toSignificant g).toSignificant g = s.toSignificant g := by
  rw [toSignificant, toSignificant, significant_significant]

theorem lt_size_of_isAtEnd (h : s.isAtEnd g = false) : s.position < g.source.size := by
  unfold isAtEnd kindHere? Source.kind? at h
  rw [Option.isNone_map] at h
  by_cases hlt : s.position < g.source.size
  · exact hlt
  · rw [List.getElem?_eq_none (Nat.le_of_not_lt hlt)] at h
    cases h

/-- Where there is no token left, no step is made. -/
theorem stepOver_cases (g : Setup) (s : Session) :
    (s.position < g.source.size ∧ (s.stepOver g).1 = true) ∨
      s.stepOver g = (false, s.toSignificant g) := by
  unfold stepOver
  dsimp only
  split
  · exact .inr rfl
  · next hend =>
    have hlt := lt_size_of_isAtEnd (Bool.eq_false_iff.2 hend)
    exact .inl ⟨Nat.lt_of_le_of_lt (g.le_significant s.position) hlt, rfl⟩

/-- Nothing that grouping does to markers goes back. -/
theorem notBehind (g : Setup) (p : Nat) :
    MarkerInvariant g (p ≤ ·.position) (fun _ => True) fun _ => True where
  calm h hc := Nat.le_trans h hc.position
  openMarker h := ⟨Nat.le_trans h (g.le_significant _), trivial⟩
  commitAs kind h _ _ := by
    unfold commitAs commit
    split <;> exact h
  drop h _ := h
  wrap h _ := by
    unfold wrap
    dsimp only
    split <;> exact ⟨h, trivial⟩

/-! ## Skipping -/

variable (hadvancer : g.advancer = .advance) (hrun : run.Standard g)
include hadvancer hrun

/-- Skipping goes on to the last error, in as many rounds as there are tokens. -/
theorem skipRun_always (name : String) (level lastError : Nat) {rounds : Nat} (depth : Int)
    (s : Session) (hrounds : g.source.size - s.position < rounds) :
    ∃ s', s.skipRun g run .always name level lastError rounds true depth = some (true, s') ∧
      Calm s s' := by
  induction rounds generalizing depth s with
  | zero => omega
  | succ rounds ih =>
    have h₁ : Calm s (s.toSignificant g) := .toSignificant g s
    have h₂ := h₁.trans (.stepOver g (s.toSignificant g))
    simp only [skipRun, hadvancer, hrun.advance, hrun.always, Bool.true_or, Bool.true_and,
      decide_eq_true_eq]
    split
    · split
      · exact ⟨_, rfl, h₁⟩
      · dsimp only [Option.bind_eq_bind, Option.bind_some]
        split
        · exact ⟨_, rfl, (h₂.trans (.toSignificant g _)).trans (.abort g _ _)⟩
        · next hmoved =>
          have hlt : (s.toSignificant g).position < g.source.size := by
            rcases stepOver_cases g (s.toSignificant g) with ⟨hlt, -⟩ | heq
            · exact hlt
            · rw [heq, toSignificant_toSignificant] at hmoved
              exact absurd rfl hmoved
          have hle := h₁.position
          have hle' := (Calm.stepOver g (s.toSignificant g)).position
          obtain ⟨s', hs', hcalm⟩ := ih (depth + depthStep g ((s.toSignificant g).kindHere? g))
            ((s.toSignificant g).stepOver g).2 (by omega)
          exact ⟨s', hs', h₂.trans hcalm⟩
    · exact ⟨s, rfl, .refl s⟩

/-! ## Grouping -/

theorem isSome_delimiterStep (level : Nat) (kind : Kind) (pair : Delimiters) (c : Grouping)
    (s : Session) : ∃ x, s.delimiterStep g run level kind pair c = some x := by
  simp only [delimiterStep, hadvancer, hrun.advance, Option.bind_eq_bind, Option.bind_some]
  split
  · split
    · exact ⟨_, rfl⟩
    · exact ⟨_, rfl⟩
  · exact ⟨_, rfl⟩

omit hadvancer in
/-- An item is a token. -/
theorem isSome_itemStep (level : Nat) (c : Grouping) (s : Session) :
    ∃ x, s.itemStep g run level .advance .always c = some x ∧
      (x.1 = true → s.position < g.source.size) := by
  have hle : s.position ≤ (s.openCurrent g c).2.position := by
    unfold openCurrent
    split
    · exact Nat.le_refl _
    · exact g.le_significant s.position
  have hstep : (((s.openCurrent g c).2.stepOver g).1 = true → s.position < g.source.size) := by
    intro h
    rcases stepOver_cases g (s.openCurrent g c).2 with ⟨hlt, -⟩ | heq
    · exact Nat.lt_of_le_of_lt hle hlt
    · rw [heq] at h
      cases h
  rw [itemStep_eq]
  simp only [hrun.always, hrun.advance, ite_self, Option.bind_some, if_true]
  split
  · next h => exact ⟨_, rfl, fun _ => hstep h⟩
  · exact ⟨_, rfl, fun h => by cases h⟩

theorem isSome_roundStep (level : Nat) (kind : Kind) (pair? : Option Delimiters) (c : Grouping)
    (s : Session) :
    ∃ x, s.roundStep g run level kind pair? .advance .always c = some x ∧
      (x.1 = true → s.position < g.source.size) := by
  unfold roundStep
  split
  · next pair hpair =>
    obtain ⟨x, hx⟩ := isSome_delimiterStep hadvancer hrun level kind pair c s
    refine ⟨(true, x.1, x.2), by rw [hx]; rfl, fun _ => lt_size_of_isAtEnd ?_⟩
    have hhere := (Option.filter_eq_some_iff.1 hpair).2
    unfold isAtEnd
    cases hk : s.kindHere? g with
    | some k => rfl
    | none => simp [hk] at hhere
  · exact isSome_itemStep hrun level c s

theorem isSome_groupItems (level : Nat) (kind : Kind) (pair? : Option Delimiters) {rounds : Nat}
    (c : Grouping) (s : Session) (hrounds : g.source.size - s.position < rounds) :
    ∃ x, s.groupItems g run level kind pair? .advance .always rounds c = some x := by
  induction rounds generalizing c s with
  | zero => omega
  | succ rounds ih =>
    obtain ⟨⟨parsed, c₁, s₁⟩, hstep, hlt⟩ :=
      isSome_roundStep hadvancer hrun level kind pair? c (s.toSignificant g)
    rw [groupItems_succ, hstep, Option.bind_some]
    split
    · exact ⟨_, rfl⟩
    · next hparsed =>
      split
      · next t ht =>
        have hmoves (rule : RuleRef) (hr : rule = .advance ∨ rule = .always ∨ rule = g.advancer)
            (level : Nat) (u : Session) (b : Bool) (u' : Session) (hu : s.position ≤ u.position)
            (h : run rule level u = some (b, u')) :
            u.Keeps (s.position ≤ ·.position) (fun _ _ => True) u' :=
          ⟨Nat.le_trans hu (hrun.calm hadvancer hr h).position, fun _ hm => hm⟩
        have hstart := g.le_significant s.position
        have hsteps := (notBehind g s.position).steps.moves
        obtain ⟨h₁, hc₁⟩ := hsteps.roundStep hmoves hstart c.all_true hstep trivial
        have h₂ := (hsteps.foldIfFull kind h₁ hc₁ trivial).1
        obtain ⟨hmoved, rfl⟩ : s.position ≠ (s₁.foldIfFull g kind c₁).2.position ∧
            (s₁.foldIfFull g kind c₁).2 = t := by
          unfold guardProgress at ht
          split at ht
          · next hne => exact ⟨hne, congrArg Prod.snd ht⟩
          · cases ht
        have hsize : g.significant s.position < g.source.size := hlt (by simpa using hparsed)
        exact ih _ _ (by omega)
      · exact ⟨_, rfl⟩

theorem isSome_groupRun {rounds : Nat} (level : Nat) (kind : Kind) (minds : Bool) (s : Session)
    (hrounds : g.source.size < rounds) :
    ∃ x, s.groupRun g run rounds level kind minds .advance .always = some x := by
  rw [groupRun_eq]
  generalize (if minds then g.language.delimiters.head? else none) = pair?
  have hlt : g.source.size - (s.firstRegions g pair?).2.position < rounds := by omega
  obtain ⟨x, hx⟩ := isSome_groupItems hadvancer hrun level kind pair?
    { regions := (s.firstRegions g pair?).1 } (s.firstRegions g pair?).2 hlt
  exact ⟨_, congrArg (Option.bind · _) hx⟩

end Session

end Descent
