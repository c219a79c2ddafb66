import Descent.Proofs.Session.Smooth

/-!
# Loops that end

Skipping and grouping are loops that go round until nothing is left. A loop `EndsInTime` if each of its
rounds that goes on takes it further ahead towards a fixed end, and a round that does not makes it
fail: then it has no more rounds than there are positions left, and that many are enough. So it is with
skipping and grouping where the rules that are run end and never go back
(`Session.endsInTime_skip`, `Session.endsInTime_group`). Folding ends because every round leaves fewer
chunks (`Session.foldRounds_eq_foldFull`).

The rules need to end only where something holds that is kept meanwhile, and only at the levels at which
they are run (`Runner.ProceedsIn`).
-/

namespace Descent

/-! ## Ends -/

/-- The computation comes to an end, and what it comes to has the property. -/
def Arrives {α : Type} (Q : α → Prop) (x : Option α) : Prop := ∃ y, x = some y ∧ Q y

namespace Arrives

variable {α β : Type} {Q Q' : α → Prop} {R : β → Prop} {x x' : Option α} {f : α → Option β}

theorem some {y : α} (h : Q y) : Arrives Q (.some y) := ⟨y, rfl, h⟩

theorem mono (h : Arrives Q x) (hQ : ∀ y, Q y → Q' y) : Arrives Q' x := by
  obtain ⟨y, rfl, hy⟩ := h
  exact .some (hQ y hy)

theorem bind (h : Arrives Q x) (hf : ∀ y, x = .some y → Q y → Arrives R (f y)) :
    Arrives R (x.bind f) := by
  obtain ⟨y, rfl, hy⟩ := h
  exact hf y rfl hy

theorem map {f : α → β} (h : Arrives Q x) (hf : ∀ y, Q y → R (f y)) : Arrives R (x.map f) := by
  obtain ⟨y, rfl, hy⟩ := h
  exact .some (hf y hy)

theorem ite {p : Prop} [Decidable p] (h : p → Arrives Q x) (h' : ¬p → Arrives Q x') :
    Arrives Q (if p then x else x') := by
  split
  · next hp => exact h hp
  · next hp => exact h' hp

end Arrives

/-! ## Rounds -/

/-- How a round of a loop ends. -/
inductive Turn (α β : Type) where
  /-- Another round follows. -/
  | on (x : α)
  /-- There was nothing to be done, and the loop is over. -/
  | ended (z : β)
  /-- The round is complete but has consumed nothing, and the loop is over. -/
  | stuck (z : β)

section
variable {α β : Type}

/-- After a round `I` holds of what another one begins with, or else `J` or `F` of the outcome. -/
def Turn.Holds (I : α → Prop) (J F : β → Prop) : Turn α β → Prop
  | on x => I x
  | ended z => J z
  | stuck z => F z

theorem Turn.Holds.mono {I I' : α → Prop} {J J' F F' : β → Prop} {r : Turn α β}
    (h : r.Holds I J F) (hI : ∀ x, I x → I' x) (hJ : ∀ z, J z → J' z) (hF : ∀ z, F z → F' z) :
    r.Holds I' J' F' := by
  cases r with
  | on x => exact hI x h
  | ended z => exact hJ z h
  | stuck z => exact hF z h

/-- Goes round until the loop is over, at most so many times. -/
def goRound (turn : α → Option (Turn α β)) : (rounds : Nat) → α → Option β
  | 0, _ => none
  | rounds + 1, x => (turn x).bind fun
    | .on y => goRound turn rounds y
    | .ended z => some z
    | .stuck z => some z

/-- After `n` rounds from `x` on, `y` is where the next one begins. -/
inductive Turns (turn : α → Option (Turn α β)) : Nat → α → α → Prop
  | none (x : α) : Turns turn 0 x x
  | on {n : Nat} {x y z : α} (h : turn x = some (.on y)) (h' : Turns turn n y z) :
    Turns turn (n + 1) x z

/-- A loop that begins with `x` gets ahead in each round up to `size`, and fails if it does not. -/
structure EndsInTime (turn : α → Option (Turn α β)) (position : α → Nat) (fails : β → Prop)
    (size : Nat) (x : α) : Prop where
  /-- There are no more rounds than positions up to the end. -/
  rounds : ∀ n y, Turns turn n x y → position x + n ≤ position y ∧ position y ≤ size
  ahead : ∀ n y z, Turns turn n x y → turn y = some (.on z) → position y < position z
  stuck : ∀ n y z, Turns turn n x y → turn y = some (.stuck z) → fails z
  /-- The loop ends, and it makes no difference how many rounds more it might have. -/
  ends : ∃ z, ∀ n, size - position x < n → goRound turn n x = some z

variable {turn : α → Option (Turn α β)} {position : α → Nat} {fails : β → Prop} {size n : Nat}
  {I : α → Prop} {x y : α}

theorem Turns.keeps (hturn : ∀ x y, I x → turn x = some (.on y) → I y ∧ position x < position y)
    (h : Turns turn n x y) (hx : I x) : I y ∧ position x + n ≤ position y := by
  induction h with
  | none x => exact ⟨hx, Nat.le_refl _⟩
  | on heq _ ih =>
    obtain ⟨hy, hlt⟩ := hturn _ _ hx heq
    obtain ⟨hz, hle⟩ := ih hy
    exact ⟨hz, by omega⟩

/-- It is enough to look at one round, in any state that the loop may be in. -/
theorem EndsInTime.of_turn (hsize : ∀ x, I x → position x ≤ size)
    (hturn : ∀ x, I x → ∃ r, turn x = some r ∧
      r.Holds (fun y => I y ∧ position x < position y) (fun _ => True) fails)
    (hx : I x) : EndsInTime turn position fails size x := by
  have hholds (x : α) (r : Turn α β) (hx : I x) (h : turn x = some r) :
      r.Holds (fun y => I y ∧ position x < position y) (fun _ => True) fails := by
    obtain ⟨r', hr, hholds⟩ := hturn x hx
    exact Option.some.inj (hr.symm.trans h) ▸ hholds
  have hon (x y : α) (hx : I x) (h : turn x = some (.on y)) : I y ∧ position x < position y :=
    hholds x _ hx h
  refine ⟨fun n y h => ?_, fun n y z h hz => ?_, fun n y z h hz => ?_, ?_⟩
  · obtain ⟨hy, hle⟩ := h.keeps hon hx
    exact ⟨hle, hsize y hy⟩
  · exact (hon y z (h.keeps hon hx).1 hz).2
  · exact hholds y _ (h.keeps hon hx).1 hz
  · -- the induction is on the number of positions left
    suffices h : ∀ k x, I x → size - position x ≤ k →
        ∃ z, ∀ n, size - position x < n → goRound turn n x = some z from h _ x hx (Nat.le_refl _)
    intro k
    induction k with
    | zero =>
      intro x hx hk
      obtain ⟨r, hr, hholds⟩ := hturn x hx
      cases r with
      | on y =>
        obtain ⟨hy, hlt⟩ := hholds
        have hle := hsize y hy
        omega
      | ended z | stuck z =>
        refine ⟨z, fun n hn => ?_⟩
        obtain ⟨n, rfl⟩ : ∃ k, n = k + 1 := ⟨n - 1, by omega⟩
        simp only [goRound, hr, Option.bind_some]
    | succ k ih =>
      intro x hx hk
      obtain ⟨r, hr, hholds⟩ := hturn x hx
      cases r with
      | on y =>
        obtain ⟨hy, hlt⟩ := hholds
        have hle := hsize y hy
        obtain ⟨z, hz⟩ := ih y hy (by omega)
        refine ⟨z, fun n hn => ?_⟩
        obtain ⟨n, rfl⟩ : ∃ k, n = k + 1 := ⟨n - 1, by omega⟩
        simp only [goRound, hr, Option.bind_some]
        exact hz n (by omega)
      | ended z | stuck z =>
        refine ⟨z, fun n hn => ?_⟩
        obtain ⟨n, rfl⟩ : ∃ k, n = k + 1 := ⟨n - 1, by omega⟩
        simp only [goRound, hr, Option.bind_some]

/-- If no round can get it stuck, a loop that ends in time does not fail. -/
theorem EndsInTime.unstuck (h : EndsInTime turn position fails size x) {J : α → β → Prop}
    {K : α → α → Prop} (hturn : ∀ x r, turn x = some r → r.Holds (K x) (J x) fun _ => False) :
    EndsInTime turn position (fun _ => False) size x :=
  { h with stuck := fun _ y _ _ hz => hturn y _ hz }

/-- What every round keeps holds of the outcome. -/
theorem goRound_of_holds {J : β → Prop} {z : β}
    (hturn : ∀ x r, I x → turn x = some r → r.Holds I J J) (hx : I x)
    (h : goRound turn n x = some z) : J z := by
  induction n generalizing x with
  | zero => cases h
  | succ n ih =>
    obtain ⟨r, hr, h⟩ := Option.bind_eq_some_iff.1 h
    have hkept := hturn x r hx hr
    cases r with
    | on y => exact ih hkept h
    | ended y | stuck y =>
      cases h
      exact hkept

/-- With a round for every position that is left, and one more, the loop comes to its end. -/
theorem arrives_goRound {J : β → Prop} (hsize : ∀ x, I x → position x ≤ size)
    (hturn : ∀ x, I x → Arrives (·.Holds (fun y => I y ∧ position x < position y) J J) (turn x))
    (hx : I x) (hn : size - position x < n) : Arrives J (goRound turn n x) := by
  have hends : EndsInTime turn position (fun _ => True) size x := by
    refine .of_turn hsize (fun x hx => ?_) hx
    exact (hturn x hx).mono fun r hr => hr.mono (fun _ h => h) (fun _ _ => trivial) fun _ _ => trivial
  obtain ⟨z, hz⟩ := hends.ends
  refine ⟨z, hz n hn, goRound_of_holds (I := I) (fun x r hx hr => ?_) hx (hz n hn)⟩
  obtain ⟨r', hr', hholds⟩ := hturn x hx
  obtain rfl := Option.some.inj (hr'.symm.trans hr)
  exact hholds.mono (fun _ h => h.1) (fun _ h => h) fun _ h => h

end

/-- Running the rule ends, and never before where it began. -/
structure Runner.Proceeds (run : Runner) (rule : RuleRef) : Prop where
  ends : ∀ level s, ∃ x, run rule level s = some x
  onward : ∀ level s b s', run rule level s = some (b, s') → s.position ≤ s'.position

/-- Wherever `I` holds, running the rule at the level ends where it holds again, and not before where it
began. -/
def Runner.ProceedsIn (I : Session → Prop) (run : Runner) (rule : RuleRef) (level : Nat) : Prop :=
  ∀ s, I s → Arrives (fun x => I x.2 ∧ s.position ≤ x.2.position) (run rule level s)

namespace Runner

variable {g : Setup} {run : Runner} {rule : RuleRef} {level : Nat} {I : Session → Prop}

theorem Proceeds.proceedsIn (h : run.Proceeds rule) (hacts : run.Acts g false) (level : Nat) :
    run.ProceedsIn (·.InBounds g) rule level := by
  intro s hs
  obtain ⟨⟨b, t⟩, ht⟩ := h.ends level s
  exact ⟨(b, t), ht, (hacts _ _ _ _ _ hs ht).inBounds hs, h.onward _ _ _ _ ht⟩

theorem ProceedsIn.beyond (h : run.ProceedsIn I rule level) (p : Nat) :
    run.ProceedsIn (fun s => I s ∧ p ≤ s.position) rule level :=
  fun s hs => (h s hs.1).mono fun _ hx => ⟨⟨hx.1, Nat.le_trans hs.2 hx.2⟩, hx.2⟩

/-- The rule is run on a condition. -/
theorem ProceedsIn.ite {p : Prop} [Decidable p] {s : Session} (h : run.ProceedsIn I rule level)
    (hs : I s) (b : Bool) : Arrives (I ·.2) (if p then run rule level s else some (b, s)) :=
  .ite (fun _ => (h s hs).mono fun _ hx => hx.1) fun _ => .some hs

end Runner

namespace Session

variable {g : Setup} {run : Runner} {s s' : Session} {level lastError rounds : Nat} {name : String}
  {eatMore item : RuleRef} {kind : Kind} {pair? : Option Delimiters} {c : Grouping}

/-! ## Skipping -/

/-- One round of skipping, with whether the condition held last and the depth of regions. -/
def skipTurn (g : Setup) (run : Runner) (eatMore : RuleRef) (name : String)
    (level lastError : Nat) :
    Bool × Int × Session → Option (Turn (Bool × Int × Session) (Bool × Session))
  | (more, depth, s) =>
    if (more || 0 < depth) && s.position < lastError then
      if lastError ≤ (s.toSignificant g).position then some (.ended (more, s.toSignificant g))
      else
        (run g.advancer level (s.toSignificant g)).bind fun x =>
          if x.2.position = (s.toSignificant g).position then
            some (.stuck (more, (x.2.toSignificant g).abort g
              (.stuckRecovery name ((x.2.toSignificant g).offset g))))
          else
            (run eatMore level x.2).bind fun y =>
              some (.on (y.1, depth + depthStep g ((s.toSignificant g).kindHere? g), y.2))
    else some (.ended (more, s))

theorem skipRun_eq_goRound (more : Bool) (depth : Int) (s : Session) :
    s.skipRun g run eatMore name level lastError rounds more depth =
      goRound (skipTurn g run eatMore name level lastError) rounds (more, depth, s) := by
  induction rounds generalizing more depth s with
  | zero => rfl
  | succ rounds ih =>
    simp only [skipRun, goRound, skipTurn, Option.bind_eq_bind]
    split
    · split
      · rfl
      · cases run g.advancer level (s.toSignificant g) with
        | none => rfl
        | some x =>
          simp only [Option.bind_some]
          split
          · rfl
          · cases run eatMore level x.2 with
            | none => rfl
            | some y => simpa using ih y.1 _ y.2
    · rfl

theorem isAborted_abort (g : Setup) (error : Fatal) (s : Session) :
    (s.abort g error).isAborted = true := by
  unfold abort
  split
  · next h => exact h
  · rfl

section
variable {I : Session → Prop} (hI : Lasting g I) (hadvancer : run.ProceedsIn I g.advancer level)
  (heat : run.ProceedsIn I eatMore level)
include hI hadvancer heat

theorem arrives_skipTurn (name : String) (lastError : Nat) (more : Bool) (depth : Int) (hs : I s) :
    Arrives (·.Holds (fun y => I y.2.2 ∧ s.position < y.2.2.position) (I ·.2)
      fun z => I z.2 ∧ z.2.isAborted = true)
      (skipTurn g run eatMore name level lastError (more, depth, s)) := by
  have hseek := hI.seek hs
  have hstart := g.le_significant s.position
  refine .ite (fun _ => .ite (fun _ => .some hseek) fun _ => ?_) fun _ => .some hs
  refine (hadvancer _ hseek).bind fun x _ hx => .ite (fun _ => ?_) fun hmoved => ?_
  · have hstop : GoesOn g (x.2.toSignificant g) ((x.2.toSignificant g).abort g
        (.stuckRecovery name ((x.2.toSignificant g).offset g))) :=
      .calm (.abort ..) (.abort _ _ fun _ he => nomatch he)
    exact .some ⟨hI.goesOn (hI.seek hx.1) hstop, isAborted_abort ..⟩
  · refine (heat _ hx.1).bind fun y _ hy => .some ⟨hy.1, ?_⟩
    have hle := hx.2
    have hle' := hy.2
    simp only [toSignificant] at *
    omega

theorem endsInTime_skipIn (name : String) (lastError : Nat) (more : Bool) (depth : Int) (hs : I s) :
    EndsInTime (skipTurn g run eatMore name level lastError) (·.2.2.position)
      (·.2.isAborted = true) g.source.size (more, depth, s) := by
  refine .of_turn (I := fun x => I x.2.2) (fun x hx => (hI.inBounds hx).position) ?_ hs
  rintro ⟨more, depth, s⟩ hs
  exact (arrives_skipTurn hI hadvancer heat name lastError more depth hs).mono fun r hr =>
    hr.mono (fun _ h => h) (fun _ _ => trivial) fun _ h => h.2

theorem arrives_skipRun (hrounds : g.source.size < rounds) (name : String) (lastError : Nat)
    (more : Bool) (depth : Int) (hs : I s) :
    Arrives (I ·.2) (s.skipRun g run eatMore name level lastError rounds more depth) := by
  rw [skipRun_eq_goRound]
  refine arrives_goRound (fun (x : Bool × Int × Session) (hx : I x.2.2) =>
    (hI.inBounds hx).position) ?_ hs (by omega)
  rintro ⟨more, depth, s⟩ hs
  exact (arrives_skipTurn hI hadvancer heat name lastError more depth hs).mono fun r hr =>
    hr.mono (fun _ h => h) (fun _ h => h) fun _ h => h.1

end

theorem endsInTime_skip (hacts : run.Acts g false) (hadvancer : run.Proceeds g.advancer)
    (heat : run.Proceeds eatMore) (name : String) (level lastError : Nat) (more : Bool) (depth : Int)
    (hs : s.InBounds g) :
    EndsInTime (skipTurn g run eatMore name level lastError) (·.2.2.position)
      (·.2.isAborted = true) g.source.size (more, depth, s) :=
  endsInTime_skipIn .source (hadvancer.proceedsIn hacts level) (heat.proceedsIn hacts level) name
    lastError more depth hs

/-! ## Grouping -/

/-- One round of grouping. -/
def groupTurn (g : Setup) (run : Runner) (level : Nat) (kind : Kind) (pair? : Option Delimiters)
    (item eatMore : RuleRef) :
    Grouping × Session → Option (Turn (Grouping × Session) (Grouping × Session))
  | (c, s) =>
    ((s.toSignificant g).roundStep g run level kind pair? item eatMore c).bind fun x =>
      if !x.1 then some (.ended (x.2.1, x.2.2))
      else
        match (x.2.2.foldIfFull g kind x.2.1).2.guardProgress g "parse_as_tree" s.position with
        | (true, s) => some (.on ((x.2.2.foldIfFull g kind x.2.1).1, s))
        | (false, s) => some (.stuck ((x.2.2.foldIfFull g kind x.2.1).1, s))

theorem groupItems_eq_goRound (c : Grouping) (s : Session) :
    s.groupItems g run level kind pair? item eatMore rounds c =
      goRound (groupTurn g run level kind pair? item eatMore) rounds (c, s) := by
  induction rounds generalizing c s with
  | zero => rfl
  | succ rounds ih =>
    rw [groupItems_succ, goRound, groupTurn]
    cases (s.toSignificant g).roundStep g run level kind pair? item eatMore c with
    | none => rfl
    | some x =>
      simp only [Option.bind_some]
      split
      · rfl
      · generalize (x.2.2.foldIfFull g kind x.2.1).2.guardProgress g _ _ = y
        obtain ⟨b, t⟩ := y
        cases b
        · rfl
        · exact ih _ _

section
variable {I : Session → Prop} (hI : Lasting g I)
include hI

theorem arrives_delimiterStep (hadvancer : run.ProceedsIn I g.advancer level) (kind : Kind)
    (pair : Delimiters) (c : Grouping) (hs : I s) :
    Arrives (I ·.2) (s.delimiterStep g run level kind pair c) := by
  rw [delimiterStep_eq]
  generalize s.kindHere? g = token
  dsimp only
  have hclosed := hI.smooth hs (.closeCurrent s kind c) (.closeCurrent kind c s)
  generalize s.closeCurrent kind c = x at hclosed ⊢
  have hopened := hI.smooth hclosed (.openRegion g x.2 pair token x.1) (.openRegion pair token x.1 x.2)
  generalize x.2.openRegion g pair token x.1 = y at hopened ⊢
  have hfolded := hI.smooth hopened (.foldFull g y.2 kind y.1) (.foldFull g kind y.1 y.2)
  generalize y.2.foldFull g kind y.1 = z at hfolded ⊢
  refine (hadvancer _ hfolded).bind fun r _ hr => .some ?_
  exact hI.smooth hr.1 (.closeRegion g r.2 kind pair token z.1) (.closeRegion kind pair token z.1 r.2)

variable (hitem : run.ProceedsIn I item (level + 1)) (heat : run.ProceedsIn I eatMore (level + 1))
include hitem heat

theorem arrives_itemStep (c : Grouping) (hs : I s) :
    Arrives (I ·.2.2) (s.itemStep g run level item eatMore c) := by
  have hopened := hI.smooth hs (.openCurrent g s c) (.openCurrent g c s)
  rw [itemStep_eq]
  refine (heat.ite hopened true).bind fun x _ hx => (hitem.ite hx false).bind fun y _ hy => ?_
  exact .ite (fun _ => .some hy) fun _ => .some hy

variable (hadvancer : pair?.isSome = true → run.ProceedsIn I g.advancer level)
include hadvancer

theorem arrives_roundStep (kind : Kind) (c : Grouping) (hs : I s) :
    Arrives (I ·.2.2) (s.roundStep g run level kind pair? item eatMore c) := by
  unfold roundStep
  split
  · next pair hpair =>
    have hsome : pair?.isSome = true := by
      rw [(Option.filter_eq_some_iff.1 hpair).1]
      rfl
    exact (arrives_delimiterStep hI (hadvancer hsome) kind pair c hs).map fun _ hx => hx
  · exact arrives_itemStep hI hitem heat c hs

/-- A round that goes on has moved ahead, since it does not go back and is watched for progress. -/
theorem arrives_groupTurn (kind : Kind) (c : Grouping) (hs : I s) :
    Arrives (·.Holds (fun y => I y.2 ∧ s.position < y.2.position) (I ·.2)
      fun z => I z.2 ∧ z.2.isAborted = true)
      (groupTurn g run level kind pair? item eatMore (c, s)) := by
  have hbeyond := hI.beyond s.position
  have hround := arrives_roundStep hbeyond (hitem.beyond _) (heat.beyond _)
    (fun h => (hadvancer h).beyond _) kind c (hbeyond.seek ⟨hs, Nat.le_refl _⟩)
  refine hround.bind fun x _ hx => .ite (fun _ => .some hx.1) fun _ => ?_
  have hfold := hbeyond.smooth hx (.foldIfFull g x.2.2 kind x.2.1) (.foldIfFull g kind x.2.1 x.2.2)
  generalize x.2.2.foldIfFull g kind x.2.1 = y at hfold ⊢
  have hguard : y.2.Acts g false (y.2.guardProgress g "parse_as_tree" s.position).2 :=
    .guardProgress ..
  have hkept := hI.goesOn hfold.1 (.calm (Calm.guardProgress g y.2 _ _) hguard)
  unfold guardProgress at hkept ⊢
  by_cases hmoved : s.position ≠ y.2.position
  · simp only [if_pos hmoved] at hkept ⊢
    have hle := hfold.2
    exact .some ⟨hkept, by dsimp only; omega⟩
  · simp only [if_neg hmoved] at hkept ⊢
    exact .some ⟨hkept, isAborted_abort ..⟩

theorem endsInTime_groupIn (kind : Kind) (c : Grouping) (hs : I s) :
    EndsInTime (groupTurn g run level kind pair? item eatMore) (·.2.position)
      (·.2.isAborted = true) g.source.size (c, s) := by
  refine .of_turn (I := fun x => I x.2) (fun x hx => (hI.inBounds hx).position) ?_ hs
  rintro ⟨c, s⟩ hs
  exact (arrives_groupTurn hI hitem heat hadvancer kind c hs).mono fun r hr =>
    hr.mono (fun _ h => h) (fun _ _ => trivial) fun _ h => h.2

theorem arrives_groupItems (hrounds : g.source.size < rounds) (kind : Kind) (c : Grouping)
    (hs : I s) :
    Arrives (I ·.2) (s.groupItems g run level kind pair? item eatMore rounds c) := by
  rw [groupItems_eq_goRound]
  refine arrives_goRound (fun (x : Grouping × Session) (hx : I x.2) => (hI.inBounds hx).position) ?_ hs
    (by omega)
  rintro ⟨c, s⟩ hs
  exact (arrives_groupTurn hI hitem heat hadvancer kind c hs).mono fun r hr =>
    hr.mono (fun _ h => h) (fun _ h => h) fun _ h => h.1

end

theorem endsInTime_group (hacts : run.Acts g false) (hadvancer : run.Proceeds g.advancer)
    (hitem : run.Proceeds item) (heat : run.Proceeds eatMore) (level : Nat) (kind : Kind)
    (pair? : Option Delimiters) (c : Grouping) (hs : s.InBounds g) :
    EndsInTime (groupTurn g run level kind pair? item eatMore) (·.2.position)
      (·.2.isAborted = true) g.source.size (c, s) :=
  endsInTime_groupIn .source (hitem.proceedsIn hacts _) (heat.proceedsIn hacts _)
    (fun _ => hadvancer.proceedsIn hacts _) kind c hs

/-! ## Folding -/

theorem length_latestRun_le (c : Grouping) : c.latestRun.length ≤ c.chunks.length := by
  unfold Grouping.latestRun
  split
  · exact Nat.zero_le _
  · exact (List.takeWhile_sublist _).length_le

theorem foldRounds_of_lt (h : c.latestRun.length < g.limits.fanOut) (rounds : Nat) (s : Session) :
    s.foldRounds g kind rounds c = (c, s) := by
  cases rounds with
  | zero => rfl
  | succ rounds =>
    simp only [foldRounds, if_pos h]
    split <;> rfl

/-- A full run is wrapped, which leaves fewer chunks. -/
theorem exists_foldRounds_succ (h : g.limits.fanOut ≤ c.latestRun.length) (kind : Kind)
    (s : Session) :
    ∃ (c' : Grouping) (s' : Session),
      (∀ rounds, s.foldRounds g kind (rounds + 1) c = s'.foldRounds g kind rounds c') ∧
        c'.chunks.length < c.chunks.length := by
  have hsize := g.limits.fanOut_ge
  have hlength := length_latestRun_le c
  obtain ⟨oldest, holdest⟩ :
      ∃ x, (c.latestRun.take g.limits.fanOut).getLast? = some x := by
    have hne : c.latestRun.take g.limits.fanOut ≠ [] := by
      intro hnil
      have hzero := congrArg List.length hnil
      rw [List.length_take, List.length_nil] at hzero
      omega
    exact ⟨_, List.getLast?_eq_some_getLast hne⟩
  refine ⟨{ c with chunks :=
      ⟨(s.wrap oldest.marker).1, oldest.generation + 1⟩ :: c.chunks.drop g.limits.fanOut },
    ((s.wrap oldest.marker).2.commitAs (s.wrap oldest.marker).1 kind).note
      (.chunkFolded (oldest.generation + 1)), fun rounds => ?_, ?_⟩
  · simp only [foldRounds, holdest, if_neg (Nat.not_lt.2 h)]
  · simp only [List.length_cons, List.length_drop]
    omega

/-- Folding is done after as many rounds as there are chunks, and then no run is full. -/
theorem foldRounds_eq_foldFull (kind : Kind) (c : Grouping) (s : Session) :
    (∀ rounds, c.chunks.length ≤ rounds → s.foldRounds g kind rounds c = s.foldFull g kind c) ∧
      (s.foldFull g kind c).1.latestRun.length < g.limits.fanOut := by
  suffices h : ∀ n (c : Grouping) (s : Session), c.chunks.length ≤ n →
      (∀ rounds, c.chunks.length ≤ rounds →
        s.foldRounds g kind rounds c = s.foldRounds g kind n c) ∧
      (s.foldRounds g kind n c).1.latestRun.length < g.limits.fanOut by
    exact h _ c s (Nat.le_refl _)
  intro n
  induction n with
  | zero =>
    intro c s hn
    have hlt : c.latestRun.length < g.limits.fanOut := by
      have hle := length_latestRun_le c
      have hsize := g.limits.fanOut_ge
      omega
    exact ⟨fun rounds _ => by rw [foldRounds_of_lt hlt, foldRounds_of_lt hlt], hlt⟩
  | succ n ih =>
    intro c s hn
    by_cases hlt : c.latestRun.length < g.limits.fanOut
    · rw [foldRounds_of_lt hlt]
      exact ⟨fun rounds _ => foldRounds_of_lt hlt rounds s, hlt⟩
    · obtain ⟨c', s', heq, hfewer⟩ := exists_foldRounds_succ (Nat.not_lt.1 hlt) kind s
      obtain ⟨hrounds, hfull⟩ := ih c' s' (by omega)
      rw [heq]
      refine ⟨fun rounds hr => ?_, hfull⟩
      obtain ⟨k, rfl⟩ : ∃ k, rounds = k + 1 := ⟨rounds - 1, by omega⟩
      rw [heq]
      exact hrounds k (by omega)

end Session

end Descent
