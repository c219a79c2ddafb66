import Descent.Proofs.Session.Grouping
import Descent.Proofs.Session.Mirror

/-!
# Grouping in mirrored states

Grouping runs rules and wraps what they leave. Where the rules keep states mirrored
(`Runner.Mirrors`), so does grouping: it ends in both states or in neither, with the same chunks
(`Session.Mirrors.groupRun`).
-/

namespace Descent

/-- If both of two computations have an answer or neither has, and so do what follows on answers that
are related, then so do the computations as a whole. -/
theorem rel_bind {α β γ δ : Type} {R : α → β → Prop} {S : γ → δ → Prop} {x : Option α}
    {y : Option β} {k : α → Option γ} {k' : β → Option δ} (h : Option.Rel R x y)
    (hk : ∀ a b, R a b → Option.Rel S (k a) (k' b)) : Option.Rel S (x.bind k) (y.bind k') := by
  cases h with
  | none => exact .none
  | some h => exact hk _ _ h

theorem rel_map {α β γ δ : Type} {R : α → β → Prop} {S : γ → δ → Prop} {x : Option α}
    {y : Option β} {k : α → γ} {k' : β → δ} (h : Option.Rel R x y)
    (hk : ∀ a b, R a b → S (k a) (k' b)) : Option.Rel S (x.map k) (y.map k') := by
  cases h with
  | none => exact .none
  | some h => exact .some (hk _ _ h)

/-- Two runners answer the same in mirrored states, and leave them mirrored. -/
def Runner.Mirrors (b : Source) (f : Nat → Nat) (run run' : Runner) : Prop :=
  ∀ rule level s t, s.Mirrors b f t →
    Option.Rel (Session.Mirrored b f) (run rule level s) (run' rule level t)

/-! ## The token before a position -/

namespace Setup

variable {g : Setup}

/-- The last position in front of another one that has no trivia. -/
def before? (g : Setup) (p : Nat) : Option Nat :=
  (List.range p).reverse.find? fun i => !g.isTriviaAt i

theorem before?_succ (p : Nat) :
    g.before? (p + 1) = if g.isTriviaAt p then g.before? p else some p := by
  rw [before?, List.range_succ, List.reverse_append, List.reverse_singleton, List.singleton_append,
    List.find?_cons]
  cases g.isTriviaAt p <;> rfl

theorem before?_of_trivia {p q : Nat} (hle : p ≤ q)
    (h : ∀ i, p ≤ i → i < q → g.isTriviaAt i = true) : g.before? q = g.before? p := by
  induction hle with
  | refl => rfl
  | @step q hle ih =>
    rw [before?_succ, if_pos (h q hle (Nat.lt_succ_self q))]
    exact ih fun i hge hlt => h i hge (Nat.lt_succ_of_lt hlt)

theorem before?_stretched {b : Source} {f : Nat → Nat}
    (hb : Stretches f (g.source.glimpses g.language) (b.glimpses g.language)) (p : Nat) :
    (g.on b).before? (f p) = (g.before? p).map f := by
  induction p with
  | zero =>
    rw [hb.zero]
    rfl
  | succ p ih =>
    rw [before?_succ]
    by_cases hp : g.isTriviaAt p = true
    · have hgap := hb.gap ((g.isTriviaAt_iff p).1 hp)
      rw [if_pos hp, ← ih]
      exact before?_of_trivia hgap.1.le fun i hge hlt =>
        ((g.on b).isTriviaAt_iff i).2 (hgap.2 i hge hlt)
    · have hp := Bool.eq_false_iff.2 hp
      rw [hb.succ hp, before?_succ, hb.isTriviaAt, hp]
      rfl

theorem isTriviaAt_of_before? {p i : Nat} (h : g.before? p = some i) : g.isTriviaAt i = false := by
  simpa using List.find?_some h

end Setup

namespace Session

/-- Opens a region if the token is an opening delimiter. -/
def openRegion (g : Setup) (pair : Delimiters) (token : Option Kind) (c : Grouping) (s : Session) :
    Grouping × Session :=
  if token = some pair.opening then
    ({ c with regions := ⟨(s.openMarker g).1, c.chunks.head?.map (·.marker)⟩ :: c.regions },
      (s.openMarker g).2)
  else (c, s)

/-- Closes the innermost region if the token was a closing delimiter. -/
def closeRegion (g : Setup) (kind : Kind) (pair : Delimiters) (token : Option Kind) (c : Grouping)
    (s : Session) : Grouping × Session :=
  if token = some pair.closing then
    match c.regions with
    | [] => (c, s)
    | region :: regions =>
      let before := c.chunks.dropWhile fun x => some x.marker != region.before
      (s.commitAs region.marker kind).foldFull g kind
        { c with regions, chunks := ⟨region.marker, 1⟩ :: before }
  else (c, s)

theorem delimiterStep_eq (g : Setup) (run : Runner) (level : Nat) (kind : Kind) (pair : Delimiters)
    (c : Grouping) (s : Session) :
    s.delimiterStep g run level kind pair c =
      let x := s.closeCurrent kind c
      let y := x.2.openRegion g pair (s.kindHere? g) x.1
      let z := y.2.foldFull g kind y.1
      (run g.advancer level z.2).bind fun r =>
        some (r.2.closeRegion g kind pair (s.kindHere? g) z.1) := by
  unfold delimiterStep openRegion
  dsimp only [Option.bind_eq_bind]
  generalize foldFull g kind _ _ = z
  refine congrArg (run g.advancer level z.2).bind (funext fun r => ?_)
  unfold closeRegion
  split
  · cases z.1.regions <;> rfl
  · rfl

end Session

theorem Session.swallowedRegion_eq (g : Setup) (pair : Delimiters) (s : Session) :
    s.swallowedRegion g pair =
      match g.before? s.position, s.log.lastCommitted? with
      | some i, some m =>
        if g.source.kind? i = some pair.opening ∧ s.log.kind? m = some .error ∧
            s.log.start m = i then
          ([⟨(s.wrap m).1, none⟩], (s.wrap m).2)
        else ([], s)
      | _, _ => ([], s) :=
  rfl

namespace Session.Mirrors

variable {g : Setup} {b : Source} {f : Nat → Nat} {s t : Session} {run run' : Runner}
  (hb : Stretches f (g.source.glimpses g.language) (b.glimpses g.language))
  (hrun : Runner.Mirrors b f run run') (h : s.Mirrors b f t)
include hb h

theorem closeCurrent (kind : Kind) (c : Grouping) :
    Mirrored b f (s.closeCurrent kind c) (t.closeCurrent kind c) := by
  unfold Session.closeCurrent
  cases c.current with
  | none => exact .mk h
  | some m => exact .mk (h.commitAs hb m kind)

theorem foldRounds (kind : Kind) (rounds : Nat) (c : Grouping) :
    Mirrored b f (s.foldRounds g kind rounds c) (t.foldRounds (g.on b) kind rounds c) := by
  induction rounds generalizing c s t with
  | zero => exact .mk h
  | succ rounds ih =>
    simp only [Session.foldRounds]
    cases (c.latestRun.take g.limits.fanOut).getLast? with
    | none => exact .mk h
    | some oldest =>
      obtain ⟨parent, u, v, hu, hv, hwrap⟩ := (h.wrap hb oldest.marker).exists_eq
      dsimp only
      rw [hu, hv]
      by_cases hshort : c.latestRun.length < g.limits.fanOut
      · rw [if_pos hshort, if_pos hshort]
        exact .mk h
      · rw [if_neg hshort, if_neg hshort]
        exact ih ((hwrap.commitAs hb parent kind).note _ _) _

theorem foldFull (kind : Kind) (c : Grouping) :
    Mirrored b f (s.foldFull g kind c) (t.foldFull (g.on b) kind c) :=
  h.foldRounds hb kind c.chunks.length c

theorem foldIfFull (kind : Kind) (c : Grouping) :
    Mirrored b f (s.foldIfFull g kind c) (t.foldIfFull (g.on b) kind c) := by
  obtain ⟨c', u, v, hu, hv, huv⟩ := (h.closeCurrent hb kind c).exists_eq
  simp only [Session.foldIfFull, hu, hv]
  split
  · exact huv.foldFull hb kind c'
  · exact .mk h

theorem swallowedRegion (pair : Delimiters) :
    Mirrored b f (s.swallowedRegion g pair) (t.swallowedRegion (g.on b) pair) := by
  have hbefore := Setup.before?_stretched hb s.position
  rw [← h.position] at hbefore
  rw [swallowedRegion_eq, swallowedRegion_eq, hbefore, h.log, MarkerLog.lastCommitted?_move, ← h.log]
  cases hi : g.before? s.position with
  | none => exact .mk h
  | some i =>
    cases s.log.lastCommitted? with
    | none => exact .mk h
    | some m =>
      have hswallowed : (b.kind? (f i) = some pair.opening ∧ t.log.kind? m = some .error ∧
          t.log.start m = f i) ↔ (g.source.kind? i = some pair.opening ∧
          s.log.kind? m = some .error ∧ s.log.start m = i) := by
        rw [hb.kind? (Setup.isTriviaAt_of_before? hi), h.log, MarkerLog.kind?_move,
          MarkerLog.start_move _ _ hb.zero, hb.strictMono.injective.eq_iff]
      obtain ⟨outer, u, v, hu, hv, hwrap⟩ := (h.wrap hb m).exists_eq
      simp only [Option.map_some, hswallowed, hu, hv]
      split
      · exact .mk hwrap
      · exact .mk h

theorem firstRegions (pair? : Option Delimiters) :
    Mirrored b f (s.firstRegions g pair?) (t.firstRegions (g.on b) pair?) := by
  unfold Session.firstRegions
  cases pair? with
  | none => exact .mk h
  | some pair => exact h.swallowedRegion hb pair

omit hb in
theorem dropOpen (c : Grouping) : (s.dropOpen c).Mirrors b f (t.dropOpen c) := by
  have hregions (regions : List Region) {u v : Session} (huv : u.Mirrors b f v) :
      (regions.foldl (fun s region => s.drop region.marker) u).Mirrors b f
        (regions.foldl (fun s region => s.drop region.marker) v) := by
    induction regions generalizing u v with
    | nil => exact huv
    | cons region regions ih => exact ih (huv.drop region.marker)
  unfold Session.dropOpen
  cases c.current with
  | none => exact hregions _ h
  | some m => exact hregions _ (h.drop m)

theorem openCurrent (c : Grouping) :
    Mirrored b f (s.openCurrent g c) (t.openCurrent (g.on b) c) := by
  obtain ⟨m, u, v, hu, hv, hopen⟩ := (h.openMarker hb).exists_eq
  unfold Session.openCurrent
  cases c.current with
  | none =>
    simp only [hu, hv]
    exact .mk hopen
  | some m => exact .mk h

theorem openRegion (pair : Delimiters) (token : Option Kind) (c : Grouping) :
    Mirrored b f (s.openRegion g pair token c) (t.openRegion (g.on b) pair token c) := by
  obtain ⟨m, u, v, hu, hv, hopen⟩ := (h.openMarker hb).exists_eq
  unfold Session.openRegion
  rw [hu, hv]
  split
  · exact .mk hopen
  · exact .mk h

theorem closeRegion (kind : Kind) (pair : Delimiters) (token : Option Kind) (c : Grouping) :
    Mirrored b f (s.closeRegion g kind pair token c) (t.closeRegion (g.on b) kind pair token c) := by
  unfold Session.closeRegion
  split
  · cases c.regions with
    | nil => exact .mk h
    | cons region regions => exact (h.commitAs hb region.marker kind).foldFull hb kind _
  · exact .mk h

/-! ## Rounds -/

include hrun

theorem itemStep (level : Nat) (item eatMore : RuleRef) (c : Grouping) :
    Option.Rel (fun x y => y.1 = x.1 ∧ Mirrored b f x.2 y.2)
      (s.itemStep g run level item eatMore c) (t.itemStep (g.on b) run' level item eatMore c) := by
  obtain ⟨c', u, v, hu, hv, huv⟩ := (h.openCurrent hb c).exists_eq
  rw [itemStep_eq, itemStep_eq, hu, hv]
  have hmore : Option.Rel (Mirrored b f)
      (if c'.regions.isEmpty then run eatMore (level + 1) u else some (true, u))
      (if c'.regions.isEmpty then run' eatMore (level + 1) v else some (true, v)) := by
    split
    · exact hrun _ _ _ _ huv
    · exact .some (.mk huv)
  refine rel_bind hmore ?_
  rintro ⟨_, u⟩ ⟨more, v⟩ ⟨rfl, huv⟩
  have hparsed : Option.Rel (Mirrored b f)
      (if more then run item (level + 1) u else some (false, u))
      (if more then run' item (level + 1) v else some (false, v)) := by
    split
    · exact hrun _ _ _ _ huv
    · exact .some (.mk huv)
  refine rel_bind hparsed ?_
  rintro ⟨_, u⟩ ⟨parsed, v⟩ ⟨rfl, huv⟩
  dsimp only
  split <;> exact .some ⟨rfl, .mk huv⟩

theorem delimiterStep (hs : g.isTriviaAt s.position = false) (level : Nat) (kind : Kind)
    (pair : Delimiters) (c : Grouping) :
    Option.Rel (Mirrored b f) (s.delimiterStep g run level kind pair c)
      (t.delimiterStep (g.on b) run' level kind pair c) := by
  rw [delimiterStep_eq, delimiterStep_eq, h.kindHere? hb hs]
  generalize s.kindHere? g = token
  obtain ⟨c₁, u₁, v₁, hu₁, hv₁, h₁⟩ := (h.closeCurrent hb kind c).exists_eq
  obtain ⟨c₂, u₂, v₂, hu₂, hv₂, h₂⟩ := (h₁.openRegion hb pair token c₁).exists_eq
  obtain ⟨c₃, u₃, v₃, hu₃, hv₃, h₃⟩ := (h₂.foldFull hb kind c₂).exists_eq
  simp only [hu₁, hv₁, hu₂, hv₂, hu₃, hv₃]
  exact rel_bind (hrun _ _ _ _ h₃) fun _ _ hr => .some (hr.2.closeRegion hb kind pair token c₃)

theorem roundStep (hs : g.isTriviaAt s.position = false) (level : Nat) (kind : Kind)
    (pair? : Option Delimiters) (item eatMore : RuleRef) (c : Grouping) :
    Option.Rel (fun x y => y.1 = x.1 ∧ Mirrored b f x.2 y.2)
      (s.roundStep g run level kind pair? item eatMore c)
      (t.roundStep (g.on b) run' level kind pair? item eatMore c) := by
  unfold Session.roundStep
  rw [h.kindHere? hb hs]
  generalize Option.filter _ pair? = delimiter?
  cases delimiter? with
  | none => exact h.itemStep hb hrun level item eatMore c
  | some pair =>
    exact rel_map (h.delimiterStep hb hrun hs level kind pair c) fun _ _ h => ⟨rfl, h⟩

theorem groupItems (level : Nat) (kind : Kind) (pair? : Option Delimiters) (item eatMore : RuleRef)
    (rounds : Nat) (c : Grouping) :
    Option.Rel (Mirrored b f) (s.groupItems g run level kind pair? item eatMore rounds c)
      (t.groupItems (g.on b) run' level kind pair? item eatMore rounds c) := by
  induction rounds generalizing c s t with
  | zero => exact .none
  | succ rounds ih =>
    have hs := (g.significant_spec s.position).1
    rw [groupItems_succ, groupItems_succ]
    refine rel_bind ((h.toSignificant hb).roundStep hb hrun hs level kind pair? item eatMore c) ?_
    rintro ⟨_, _, u⟩ ⟨parsed, c₁, v⟩ ⟨rfl, rfl, huv⟩
    dsimp only
    split
    · exact .some (.mk huv)
    · obtain ⟨c₂, u', v', hu, hv, huv'⟩ := (huv.foldIfFull hb kind c₁).exists_eq
      rw [hu, hv]
      have hprogress := huv'.guardProgress hb "parse_as_tree" s.position
      rw [← h.position] at hprogress
      obtain ⟨goesOn, u₁, v₁, hu₁, hv₁, huv₁⟩ := hprogress.exists_eq
      dsimp only
      rw [hu₁, hv₁]
      cases goesOn with
      | true => exact ih huv₁ c₂
      | false => exact .some (.mk huv₁)

/-- Grouping ends in mirrored states or in neither. -/
theorem groupRun (rounds level : Nat) (kind : Kind) (minds : Bool) (item eatMore : RuleRef) :
    Option.Rel (Mirrored b f) (s.groupRun g run rounds level kind minds item eatMore)
      (t.groupRun (g.on b) run' rounds level kind minds item eatMore) := by
  rw [groupRun_eq, groupRun_eq]
  generalize (if minds then g.language.delimiters.head? else none) = pair?
  obtain ⟨regions, u, v, hu, hv, huv⟩ := (h.firstRegions hb pair?).exists_eq
  dsimp only
  rw [hu, hv]
  refine rel_bind (huv.groupItems hb hrun level kind pair? item eatMore rounds _) ?_
  rintro ⟨_, u⟩ ⟨c, v⟩ ⟨rfl, huv⟩
  exact .some (.mk ((huv.dropOpen c).note _ _))

end Session.Mirrors

end Descent
