import Descent.Proofs.Session.Calm
import Descent.Session.Chunks

/-!
# Grouping and the markers it does not own

Grouping a run opens markers of its own, commits and drops those, and wraps them and the node that
was committed last. A `MarkerInvariant` is a property of sessions that such operations keep, with a
property of markers that the own ones have. It holds after grouping if it held before and the rules
that are run keep it too (`MarkerInvariant.groupRun`). Commitments need to keep it only for the kinds in
question. What is true of the own markers may also come about as the session goes on, as long as it
stays true (`MarkerSteps`).

Where the property holds rules are run. So two runners that come to the same in all states with the property
(`Concur`) cannot be told apart by grouping (`MarkerMoves.concur_groupRun`).
-/

namespace Descent

/-- Two computations give the same, and what they give, if anything, has a property. -/
structure Concur {α : Type} (Q : α → Prop) (x x' : Option α) : Prop where
  same : x' = x
  holds : ∀ y, x = some y → Q y

namespace Concur

variable {α β : Type} {Q : α → Prop} {R : β → Prop} {x x' : Option α} {f f' : α → Option β}

theorem some {y : α} (h : Q y) : Concur Q (.some y) (.some y) :=
  ⟨rfl, fun _ he => Option.some.inj he ▸ h⟩

theorem imp {Q' : α → Prop} (h : Concur Q x x') (hQ : ∀ y, Q y → Q' y) : Concur Q' x x' :=
  ⟨h.same, fun y hy => hQ y (h.holds y hy)⟩

theorem bind (h : Concur Q x x') (hf : ∀ y, x = .some y → Q y → Concur R (f y) (f' y)) :
    Concur R (x.bind f) (x'.bind f') := by
  obtain ⟨rfl, hQ⟩ := h
  cases x' with
  | none => exact ⟨rfl, fun _ he => nomatch he⟩
  | some y => exact hf y rfl (hQ y rfl)

theorem map {f : α → β} (h : Concur Q x x') (hf : ∀ y, Q y → R (f y)) :
    Concur R (x.map f) (x'.map f) := by
  obtain ⟨rfl, hQ⟩ := h
  refine ⟨rfl, fun z hz => ?_⟩
  obtain ⟨y, hy, rfl⟩ := Option.map_eq_some_iff.1 hz
  exact hf y (hQ y hy)

theorem ite {p : Prop} [Decidable p] {y y' : Option α} (h : p → Concur Q x x')
    (h' : ¬p → Concur Q y y') : Concur Q (if p then x else y) (if p then x' else y') := by
  split
  · next hp => exact h hp
  · next hp => exact h' hp

end Concur

theorem bind_ite {α β : Type} (p : Prop) [Decidable p] (a b : Option α) (f : α → Option β) :
    (if p then a else b).bind f = if p then a.bind f else b.bind f := by
  split <;> rfl

namespace Session

/-- Opens the chunk that items are added to, unless it is open. -/
def openCurrent (g : Setup) (c : Grouping) (s : Session) : Grouping × Session :=
  match c.current with
  | some _ => (c, s)
  | none => ({ c with current := some (s.openMarker g).1 }, (s.openMarker g).2)

theorem itemStep_eq (g : Setup) (run : Runner) (level : Nat) (item eatMore : RuleRef)
    (c : Grouping) (s : Session) :
    s.itemStep g run level item eatMore c =
      (if (s.openCurrent g c).1.regions.isEmpty then run eatMore (level + 1) (s.openCurrent g c).2
        else some (true, (s.openCurrent g c).2)).bind fun x =>
          (if x.1 then run item (level + 1) x.2 else some (false, x.2)).bind fun y =>
            if y.1 then
              some (true, { (s.openCurrent g c).1 with
                inCurrent := (s.openCurrent g c).1.inCurrent + 1
                total := (s.openCurrent g c).1.total + 1 }, y.2)
            else some (false, (s.openCurrent g c).1, y.2) := by
  unfold itemStep openCurrent
  simp only [bind_ite]
  rfl

/-- One round of a run: a delimiter if there is one to be minded, else an item. -/
def roundStep (g : Setup) (run : Runner) (level : Nat) (kind : Kind) (pair? : Option Delimiters)
    (item eatMore : RuleRef) (c : Grouping) (s : Session) : Option (Bool × Grouping × Session) :=
  match pair?.filter fun pair =>
      s.kindHere? g == some pair.opening ||
        (s.kindHere? g == some pair.closing && !c.regions.isEmpty) with
  | some pair => (s.delimiterStep g run level kind pair c).map fun x => (true, x.1, x.2)
  | none => s.itemStep g run level item eatMore c

/-- Closes a chunk with enough items in it. -/
def foldIfFull (g : Setup) (kind : Kind) (c : Grouping) (s : Session) : Grouping × Session :=
  if g.limits.fanOut ≤ c.inCurrent then
    (s.closeCurrent kind c).2.foldFull g kind (s.closeCurrent kind c).1
  else (c, s)

theorem groupItems_succ (g : Setup) (run : Runner) (level : Nat) (kind : Kind)
    (pair? : Option Delimiters) (item eatMore : RuleRef) (rounds : Nat) (c : Grouping)
    (s : Session) :
    s.groupItems g run level kind pair? item eatMore (rounds + 1) c =
      ((s.toSignificant g).roundStep g run level kind pair? item eatMore c).bind fun x =>
        if !x.1 then some (x.2.1, x.2.2)
        else
          match (x.2.2.foldIfFull g kind x.2.1).2.guardProgress g "parse_as_tree" s.position with
          | (true, s) =>
            s.groupItems g run level kind pair? item eatMore rounds (x.2.2.foldIfFull g kind x.2.1).1
          | (false, s) => some ((x.2.2.foldIfFull g kind x.2.1).1, s) := by
  rw [groupItems, roundStep]
  dsimp only
  generalize Option.filter _ pair? = delimiter?
  cases delimiter? <;> rfl

/-- The region that is open when a run begins, if any. -/
def firstRegions (g : Setup) (pair? : Option Delimiters) (s : Session) : List Region × Session :=
  match pair? with
  | some pair => s.swallowedRegion g pair
  | none => ([], s)

/-- Drops the chunk that items were being added to and the regions still open. -/
def dropOpen (c : Grouping) (s : Session) : Session :=
  c.regions.reverse.foldl (fun s region => s.drop region.marker)
    (match c.current with
      | some m => s.drop m
      | none => s)

theorem groupRun_eq (g : Setup) (run : Runner) (rounds level : Nat) (kind : Kind) (minds : Bool)
    (item eatMore : RuleRef) (s : Session) :
    s.groupRun g run rounds level kind minds item eatMore =
      let pair? := if minds then g.language.delimiters.head? else none
      ((s.firstRegions g pair?).2.groupItems g run level kind pair? item eatMore rounds
        { regions := (s.firstRegions g pair?).1 }).bind fun x =>
          some (x.1.total != 0, (x.2.dropOpen x.1).note (.chunksFinished x.1.total)) := by
  unfold groupRun firstRegions
  dsimp only
  generalize (if minds then g.language.delimiters.head? else none) = pair?
  cases pair? <;> rfl

end Session

open Session (Calm)

/-- What is done to markers with property `Q` keeps property `I` of the session, and so do token
tests, if nodes are committed with property `K` of their kind. New markers have property `Q`. -/
structure MarkerInvariant (g : Setup) (I : Session → Prop) (Q : Marker → Prop)
    (K : Kind → Prop) : Prop where
  calm {s s' : Session} : I s → Calm s s' → I s'
  openMarker {s : Session} : I s → I (s.openMarker g).2 ∧ Q (s.openMarker g).1
  commitAs {s : Session} {m : Marker} (kind : Kind) : I s → Q m → K kind → I (s.commitAs m kind)
  drop {s : Session} {m : Marker} : I s → Q m → I (s.drop m)
  wrap {s : Session} {m : Marker} : I s → Q m ∨ s.log.lastCommitted? = some m →
    I (s.wrap m).2 ∧ Q (s.wrap m).1

/-- All markers of a grouping have a property. -/
structure Grouping.All (Q : Marker → Prop) (c : Grouping) : Prop where
  regions : ∀ r ∈ c.regions, Q r.marker
  chunks : ∀ x ∈ c.chunks, Q x.marker
  current : ∀ m, c.current = some m → Q m

theorem Grouping.All.mono {Q Q' : Marker → Prop} {c : Grouping} (h : c.All Q)
    (hQ : ∀ m, Q m → Q' m) : c.All Q' where
  regions r hr := hQ _ (h.regions r hr)
  chunks x hx := hQ _ (h.chunks x hx)
  current m hm := hQ m (h.current m hm)

theorem Grouping.all_true (c : Grouping) : c.All fun _ => True :=
  ⟨fun _ _ => trivial, fun _ _ => trivial, fun _ _ => trivial⟩

/-- `s'` has property `I`, and every marker with property `Q` in `s` still has it. -/
structure Session.Keeps (I : Session → Prop) (Q : Session → Marker → Prop) (s s' : Session) : Prop where
  session : I s'
  markers : ∀ m, Q s m → Q s' m

/-- Like `MarkerInvariant`, where the property of the markers depends on the session and no marker
loses it. -/
structure MarkerSteps (g : Setup) (I : Session → Prop) (Q : Session → Marker → Prop)
    (K : Kind → Prop) : Prop where
  calm {s s' : Session} : I s → Calm s s' → s.Keeps I Q s'
  openMarker {s : Session} : I s →
    s.Keeps I Q (s.openMarker g).2 ∧ Q (s.openMarker g).2 (s.openMarker g).1
  commitAs {s : Session} {m : Marker} (kind : Kind) : I s → Q s m → K kind →
    s.Keeps I Q (s.commitAs m kind)
  drop {s : Session} {m : Marker} : I s → Q s m → s.Keeps I Q (s.drop m)
  wrap {s : Session} {m : Marker} : I s → Q s m ∨ s.log.lastCommitted? = some m →
    s.Keeps I Q (s.wrap m).2 ∧ Q (s.wrap m).2 (s.wrap m).1

/-- Like `MarkerSteps`, but of all tests only those have to keep the property that grouping makes by itself: it
goes on to the next significant token, and ends the session after a round that stepped over none. -/
structure MarkerMoves (g : Setup) (I : Session → Prop) (Q : Session → Marker → Prop)
    (K : Kind → Prop) : Prop where
  toSignificant {s : Session} : I s → s.Keeps I Q (s.toSignificant g)
  guardProgress {s : Session} (rule : String) (position : Nat) : I s →
    s.Keeps I Q (s.guardProgress g rule position).2
  note {s : Session} (e : Event) : e.isNeutral = true → I s → s.Keeps I Q (s.note e)
  openMarker {s : Session} : I s →
    s.Keeps I Q (s.openMarker g).2 ∧ Q (s.openMarker g).2 (s.openMarker g).1
  commitAs {s : Session} {m : Marker} (kind : Kind) : I s → Q s m → K kind →
    s.Keeps I Q (s.commitAs m kind)
  drop {s : Session} {m : Marker} : I s → Q s m → s.Keeps I Q (s.drop m)
  wrap {s : Session} {m : Marker} : I s → Q s m ∨ s.log.lastCommitted? = some m →
    s.Keeps I Q (s.wrap m).2 ∧ Q (s.wrap m).2 (s.wrap m).1

theorem MarkerSteps.moves {g : Setup} {I : Session → Prop} {Q : Session → Marker → Prop}
    {K : Kind → Prop} (h : MarkerSteps g I Q K) : MarkerMoves g I Q K where
  toSignificant hs := h.calm hs (.toSignificant g _)
  guardProgress rule position hs := h.calm hs (.guardProgress g _ rule position)
  note e _ hs := h.calm hs (.note _ e)
  openMarker := h.openMarker
  commitAs := h.commitAs
  drop := h.drop
  wrap := h.wrap

/-- Two properties of the session are kept together. -/
theorem MarkerInvariant.and {g : Setup} {I I' : Session → Prop} {Q : Marker → Prop}
    {K : Kind → Prop} (h : MarkerInvariant g I Q K) (h' : MarkerInvariant g I' Q K) :
    MarkerInvariant g (fun s => I s ∧ I' s) Q K where
  calm hs hc := ⟨h.calm hs.1 hc, h'.calm hs.2 hc⟩
  openMarker hs := ⟨⟨(h.openMarker hs.1).1, (h'.openMarker hs.2).1⟩, (h.openMarker hs.1).2⟩
  commitAs kind hs hm hk := ⟨h.commitAs kind hs.1 hm hk, h'.commitAs kind hs.2 hm hk⟩
  drop hs hm := ⟨h.drop hs.1 hm, h'.drop hs.2 hm⟩
  wrap hs hm := ⟨⟨(h.wrap hs.1 hm).1, (h'.wrap hs.2 hm).1⟩, (h.wrap hs.1 hm).2⟩

theorem Session.Keeps.and {I I' : Session → Prop} {Q Q' : Session → Marker → Prop} {s s' : Session}
    (h : s.Keeps I Q s') (h' : s.Keeps I' Q' s') :
    s.Keeps (fun s => I s ∧ I' s) (fun s m => Q s m ∧ Q' s m) s' :=
  ⟨⟨h.session, h'.session⟩, fun m hm => ⟨h.markers m hm.1, h'.markers m hm.2⟩⟩

namespace MarkerSteps

variable {g : Setup} {I : Session → Prop} {Q : Session → Marker → Prop} {K : Kind → Prop}

/-- Two properties of the session are kept together, each with a property of the markers. -/
theorem and {I' : Session → Prop} {Q' : Session → Marker → Prop} (h : MarkerSteps g I Q K)
    (h' : MarkerSteps g I' Q' K) :
    MarkerSteps g (fun s => I s ∧ I' s) (fun s m => Q s m ∧ Q' s m) K where
  calm hs hc := (h.calm hs.1 hc).and (h'.calm hs.2 hc)
  openMarker hs :=
    ⟨(h.openMarker hs.1).1.and (h'.openMarker hs.2).1, (h.openMarker hs.1).2, (h'.openMarker hs.2).2⟩
  commitAs kind hs hm hk := (h.commitAs kind hs.1 hm.1 hk).and (h'.commitAs kind hs.2 hm.2 hk)
  drop hs hm := (h.drop hs.1 hm.1).and (h'.drop hs.2 hm.2)
  wrap hs hm :=
    have hw := h.wrap hs.1 (hm.imp_left And.left)
    have hw' := h'.wrap hs.2 (hm.imp_left And.right)
    ⟨hw.1.and hw'.1, hw.2, hw'.2⟩

end MarkerSteps

namespace MarkerMoves

variable {g : Setup} {I : Session → Prop} {Q : Session → Marker → Prop} {K : Kind → Prop}
  (h : MarkerMoves g I Q K) {s s' : Session} {c c' : Grouping}
include h

theorem foldRounds (kind : Kind) (rounds : Nat) (hs : I s) (hc : c.All (Q s))
    (hk : K kind) : I (s.foldRounds g kind rounds c).2 ∧
      (s.foldRounds g kind rounds c).1.All (Q (s.foldRounds g kind rounds c).2) := by
  induction rounds generalizing c s with
  | zero => exact ⟨hs, hc⟩
  | succ rounds ih =>
    simp only [Session.foldRounds]
    split
    · exact ⟨hs, hc⟩
    · next oldest holdest =>
      split
      · exact ⟨hs, hc⟩
      · have hmem : oldest ∈ c.chunks := by
          have hrun := List.mem_of_mem_take (List.mem_of_getLast? holdest)
          unfold Grouping.latestRun at hrun
          split at hrun
          · cases hrun
          · exact List.takeWhile_subset _ hrun
        obtain ⟨hwrap, hparent⟩ := h.wrap hs (.inl (hc.chunks _ hmem))
        have hcommit := h.commitAs kind hwrap.session hparent hk
        have hnote := h.note (.chunkFolded (oldest.generation + 1)) rfl hcommit.session
        have hkept (m : Marker) (hm : Q (s.wrap oldest.marker).2 m) :=
          hnote.markers m (hcommit.markers m hm)
        have hc' := hc.mono fun m hm => hkept m (hwrap.markers m hm)
        refine ih hnote.session ⟨hc'.regions, fun x hx => ?_, hc'.current⟩
        rcases List.mem_cons.1 hx with rfl | hx
        · exact hkept _ hparent
        · exact hc'.chunks x (List.mem_of_mem_drop hx)

theorem closeCurrent (kind : Kind) (hs : I s) (hc : c.All (Q s)) (hk : K kind) :
    I (s.closeCurrent kind c).2 ∧ (s.closeCurrent kind c).1.All (Q (s.closeCurrent kind c).2) := by
  unfold Session.closeCurrent
  split
  · exact ⟨hs, hc⟩
  · next m hm =>
    have hcommit := h.commitAs kind hs (hc.current m hm) hk
    have hc' := hc.mono hcommit.markers
    refine ⟨hcommit.session, hc'.regions, ?_, by simp⟩
    exact List.forall_mem_cons.2 ⟨hc'.current m hm, hc'.chunks⟩

theorem swallowedRegion (pair : Delimiters) (hs : I s) : I (s.swallowedRegion g pair).2 ∧
    ∀ r ∈ (s.swallowedRegion g pair).1, Q (s.swallowedRegion g pair).2 r.marker := by
  unfold Session.swallowedRegion
  dsimp only
  split
  · next m hm =>
    split
    · obtain ⟨hwrap, houter⟩ := h.wrap hs (.inr hm)
      exact ⟨hwrap.session, by simpa using houter⟩
    · exact ⟨hs, by simp⟩
  · exact ⟨hs, by simp⟩

theorem firstRegions (pair? : Option Delimiters) (hs : I s) : I (s.firstRegions g pair?).2 ∧
    ∀ r ∈ (s.firstRegions g pair?).1, Q (s.firstRegions g pair?).2 r.marker := by
  cases pair? with
  | some pair => exact h.swallowedRegion pair hs
  | none => exact ⟨hs, fun _ hr => nomatch hr⟩

variable {run run' : Runner} {level : Nat} {kind : Kind} {item eatMore : RuleRef}

theorem foldFull (kind : Kind) (hs : I s) (hc : c.All (Q s)) (hk : K kind) :
    I (s.foldFull g kind c).2 ∧ (s.foldFull g kind c).1.All (Q (s.foldFull g kind c).2) :=
  h.foldRounds kind _ hs hc hk

/-- Two runners come to the same if they do wherever the property holds. -/
theorem concur_delimiterStep {pair : Delimiters}
    (hrun : ∀ t, I t → Concur (fun y => t.Keeps I Q y.2) (run g.advancer level t) (run' g.advancer level t))
    (hs : I s) (hc : c.All (Q s)) (hk : K kind) :
    Concur (fun y => I y.2 ∧ y.1.All (Q y.2)) (s.delimiterStep g run level kind pair c)
      (s.delimiterStep g run' level kind pair c) := by
  simp only [Session.delimiterStep, Option.bind_eq_bind]
  obtain ⟨hs₁, hc₁⟩ := h.closeCurrent kind hs hc hk
  generalize Session.closeCurrent kind c s = x₁ at hs₁ hc₁ ⊢
  generalize hx₂ : (if s.kindHere? g = some pair.opening then _ else x₁) = x₂
  have h₂ : I x₂.2 ∧ x₂.1.All (Q x₂.2) := by
    rw [← hx₂]
    split
    · obtain ⟨hopen, hm⟩ := h.openMarker hs₁
      have hc₂ := hc₁.mono hopen.markers
      exact ⟨hopen.session, List.forall_mem_cons.2 ⟨hm, hc₂.regions⟩, hc₂.chunks, hc₂.current⟩
    · exact ⟨hs₁, hc₁⟩
  obtain ⟨hs₃, hc₃⟩ := h.foldFull kind h₂.1 h₂.2 hk
  generalize Session.foldFull g kind x₂.1 x₂.2 = x₃ at hs₃ hc₃ ⊢
  refine (hrun _ hs₃).bind fun z _ hz => ?_
  have hc₄ := hc₃.mono hz.markers
  refine .ite (fun _ => ?_) fun _ => .some ⟨hz.session, hc₄⟩
  split
  · exact .some ⟨hz.session, hc₄⟩
  · next region regions hregions =>
    have hall := hc₄.regions
    rw [hregions] at hall
    have hcommit := h.commitAs kind hz.session (hall _ List.mem_cons_self) hk
    have hc₅ := hc₄.mono hcommit.markers
    have hall := hc₅.regions
    rw [hregions] at hall
    obtain ⟨hregion, hrest⟩ := List.forall_mem_cons.1 hall
    exact .some (h.foldFull kind hcommit.session ⟨hrest, List.forall_mem_cons.2 ⟨hregion, fun x hx =>
      hc₅.chunks x (List.dropWhile_subset _ hx)⟩, hc₅.current⟩ hk)

theorem openCurrent (hs : I s) (hc : c.All (Q s)) :
    I (s.openCurrent g c).2 ∧ (s.openCurrent g c).1.All (Q (s.openCurrent g c).2) := by
  unfold Session.openCurrent
  split
  · exact ⟨hs, hc⟩
  · obtain ⟨hopen, hm⟩ := h.openMarker hs
    have hc₁ := hc.mono hopen.markers
    exact ⟨hopen.session, hc₁.regions, hc₁.chunks, fun m' hm' => Option.some.inj hm' ▸ hm⟩

theorem concur_itemStep
    (hrun : ∀ rule, rule = item ∨ rule = eatMore → ∀ level t, I t →
      Concur (fun y => t.Keeps I Q y.2) (run rule level t) (run' rule level t))
    (hs : I s) (hc : c.All (Q s)) :
    Concur (fun y => I y.2.2 ∧ y.2.1.All (Q y.2.2)) (s.itemStep g run level item eatMore c)
      (s.itemStep g run' level item eatMore c) := by
  rw [Session.itemStep_eq, Session.itemStep_eq]
  have hopen := h.openCurrent hs hc
  generalize s.openCurrent g c = x at hopen ⊢
  have hask {rule : RuleRef} (hrule : rule = item ∨ rule = eatMore) {t : Session}
      (ht : I t ∧ x.1.All (Q t)) (asks b : Bool) :
      Concur (fun y => I y.2 ∧ x.1.All (Q y.2)) (if asks then run rule (level + 1) t else some (b, t))
        (if asks then run' rule (level + 1) t else some (b, t)) := by
    refine .ite (fun _ => ?_) fun _ => .some ht
    exact (hrun rule hrule _ t ht.1).imp fun y hy => ⟨hy.session, ht.2.mono hy.markers⟩
  refine (hask (.inr rfl) hopen _ true).bind fun y _ hy => ?_
  refine (hask (.inl rfl) hy y.1 false).bind fun z _ hz => ?_
  refine .ite (fun _ => .some ⟨hz.1, ?_⟩) fun _ => .some hz
  exact ⟨hz.2.regions, hz.2.chunks, hz.2.current⟩

theorem foldIfFull (kind : Kind) (hs : I s) (hc : c.All (Q s)) (hk : K kind) :
    I (s.foldIfFull g kind c).2 ∧
      (s.foldIfFull g kind c).1.All (Q (s.foldIfFull g kind c).2) := by
  unfold Session.foldIfFull
  split
  · obtain ⟨hs₁, hc₁⟩ := h.closeCurrent kind hs hc hk
    exact h.foldFull kind hs₁ hc₁ hk
  · exact ⟨hs, hc⟩

theorem dropOpen (hs : I s) (hc : c.All (Q s)) : I (s.dropOpen c) := by
  unfold Session.dropOpen
  have hregions (rs : List Region) (u : Session) (hr : ∀ r ∈ rs, Q u r.marker) (hu : I u) :
      I (rs.foldl (fun s region => s.drop region.marker) u) := by
    induction rs generalizing u with
    | nil => exact hu
    | cons r rs ih =>
      obtain ⟨hr, hrs⟩ := List.forall_mem_cons.1 hr
      have hdrop := h.drop hu hr
      exact ih _ (fun r hr => hdrop.markers _ (hrs r hr)) hdrop.session
  split
  · next m hm =>
    have hdrop := h.drop hs (hc.current m hm)
    refine hregions _ _ (fun r hr => ?_) hdrop.session
    exact hdrop.markers _ (hc.regions r (List.mem_reverse.1 hr))
  · exact hregions _ _ (fun r hr => hc.regions r (List.mem_reverse.1 hr)) hs

section
variable (hrun : ∀ rule, rule = item ∨ rule = eatMore ∨ rule = g.advancer → ∀ level t, I t →
  Concur (fun y => t.Keeps I Q y.2) (run rule level t) (run' rule level t))
include hrun

theorem concur_roundStep {pair? : Option Delimiters} (hs : I s) (hc : c.All (Q s)) (hk : K kind) :
    Concur (fun y => I y.2.2 ∧ y.2.1.All (Q y.2.2)) (s.roundStep g run level kind pair? item eatMore c)
      (s.roundStep g run' level kind pair? item eatMore c) := by
  unfold Session.roundStep
  split
  · have hadvance := hrun g.advancer (.inr (.inr rfl)) level
    exact (h.concur_delimiterStep hadvance hs hc hk).map fun _ hy => hy
  · exact h.concur_itemStep (fun rule hrule => hrun rule (hrule.imp_right .inl)) hs hc

theorem concur_groupItems {pair? : Option Delimiters} {rounds : Nat} (hs : I s) (hc : c.All (Q s))
    (hk : K kind) :
    Concur (fun y => I y.2 ∧ y.1.All (Q y.2)) (s.groupItems g run level kind pair? item eatMore rounds c)
      (s.groupItems g run' level kind pair? item eatMore rounds c) := by
  induction rounds generalizing c s with
  | zero => exact ⟨rfl, fun _ he => nomatch he⟩
  | succ rounds ih =>
    have hseek := h.toSignificant hs
    rw [Session.groupItems_succ, Session.groupItems_succ]
    refine (h.concur_roundStep hrun hseek.session (hc.mono hseek.markers) hk).bind fun y _ hy => ?_
    refine .ite (fun _ => .some hy) fun _ => ?_
    obtain ⟨hfold, hc'⟩ := h.foldIfFull kind hy.1 hy.2 hk
    have hguard := h.guardProgress "parse_as_tree" s.position hfold
    split
    · next ht =>
      rw [ht] at hguard
      exact ih hguard.session (hc'.mono hguard.markers)
    · next ht =>
      rw [ht] at hguard
      exact .some ⟨hguard.session, hc'.mono hguard.markers⟩

theorem concur_groupRun {rounds : Nat} {minds : Bool} (hs : I s) (hk : K kind) :
    Concur (fun y => I y.2) (s.groupRun g run rounds level kind minds item eatMore)
      (s.groupRun g run' rounds level kind minds item eatMore) := by
  rw [Session.groupRun_eq, Session.groupRun_eq]
  generalize (if minds then g.language.delimiters.head? else none) = pair?
  have hfirst := h.firstRegions pair? hs
  have hbegin : Grouping.All (Q (s.firstRegions g pair?).2) { regions := (s.firstRegions g pair?).1 } :=
    ⟨hfirst.2, fun _ hx => (nomatch hx), fun _ hm => nomatch hm⟩
  refine (h.concur_groupItems hrun hfirst.1 hbegin hk).bind fun y _ hy => .some ?_
  exact (h.note _ rfl (h.dropOpen hy.1 hy.2)).session

end

/-! ### A single runner -/

section
variable (hrun : ∀ rule, rule = item ∨ rule = eatMore ∨ rule = g.advancer → ∀ level s b s', I s →
  run rule level s = some (b, s') → s.Keeps I Q s')
include hrun

omit h in
/-- A runner concurs with itself. -/
theorem concur_self (rule : RuleRef) (hrule : rule = item ∨ rule = eatMore ∨ rule = g.advancer) (level : Nat)
    (t : Session) (ht : I t) : Concur (fun y => t.Keeps I Q y.2) (run rule level t) (run rule level t) :=
  ⟨rfl, fun y hy => hrun rule hrule level t y.1 y.2 ht hy⟩

theorem roundStep {pair? : Option Delimiters} {b : Bool} (hs : I s) (hc : c.All (Q s))
    (hd : s.roundStep g run level kind pair? item eatMore c = some (b, c', s'))
    (hk : K kind) : I s' ∧ c'.All (Q s') :=
  (h.concur_roundStep (concur_self hrun) hs hc hk).holds _ hd

theorem groupItems {pair? : Option Delimiters} {rounds : Nat} (hs : I s) (hc : c.All (Q s))
    (hd : s.groupItems g run level kind pair? item eatMore rounds c = some (c', s'))
    (hk : K kind) : I s' ∧ c'.All (Q s') :=
  (h.concur_groupItems (concur_self hrun) hs hc hk).holds _ hd

theorem groupRun {rounds : Nat} {minds b : Bool} (hs : I s)
    (hd : s.groupRun g run rounds level kind minds item eatMore = some (b, s'))
    (hk : K kind) : I s' :=
  (h.concur_groupRun (concur_self hrun) hs hk).holds _ hd

end

end MarkerMoves

/-- A property that a marker has or has not, whatever the session, is not lost. -/
theorem MarkerInvariant.steps {g : Setup} {I : Session → Prop} {Q : Marker → Prop}
    {K : Kind → Prop} (h : MarkerInvariant g I Q K) : MarkerSteps g I (fun _ => Q) K where
  calm hs hc := ⟨h.calm hs hc, fun _ hm => hm⟩
  openMarker hs := ⟨⟨(h.openMarker hs).1, fun _ hm => hm⟩, (h.openMarker hs).2⟩
  commitAs kind hs hm hk := ⟨h.commitAs kind hs hm hk, fun _ hm => hm⟩
  drop hs hm := ⟨h.drop hs hm, fun _ hm => hm⟩
  wrap hs hm := ⟨⟨(h.wrap hs hm).1, fun _ hm => hm⟩, (h.wrap hs hm).2⟩

theorem MarkerInvariant.groupRun {g : Setup} {I : Session → Prop} {Q : Marker → Prop}
    {K : Kind → Prop} (h : MarkerInvariant g I Q K) {s s' : Session} {run : Runner}
    {rounds level : Nat} {kind : Kind} {minds b : Bool} {item eatMore : RuleRef}
    (hrun : ∀ rule, rule = item ∨ rule = eatMore ∨ rule = g.advancer → ∀ level s b s', I s →
      run rule level s = some (b, s') → I s')
    (hs : I s) (hd : s.groupRun g run rounds level kind minds item eatMore = some (b, s'))
    (hk : K kind) : I s' :=
  h.steps.moves.groupRun (fun rule hr level s b s' hs he =>
    ⟨hrun rule hr level s b s' hs he, fun _ hm => hm⟩) hs hd hk

end Descent
