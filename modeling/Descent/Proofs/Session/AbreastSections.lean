import Descent.Proofs.Grammar.Finality
import Descent.Proofs.Session.Abreast
import Descent.Proofs.Session.MirrorSections
import Descent.Proofs.Session.Raised

/-!
# Sections abreast

Grouping, recovery and the leaving of sections run rules and hooks. Where these do in twins the same as
far as they are compared, so do grouping, recovery and leaving (`Session.Abreast`). What is compared is
what one run comes to: where it comes to something, so does the other one, unless a fatal error is behind
it after which nothing is compared.
-/

namespace Descent

open Comparable (state Alike)

/-- The computation that begins in `s` is compared with one that begins in a twin of `s`. What it comes to
has a twin. Unless nothing is compared there any more, something was compared in `s`, and the other
computation comes to the twin. -/
structure Session.Abreast {g : Setup} {γ : Type} [Comparable γ] (k : Comparison g) (s : Session)
    (x y : Option γ) : Prop where
  exists_twin : ∀ z, x = some z → ∃ w, Alike k z w ∧ (k.Over (state z) ∨ ¬k.Over s ∧ y = some w)

/-- Two runners do the same in twins. -/
def Runner.Abreast {g : Setup} (k : Comparison g) (run run' : Runner) : Prop :=
  ∀ (rule : RuleRef) (level : Nat) (s t : Session), s.Twins k t →
    s.Abreast k (run rule level s) (run' rule level t)

/-- Two ways to run hooks do the same in twins if the hooks take the steps that they may. -/
def HookRunner.Abreast {g : Setup} (k : Comparison g) (hook hook' : HookRunner) : Prop :=
  ∀ (body : Expr) (m? : Option Marker) (s t : Session), body.all k.allows = true → s.Twins k t →
    s.Abreast k (hook body m? s) (hook' body m? t)

theorem Comparison.Over.of_eq {g : Setup} {k : Comparison g} {s s' : Session}
    (hover : k.Over s) (h : s'.aborted = s.aborted) : k.Over s' := by
  obtain ⟨a, ha, hends⟩ := hover
  exact ⟨a, h.trans ha, hends⟩

theorem Comparison.Over.of_acts {g : Setup} {k : Comparison g} {s s' : Session}
    (hover : k.Over s) (h : s.Acts g false s') : k.Over s' := by
  obtain ⟨a, ha, hends⟩ := hover
  exact ⟨a, h.aborted ha, hends⟩

namespace Session

variable {g : Setup} {k : Comparison g} {s s' t : Session}

namespace Abreast

variable {γ δ : Type} [Comparable γ] [Comparable δ] {x x' y y' : Option γ} {z w : γ}

theorem some (h : Alike k z w) (hover : k.Over s → k.Over (state z)) :
    s.Abreast k (some z) (some w) := by
  refine ⟨fun z' hz' => ?_⟩
  cases hz'
  by_cases hz : k.Over (state z)
  · exact ⟨w, h, .inl hz⟩
  · exact ⟨w, h, .inr ⟨fun hs => hz (hover hs), rfl⟩⟩

/-- The results are twins, and acts lead to the first one. -/
theorem acts (h : Alike k z w) (hacts : s.Acts g false (state z)) :
    s.Abreast k (.some z) (.some w) :=
  .some h fun hover => hover.of_acts hacts

/-- The results are twins, and the first one has no other fatal error. -/
theorem same (h : Alike k z w) (haborted : (state z).aborted = s.aborted) :
    s.Abreast k (.some z) (.some w) :=
  .some h fun hover => hover.of_eq haborted

theorem none : s.Abreast k none y := ⟨fun _ hz => nomatch hz⟩

/-- A computation may begin with acts. -/
theorem behind (hacts : s.Acts g false s') (h : s'.Abreast k x y) : s.Abreast k x y := by
  refine ⟨fun z hz => ?_⟩
  obtain ⟨w, halike, hresult⟩ := h.exists_twin z hz
  exact ⟨w, halike, hresult.imp_right fun ⟨hs', hy⟩ => ⟨fun hs => hs' (hs.of_acts hacts), hy⟩⟩

theorem bind {f f' : γ → Option δ} (h : s.Abreast k x y)
    (hf : ∀ z w, Alike k z w → (state z).Abreast k (f z) (f' w)) :
    s.Abreast k (x.bind f) (y.bind f') := by
  refine ⟨fun z hz => ?_⟩
  obtain ⟨z₁, hz₁, hz⟩ := Option.bind_eq_some_iff.1 hz
  obtain ⟨w₁, halike₁, hresult₁⟩ := h.exists_twin z₁ hz₁
  obtain ⟨w, halike, hresult⟩ := (hf z₁ w₁ halike₁).exists_twin z hz
  refine ⟨w, halike, ?_⟩
  rcases hresult with hover | ⟨hnot, hw⟩
  · exact .inl hover
  · rcases hresult₁ with hover | ⟨hs, hw₁⟩
    · exact absurd hover hnot
    · exact .inr ⟨hs, Option.bind_eq_some_iff.2 ⟨w₁, hw₁, hw⟩⟩

theorem map {f f' : γ → δ} (h : s.Abreast k x y)
    (hf : ∀ z w, Alike k z w → Alike k (f z) (f' w))
    (haborted : ∀ z, (state (f z)).aborted = (state z).aborted) :
    s.Abreast k (x.map f) (y.map f') := by
  rw [Option.map_eq_bind, Option.map_eq_bind]
  exact h.bind fun z w hzw => .same (hf z w hzw) (haborted z)

theorem ite {p : Prop} [Decidable p] (h : s.Abreast k x y) (h' : s.Abreast k x' y') :
    s.Abreast k (if p then x else x') (if p then y else y') := by
  split
  · exact h
  · exact h'

end Abreast

namespace Twins

variable {run run' : Runner} {hook hook' : HookRunner}

section
variable (h : s.Twins k t)
include h

/-! ## Grouping -/

theorem closeCurrent (kind : Kind) (c : Grouping) :
    Alike k (s.closeCurrent kind c) (t.closeCurrent kind c) := by
  unfold Session.closeCurrent
  cases c.current with
  | none => exact .pair h
  | some m => exact .pair (h.commitAs m kind)

theorem foldRounds (kind : Kind) (rounds : Nat) (c : Grouping) :
    Alike k (s.foldRounds g kind rounds c) (t.foldRounds k.other kind rounds c) := by
  induction rounds generalizing c s t with
  | zero => exact .pair h
  | succ rounds ih =>
    have hfan : k.other.limits.fanOut = g.limits.fanOut := rfl
    simp only [Session.foldRounds, hfan]
    cases (c.latestRun.take g.limits.fanOut).getLast? with
    | none => exact .pair h
    | some oldest =>
      obtain ⟨parent, u, v, hu, hv, hwrap⟩ := (h.wrap oldest.marker).exists_eq
      dsimp only
      rw [hu, hv]
      split
      · exact .pair h
      · exact ih ((hwrap.commitAs parent kind).note _) _

theorem foldFull (kind : Kind) (c : Grouping) :
    Alike k (s.foldFull g kind c) (t.foldFull k.other kind c) :=
  h.foldRounds kind c.chunks.length c

theorem foldIfFull (kind : Kind) (c : Grouping) :
    Alike k (s.foldIfFull g kind c) (t.foldIfFull k.other kind c) := by
  have hfan : k.other.limits.fanOut = g.limits.fanOut := rfl
  obtain ⟨c', u, v, hu, hv, huv⟩ := (h.closeCurrent kind c).exists_eq
  simp only [Session.foldIfFull, hu, hv, hfan]
  split
  · exact huv.foldFull kind c'
  · exact .pair h

theorem swallowedRegion (pair : Delimiters) :
    Alike k (s.swallowedRegion g pair) (t.swallowedRegion k.other pair) := by
  have hbefore : k.other.before? t.position = g.before? s.position := by
    rw [h.position]
    rfl
  rw [swallowedRegion_eq, swallowedRegion_eq, hbefore, h.lastCommitted?]
  cases g.before? s.position with
  | none => exact .pair h
  | some i =>
    cases s.log.lastCommitted? with
    | none => exact .pair h
    | some m =>
      obtain ⟨outer, u, v, hu, hv, hwrap⟩ := (h.wrap m).exists_eq
      have hkind : k.other.source.kind? i = g.source.kind? i := rfl
      simp only [h.kind?, h.start, hu, hv, hkind]
      split
      · exact .pair hwrap
      · exact .pair h

theorem firstRegions (pair? : Option Delimiters) :
    Alike k (s.firstRegions g pair?) (t.firstRegions k.other pair?) := by
  unfold Session.firstRegions
  cases pair? with
  | none => exact .pair h
  | some pair => exact h.swallowedRegion pair

theorem dropOpen (c : Grouping) : (s.dropOpen c).Twins k (t.dropOpen c) := by
  have hregions (regions : List Region) {u v : Session} (huv : u.Twins k v) :
      (regions.foldl (fun s region => s.drop region.marker) u).Twins k
        (regions.foldl (fun s region => s.drop region.marker) v) := by
    induction regions generalizing u v with
    | nil => exact huv
    | cons region regions ih => exact ih (huv.drop region.marker)
  unfold Session.dropOpen
  cases c.current with
  | none => exact hregions _ h
  | some m => exact hregions _ (h.drop m)

theorem openCurrent (c : Grouping) : Alike k (s.openCurrent g c) (t.openCurrent k.other c) := by
  obtain ⟨m, u, v, hu, hv, hopen⟩ := h.openMarker.exists_eq
  unfold Session.openCurrent
  cases c.current with
  | none =>
    simp only [hu, hv]
    exact .pair hopen
  | some m => exact .pair h

theorem openRegion (pair : Delimiters) (token : Option Kind) (c : Grouping) :
    Alike k (s.openRegion g pair token c) (t.openRegion k.other pair token c) := by
  obtain ⟨m, u, v, hu, hv, hopen⟩ := h.openMarker.exists_eq
  unfold Session.openRegion
  rw [hu, hv]
  split
  · exact .pair hopen
  · exact .pair h

theorem closeRegion (kind : Kind) (pair : Delimiters) (token : Option Kind) (c : Grouping) :
    Alike k (s.closeRegion g kind pair token c) (t.closeRegion k.other kind pair token c) := by
  unfold Session.closeRegion
  split
  · cases c.regions with
    | nil => exact .pair h
    | cons region regions => exact (h.commitAs region.marker kind).foldFull kind _
  · exact .pair h

end

section
variable (hrun : Runner.Abreast k run run') (h : s.Twins k t)
include hrun h

theorem itemStep (level : Nat) (item eatMore : RuleRef) (c : Grouping) :
    s.Abreast k (s.itemStep g run level item eatMore c)
      (t.itemStep k.other run' level item eatMore c) := by
  have hacts : s.Acts g false (s.openCurrent g c).2 := .openCurrent g c s
  obtain ⟨c', u, v, hu, hv, huv⟩ := (h.openCurrent c).exists_eq
  rw [hu] at hacts
  rw [itemStep_eq, itemStep_eq, hu, hv]
  refine .behind hacts (.bind (.ite (hrun _ _ _ _ huv) (.some (.pair huv) id)) ?_)
  rintro ⟨_, u⟩ ⟨more, v⟩ ⟨rfl, huv⟩
  refine .bind (.ite (hrun _ _ _ _ huv) (.some (.pair huv) id)) ?_
  rintro ⟨_, u⟩ ⟨parsed, v⟩ ⟨rfl, huv⟩
  exact .ite (.some (.pair (.pair huv)) id) (.some (.pair (.pair huv)) id)

theorem delimiterStep (level : Nat) (kind : Kind) (pair : Delimiters) (c : Grouping) :
    s.Abreast k (s.delimiterStep g run level kind pair c)
      (t.delimiterStep k.other run' level kind pair c) := by
  rw [delimiterStep_eq, delimiterStep_eq, h.kindHere?]
  generalize s.kindHere? g = token
  have hacts₁ : s.Acts g false (s.closeCurrent kind c).2 := .closeCurrent kind c s
  obtain ⟨c₁, u₁, v₁, hu₁, hv₁, h₁⟩ := (h.closeCurrent kind c).exists_eq
  rw [hu₁] at hacts₁
  have hacts₂ : u₁.Acts g false (u₁.openRegion g pair token c₁).2 := .openRegion pair token c₁ u₁
  obtain ⟨c₂, u₂, v₂, hu₂, hv₂, h₂⟩ := (h₁.openRegion pair token c₁).exists_eq
  rw [hu₂] at hacts₂
  have hacts₃ : u₂.Acts g false (u₂.foldFull g kind c₂).2 := .foldFull g kind c₂ u₂
  obtain ⟨c₃, u₃, v₃, hu₃, hv₃, h₃⟩ := (h₂.foldFull kind c₂).exists_eq
  rw [hu₃] at hacts₃
  simp only [hu₁, hv₁, hu₂, hv₂, hu₃, hv₃]
  refine .behind ((hacts₁.trans hacts₂).trans hacts₃) (.bind (hrun _ _ _ _ h₃) ?_)
  rintro ⟨_, u⟩ ⟨_, v⟩ ⟨-, huv⟩
  exact .acts (huv.closeRegion kind pair token c₃) (.closeRegion kind pair token c₃ u)

theorem roundStep (level : Nat) (kind : Kind) (pair? : Option Delimiters) (item eatMore : RuleRef)
    (c : Grouping) :
    s.Abreast k (s.roundStep g run level kind pair? item eatMore c)
      (t.roundStep k.other run' level kind pair? item eatMore c) := by
  unfold Session.roundStep
  rw [h.kindHere?]
  generalize Option.filter _ pair? = delimiter?
  cases delimiter? with
  | none => exact h.itemStep hrun level item eatMore c
  | some pair => exact (h.delimiterStep hrun level kind pair c).map (fun _ _ h => .pair h) fun _ => rfl

theorem groupItems (level : Nat) (kind : Kind) (pair? : Option Delimiters) (item eatMore : RuleRef)
    (rounds : Nat) (c : Grouping) :
    s.Abreast k (s.groupItems g run level kind pair? item eatMore rounds c)
      (t.groupItems k.other run' level kind pair? item eatMore rounds c) := by
  induction rounds generalizing c s t with
  | zero => exact .none
  | succ rounds ih =>
    rw [groupItems_succ, groupItems_succ]
    refine .behind (.seek g s) (.bind (h.toSignificant.roundStep hrun ..) ?_)
    rintro ⟨_, _, u⟩ ⟨parsed, c₁, v⟩ ⟨rfl, rfl, huv⟩
    dsimp only
    refine .ite (.some (.pair huv) id) ?_
    have hfold : u.Acts g false (u.foldIfFull g kind c₁).2 := .foldIfFull g kind c₁ u
    obtain ⟨c₂, u', v', hu, hv, huv'⟩ := (huv.foldIfFull kind c₁).exists_eq
    rw [hu] at hfold
    have hguard : u'.Acts g false (u'.guardProgress g "parse_as_tree" s.position).2 :=
      .guardProgress ..
    have hprogress := huv'.guardProgress "parse_as_tree" s.position
    rw [hu, hv, h.position]
    obtain ⟨goesOn, u₁, v₁, hu₁, hv₁, huv₁⟩ := hprogress.exists_eq
    rw [hu₁] at hguard
    dsimp only
    rw [hu₁, hv₁]
    cases goesOn with
    | true => exact .behind (hfold.trans hguard) (ih huv₁ c₂)
    | false => exact .acts (.pair huv₁) (hfold.trans hguard)

theorem groupRun (rounds level : Nat) (kind : Kind) (minds : Bool) (item eatMore : RuleRef) :
    s.Abreast k (s.groupRun g run rounds level kind minds item eatMore)
      (t.groupRun k.other run' rounds level kind minds item eatMore) := by
  have hpair : k.other.language = g.language := rfl
  rw [groupRun_eq, groupRun_eq, hpair]
  generalize (if minds then g.language.delimiters.head? else none) = pair?
  have hfirst : s.Acts g false (s.firstRegions g pair?).2 := .firstRegions g pair? s
  obtain ⟨regions, u, v, hu, hv, huv⟩ := (h.firstRegions pair?).exists_eq
  rw [hu] at hfirst
  dsimp only
  rw [hu, hv]
  refine .behind hfirst (.bind (huv.groupItems hrun ..) ?_)
  rintro ⟨_, u⟩ ⟨c, v⟩ ⟨rfl, huv⟩
  exact .acts (.pair ((huv.dropOpen c).note _)) ((Acts.dropOpen c u).trans (.still (.note _ rfl)))

end

/-! ## Recovery -/

section
variable (h : s.Twins k t)
include h

theorem dropAny (m? : Option Marker) : (s.dropAny m?).Twins k (t.dropAny m?) := by
  cases m? with
  | none => exact h
  | some m => exact h.drop m

theorem reportFor (frame : Frame) (inner force : Bool) :
    Alike k (s.reportFor g frame inner force) (t.reportFor k.other frame inner force) := by
  obtain ⟨position?, u, v, hu, hv, huv⟩ := (h.report frame.position inner force).exists_eq
  unfold Session.reportFor
  rw [hu, hv]
  cases position? with
  | none => exact .pair (.pair huv)
  | some position => exact .pair (.pair huv)

theorem clearAttempts (frame : Frame) :
    Alike k (s.clearAttempts frame) (t.clearAttempts frame) := by
  have hframes : (if 0 < frame.attemptsBefore then resetCounts t.frames else t.frames) =
      if 0 < frame.attemptsBefore then resetCounts s.frames else s.frames := by
    rw [h.frames]
  exact .pair { h with frames := hframes, attempts := congrArg Attempts.clear h.attempts }

theorem attemptsByName (frame : Frame) (kind : Option Kind) (stays : Bool) :
    Alike k (s.attemptsByName g frame kind stays) (t.attemptsByName k.other frame kind stays) := by
  have hslack : k.other.limits.nameSlack = g.limits.nameSlack := rfl
  unfold Session.attemptsByName
  cases frame.name with
  | none => exact .pair h
  | some name =>
    dsimp only
    have hstands (slack : Nat) : (!stays && t.position == frame.position &&
        frame.attemptAt == some frame.position &&
        decide (frame.attemptsBefore + slack ≤ t.attempts.count)) =
        (!stays && s.position == frame.position && frame.attemptAt == some frame.position &&
          decide (frame.attemptsBefore + slack ≤ s.attempts.count)) := by
      rw [h.position, h.attempts]
    have hpush : (t.attempts.truncate frame.attemptsBefore).push t.lookahead.positive
        ⟨t.position, .name name⟩ = (s.attempts.truncate frame.attemptsBefore).push
          s.lookahead.positive ⟨s.position, .name name⟩ := by
      rw [h.attempts, h.lookahead, h.position]
    have hframe : (if t.lookahead.positive then frame.recordAttempt t.position else frame) =
        if s.lookahead.positive then frame.recordAttempt s.position else frame := by
      rw [h.lookahead, h.position]
    rw [hslack, hframe, hstands]
    generalize (if kind.isSome then g.limits.nameSlack else 0) = slack
    split
    · exact ⟨rfl, { h with attempts := hpush }⟩
    · exact .pair h

theorem reportPinned (frame : Frame) (kind : Option Kind) (initial lastError : Nat) :
    Alike k (s.reportPinned g frame kind initial lastError)
      (t.reportPinned k.other frame kind initial lastError) := by
  unfold Session.reportPinned
  split
  · exact (h.reportFor frame (kind.isSome && !frame.modifiers.upper) false).2
  · split <;> exact .pair h

end

section
variable (hrun : Runner.Abreast k run run') (h : s.Twins k t)
include hrun h

theorem reportSwallowing (level : Nat) :
    s.Abreast k (s.reportSwallowing g run level) (t.reportSwallowing k.other run' level) := by
  have h' := h.toSignificant
  unfold Session.reportSwallowing
  rw [h.isAborted]
  split
  · exact .some (.pair h) id
  · next haborted =>
    have herror := h'.errorHere
    dsimp only
    rw [h'.position]
    generalize hthis : (s.toSignificant g).errorHere g _ = error at herror
    generalize (t.toSignificant k.other).errorHere k.other _ = error' at herror
    have hnoted := h'.reported herror (s.toSignificant g).position true false
    have hsome : (some error').map k.error = (some error).map k.error := congrArg some herror
    have hacts : s.Acts g false (((s.toSignificant g).note
        (.errorReported (s.toSignificant g).position error true false)).openMarker g).2 := by
      rw [← hthis]
      refine .trans (.trans (.seek g s) ?_) (.openMarker _)
      exact .reported true false _ (Bool.eq_false_iff.2 haborted) (significant_significant g s.position)
    obtain ⟨m, u, v, hu, hv, hopen⟩ := hnoted.openMarker.exists_eq
    rw [hu] at hacts
    rw [hu, hv]
    refine .behind hacts (.bind (hrun _ _ _ _ hopen) ?_)
    rintro ⟨_, u⟩ ⟨_, v⟩ ⟨-, huv⟩
    have hend := (huv.commit m .error hsome).toSignificant
    exact .same ⟨congrArg some hend.position, hend⟩ (Smooth.commit u m .error (some error)).aborted

theorem reportSwallowingFor (frame : Frame) :
    s.Abreast k (s.reportSwallowingFor g run frame) (t.reportSwallowingFor k.other run' frame) := by
  unfold Session.reportSwallowingFor
  refine .bind (h.reportSwallowing hrun (frame.level + 1)) ?_
  rintro ⟨_, u⟩ ⟨position?, v⟩ ⟨rfl, huv⟩
  cases position? with
  | none => exact .some (.pair (.pair huv)) id
  | some position => exact .some (.pair (.pair huv)) id

theorem skipRun (eatMore : RuleRef) (name : String) (level lastError rounds : Nat) (more : Bool)
    (depth : Int) :
    s.Abreast k (s.skipRun g run eatMore name level lastError rounds more depth)
      (t.skipRun k.other run' eatMore name level lastError rounds more depth) := by
  induction rounds generalizing more depth s t with
  | zero => exact .none
  | succ rounds ih =>
    have h' := h.toSignificant
    have hstep (kind? : Option Kind) : depthStep k.other kind? = depthStep g kind? := rfl
    simp only [Session.skipRun]
    rw [h.position, h'.position, h'.kindHere?, hstep]
    refine .ite ?_ (.some (.pair h) id)
    refine .behind (.seek g s) (.ite (.some (.pair h') id) ?_)
    refine .bind (hrun _ _ _ _ h') ?_
    rintro ⟨_, u⟩ ⟨_, v⟩ ⟨-, huv⟩
    dsimp only
    rw [huv.position, huv.toSignificant.offset]
    refine .ite ?_ (.bind (hrun _ _ _ _ huv) ?_)
    · refine .acts (.pair (huv.toSignificant.abort _)) (.trans (.seek g u) (.abort _ _ ?_))
      exact fun _ he => by cases he
    · rintro ⟨_, u⟩ ⟨more, v⟩ ⟨rfl, huv⟩
      exact ih huv more _

theorem reportSkipped (rounds : Nat) (frame : Frame) (kind : Option Kind) (result pinned : Bool)
    (eatMore : RuleRef) (initial : Nat) (eatsFirst more : Bool) :
    s.Abreast k
      (s.reportSkipped g run rounds frame kind result pinned eatMore initial eatsFirst more)
      (t.reportSkipped k.other run' rounds frame kind result pinned eatMore initial eatsFirst
        more) := by
  have hfor (inner force : Bool) : s.Abreast k (some (s.reportFor g frame inner force))
      (some (t.reportFor k.other frame inner force)) :=
    .same (h.reportFor frame inner force) (Smooth.reportFor g s frame inner force).aborted
  simp only [Session.reportSkipped, Option.bind_eq_bind, ← bind_ite]
  rw [h.position]
  generalize (frame.errorAt == some initial || (!result && frame.hasErrorFrom frame.position)) =
    reported
  refine .ite ?_ (.ite (hfor ..) (.ite (hfor ..) (.some (.pair (.pair h)) id)))
  -- what is skipped next is reported, or stepped over if it has been; the rest is grouped
  refine .bind (.ite (h.reportSwallowingFor hrun frame) (.ite ?_ (.some (.pair (.pair h)) id))) ?_
  · exact (hrun _ _ _ _ h).map (fun _ _ hx => .pair (.pair hx.2)) fun _ => rfl
  · rintro ⟨_, _, u⟩ ⟨reported, frame₁, v⟩ ⟨rfl, rfl, huv⟩
    dsimp only
    rw [huv.isAborted]
    refine .ite (.some (.pair (.pair huv)) id) (.bind (hrun _ _ _ _ huv) ?_)
    rintro ⟨_, u⟩ ⟨again, v⟩ ⟨rfl, huv⟩
    refine .ite (.bind (huv.groupRun hrun ..) ?_) (.some (.pair (.pair huv)) id)
    rintro ⟨_, u⟩ ⟨_, v⟩ ⟨-, huv⟩
    exact .some (.pair (.pair huv)) id

theorem recover (rounds : Nat) (frame : Frame) (kind : Option Kind) (result pinned : Bool)
    (eatMore : RuleRef) (initial lastError : Nat) :
    s.Abreast k (s.recover g run rounds frame kind result pinned eatMore initial lastError)
      (t.recover k.other run' rounds frame kind result pinned eatMore initial lastError) := by
  have hbegin : ({ s with quiet := true }.toSignificant g).Twins k
      ({ t with quiet := true }.toSignificant k.other) := (h.setQuiet true).toSignificant
  have hacts : s.Acts g false ({ s with quiet := true }.toSignificant g) :=
    .still ((Still.quiet s true).trans (.toSignificant _))
  have hend := hbegin.isAtEnd
  have hwidens : k.other.widensAlways = g.widensAlways := rfl
  simp only [Session.recover, Option.bind_eq_bind, ← bind_ite]
  generalize { s with quiet := true }.toSignificant g = u at hbegin hend hacts
  generalize { t with quiet := true }.toSignificant k.other = v at hbegin hend
  rw [hend, hwidens]
  refine .behind hacts (.bind (.ite (.some (.pair hbegin) id) (hrun _ _ _ _ hbegin)) ?_)
  rintro ⟨_, u⟩ ⟨eatsFirst, v⟩ ⟨rfl, huv⟩
  dsimp only
  rw [huv.lastWidenable?]
  generalize (if (pinned || result) && (g.widensAlways || kind.isSome) && eatsFirst then
    u.log.lastWidenable? else none) = last
  refine .bind (huv.skipRun hrun ..) ?_
  rintro ⟨_, u⟩ ⟨more, v⟩ ⟨rfl, huv⟩
  dsimp only
  rw [huv.position]
  refine .behind (.still (.note u rfl)) (.bind ((huv.note _).reportSkipped hrun ..) ?_)
  rintro ⟨_, _, u⟩ ⟨reported, frame₁, v⟩ ⟨rfl, rfl, huv⟩
  have hwide := (huv.widenOver last frame₁.position).setQuiet false
  have haborted := (Smooth.widenOver u last frame₁.position).aborted
  exact .ite (.same (hwide.clearAttempts frame₁) haborted) (.same (.pair hwide) haborted)

end

/-! ## Entering -/

section
variable (h : s.Twins k t)
include h

theorem newFrame (level : Nat) (modifiers : Modifiers) (kind : Option Kind) (name : Option String) :
    t.newFrame k.other level modifiers kind name = s.newFrame g level modifiers kind name := by
  unfold Session.newFrame
  rw [h.offset, h.position, h.attempts, h.frames, h.lastCommitted?]

theorem openFrame (level : Nat) (modifiers : Modifiers) (kind : Option Kind)
    (name : Option String) :
    (s.openFrame g level modifiers kind name).Twins k
      (t.openFrame k.other level modifiers kind name) := by
  have hbegin : ({ s with level := s.level + 1 }.toSignificant g).Twins k
      ({ t with level := t.level + 1 }.toSignificant k.other) := by
    rw [h.level]
    exact (h.setLevel (s.level + 1)).toSignificant
  have hput (frame : Frame) {u v : Session} (huv : u.Twins k v) :
      { u.note (.sectionEntered frame) with frames := frame :: u.frames }.Twins k
        { v.note (.sectionEntered frame) with frames := frame :: v.frames } := by
    rw [huv.frames]
    exact (huv.note _).setFrames _
  rw [openFrame_eq, openFrame_eq]
  generalize { s with level := s.level + 1 }.toSignificant g = u at hbegin
  generalize { t with level := t.level + 1 }.toSignificant k.other = v at hbegin
  dsimp only
  rw [hbegin.newFrame, hbegin.lookahead]
  have hlook := hbegin.setLookahead (u.lookahead.enter modifiers)
  split
  · exact hput _ hlook
  · exact hput _ (hlook.abort _)

theorem enter (level : Nat) (modifiers : Modifiers) (kind : Option Kind) (name : Option String) :
    Alike k (s.enter g level modifiers kind name) (t.enter k.other level modifiers kind name) := by
  obtain ⟨m, u, v, hu, hv, huv⟩ := h.reportAgain.openMarker.exists_eq
  unfold Session.enter
  rw [hu, hv]
  exact .pair (huv.openFrame level modifiers kind name)

theorem enterSimple : Alike k (s.enterSimple g) (t.enterSimple k.other) := by
  have hagain := h.reportAgain
  unfold Session.enterSimple
  dsimp only
  rw [hagain.level]
  exact (hagain.setLevel _).openMarker

/-! ## Shaping -/

theorem absorbable? (frame : Frame) (kind : Kind) :
    t.absorbable? k.other frame kind = s.absorbable? g frame kind := by
  unfold Session.absorbable?
  simp only [h.lastCommitted?, h.kind?, h.start, h.stop, h.position]
  rfl

theorem absorbChild (frame : Frame) (kind : Kind) :
    Alike k (s.absorbChild g frame kind) (t.absorbChild k.other frame kind) := by
  unfold Session.absorbChild
  rw [h.absorbable?]
  split
  · next child _ =>
    rw [h.kind?]
    exact .pair ((h.note _).drop child)
  · exact .pair h

theorem placeNode (frame : Frame) (m : Marker) (kind : Kind) :
    (s.placeNode g frame m kind).Twins k (t.placeNode k.other frame m kind) := by
  unfold Session.placeNode
  rw [h.frames]
  split
  · exact (h.drop m).setFrames _
  · cases frame.leftNode with
    | none =>
      dsimp only
      split
      · exact h.toSignificant.commitAs m kind
      · exact h.commitAs m kind
    | some left =>
      dsimp only
      split
      · exact (h.commitAs m kind).widen left
      · obtain ⟨outer, u, v, hu, hv, hwrap⟩ := ((h.drop m).wrap left).exists_eq
        rw [hu, hv]
        exact hwrap.commitAs outer kind

theorem commitShaped (frame : Frame) (m : Marker) (kind : Kind) :
    (s.commitShaped g frame m kind).Twins k (t.commitShaped k.other frame m kind) := by
  obtain ⟨kind', u, v, hu, hv, huv⟩ := (h.absorbChild frame kind).exists_eq
  rw [commitShaped_eq, commitShaped_eq, hu, hv]
  exact huv.placeNode frame m kind'

theorem eraseSection (frame : Frame) (m : Marker) :
    Alike k (s.eraseSection frame m) (t.eraseSection frame m) := by
  unfold Session.eraseSection
  rw [h.start, h.frames]
  exact .pair (h.rollback m)

theorem endLookahead (frame : Frame) (m : Marker) (keeps : Bool) :
    Alike k (s.endLookahead g frame m keeps) (t.endLookahead k.other frame m keeps) := by
  have hend (m? : Option Marker) (resets : Bool) (frame : Frame) {u v : Session}
      (huv : u.Twins k v) : Alike k
        (m?, if resets then { frame with attemptAt := some u.position } else frame, u)
        (m?, if resets then { frame with attemptAt := some v.position } else frame, v) := by
    rw [huv.position]
    exact .pair (.pair huv)
  obtain ⟨frame₁, u, v, hu, hv, huv⟩ := (h.eraseSection frame m).exists_eq
  have hleft := huv.setLookahead (u.lookahead.leave frame₁.modifiers)
  unfold Session.endLookahead
  rw [hu, hv, h.quiet, h.position]
  dsimp only
  rw [huv.lookahead]
  split
  · obtain ⟨m, u, v, hu, hv, hopen⟩ := hleft.openMarker.exists_eq
    rw [hu, hv]
    exact hend (some m) _ frame₁ hopen
  · exact hend none _ frame₁ hleft

theorem leftMarker (frame : Frame) (m : Marker) (keeps : Bool) :
    Alike k (s.leftMarker g frame m keeps) (t.leftMarker k.other frame m keeps) := by
  unfold Session.leftMarker
  split
  · exact h.endLookahead frame m keeps
  · exact .pair (.pair h)

theorem settleMarker (frame : Frame) (m? : Option Marker) (kind : Option Kind) (stays : Bool) :
    Alike k (s.settleMarker g frame m? kind stays) (t.settleMarker k.other frame m? kind stays) := by
  have hbare (left : Marker) :
      (if frame.modifiers.leftInner then (s.dropAny m?).widen left else s.dropAny m?).Twins k
        (if frame.modifiers.leftInner then (t.dropAny m?).widen left else t.dropAny m?) := by
    split
    · exact (h.dropAny m?).widen left
    · exact h.dropAny m?
  unfold Session.settleMarker
  split
  · cases kind with
    | none =>
      cases frame.leftNode with
      | none => exact .pair (h.dropAny m?)
      | some left => exact .pair (hbare left)
    | some kind =>
      cases m? with
      | none =>
        cases frame.leftNode with
        | none => exact .pair (h.dropAny none)
        | some left => exact .pair (hbare left)
      | some m => exact .pair (h.commitShaped frame m kind)
  · cases m? with
    | none => exact .pair h
    | some m => exact h.eraseSection frame m

theorem shape (frame : Frame) (frames : List Frame) (m : Marker) (kind : Option Kind)
    (result pinned : Bool) :
    Alike k (s.shape g frame frames m kind result pinned)
      (t.shape k.other frame frames m kind result pinned) := by
  have hnoted := (h.setFrames frames).note (.sectionLeft frame result pinned)
  obtain ⟨m?, _, _, hu, hv, hleft⟩ :=
    (hnoted.leftMarker frame m ((frame.kind <|> kind).isSome && (result || pinned))).exists_eq
  obtain ⟨frame₁, u, v, rfl, rfl, huv⟩ := hleft.exists_eq
  unfold Session.shape
  rw [shapeSection_eq, shapeSection_eq, hu, hv]
  exact huv.settleMarker frame₁ m? _ _

theorem closeLevel : s.closeLevel.Twins k t.closeLevel := by
  unfold Session.closeLevel
  rw [h.level]
  exact h.setLevel _

theorem leaveUnbalanced (level found : Nat) (m : Marker) :
    (s.leaveUnbalanced g level found m).Twins k (t.leaveUnbalanced k.other level found m) := by
  have h' := h.toSignificant
  unfold Session.leaveUnbalanced
  dsimp only
  rw [h'.offset]
  exact ((h'.abort _).rollback m).closeLevel

theorem closeMarker (m : Marker) (kind : Option Kind) (result : Bool) :
    (s.closeMarker m kind result).Twins k (t.closeMarker m kind result) := by
  unfold Session.closeMarker
  rw [h.start, h.frames]
  split
  · cases kind with
    | none => exact h.drop m
    | some kind => exact h.commitAs m kind
  · exact (h.modifyFrame _).rollback m

end

/-! ## Leaving -/

theorem settleFrame (hrun : Runner.Abreast k run run') (h : s.Twins k t) (rounds : Nat)
    (frame : Frame) (kind : Option Kind) (result pinned : Bool) (condition : Option RuleRef)
    (initial lastError : Nat) :
    s.Abreast k
      (s.settleFrame g run rounds frame kind result pinned condition initial lastError)
      (t.settleFrame k.other run' rounds frame kind result pinned condition initial lastError) := by
  unfold Session.settleFrame
  cases condition with
  | none =>
    dsimp only
    split
    · exact .same (h.reportPinned frame kind initial lastError) (Smooth.reportPinned ..).aborted
    · exact .some (.pair h) id
  | some eatMore => exact h.recover hrun rounds frame kind result pinned eatMore initial lastError

theorem settleErrors (hrun : Runner.Abreast k run run') (h : s.Twins k t) (rounds : Nat)
    (frame : Frame) (kind : Option Kind) (result pinned : Bool) (eatMore : Option RuleRef) :
    s.Abreast k (s.settleErrors g run rounds frame kind result pinned eatMore)
      (t.settleErrors k.other run' rounds frame kind result pinned eatMore) := by
  have hacts : s.Acts g false (s.attemptsByName g frame kind (result || pinned)).2 :=
    .still (.attemptsByName s frame kind (result || pinned))
  obtain ⟨frame₁, u, v, hu, hv, huv⟩ := (h.attemptsByName frame kind (result || pinned)).exists_eq
  rw [hu] at hacts
  rw [settleErrors_eq, settleErrors_eq, hu, hv]
  dsimp only
  rw [huv.quiet, huv.isAborted, h.position]
  refine .behind hacts (.bind (huv.settleFrame hrun ..) ?_)
  rintro ⟨_, u⟩ ⟨frame₂, v⟩ ⟨rfl, huv⟩
  exact .same (huv.modifyFrame _) rfl

theorem runHooksFrom (hhook : HookRunner.Abreast k hook hook') (h : s.Twins k t) (rounds : Nat)
    (m? : Option Marker) :
    s.Abreast k (s.runHooksFrom hook rounds m?) (t.runHooksFrom hook' rounds m?) := by
  induction rounds generalizing m? s t with
  | zero => exact .none
  | succ rounds ih =>
    simp only [Session.runHooksFrom]
    rw [h.hooks, h.level]
    cases hhooks : s.hooks with
    | nil => exact .some h id
    | cons first hooks =>
      have hallowed := h.allowed
      rw [hhooks] at hallowed
      obtain ⟨hfirst, hallowed⟩ := List.forall_mem_cons.1 hallowed
      have hrest : { s with hooks }.Twins k { t with hooks, level := s.level } :=
        { h with hooks := rfl, allowed := hallowed, level := rfl }
      have hacts : s.Acts g false { s with hooks } := .still (.hooks s hooks)
      dsimp only
      refine .behind hacts (.ite (.some h id) (.ite (.bind (hhook _ _ _ _ hfirst hrest) ?_) ?_))
      · rintro ⟨_, u⟩ ⟨m?, v⟩ ⟨rfl, huv⟩
        exact ih huv m?
      · exact ih hrest m?

theorem runLevelHooks (hhook : HookRunner.Abreast k hook hook') (h : s.Twins k t) (rounds : Nat)
    (kind : Option Kind) :
    s.Abreast k (s.runLevelHooks g hook rounds kind) (t.runLevelHooks k.other hook' rounds kind) := by
  have h' := h.toSignificant
  unfold Session.runLevelHooks
  rw [h.hooks, h.lastCommitted?]
  refine .ite (.some h id) ?_
  cases kind with
  | none => exact h.runHooksFrom hhook rounds none
  | some kind =>
    cases s.log.lastCommitted? with
    | none =>
      have hname : k.other.language.nameOf kind = g.language.nameOf kind := rfl
      dsimp only
      rw [h'.offset, hname]
      refine .behind (.trans (.seek g s) (.abort _ _ ?_)) ((h'.abort _).runHooksFrom hhook rounds _)
      exact fun _ he => nomatch he
    | some m => exact h.runHooksFrom hhook rounds (some m)

/-- A section is left alike. -/
theorem leave (hrun : Runner.Abreast k run run') (hhook : HookRunner.Abreast k hook hook')
    (h : s.Twins k t) (rounds level : Nat) (m : Marker) (kind : Option Kind) (result pinned : Bool)
    (eatMore : Option RuleRef) :
    s.Abreast k (s.leave g run hook rounds level m kind result pinned eatMore)
      (t.leave k.other run' hook' rounds level m kind result pinned eatMore) := by
  have hunbalanced (found : Nat) {u v : Session} (huv : u.Twins k v) :
      u.Abreast k (some (u.leaveUnbalanced g level found m))
        (some (v.leaveUnbalanced k.other level found m)) := by
    refine .acts (huv.leaveUnbalanced level found m) (.trans ?_ (.still (.level _ _)))
    refine .trans (.trans (.seek g u) (.abort _ _ ?_)) (.rollback m _)
    exact fun _ he => nomatch he
  cases hframes : s.frames with
  | nil =>
    have hframes' : t.frames = [] := h.frames.trans hframes
    unfold Session.leave
    simp only [hframes, hframes']
    rw [h.level]
    exact hunbalanced s.level h
  | cons frame frames =>
    have hframes' : t.frames = frame :: frames := h.frames.trans hframes
    by_cases hlevel : frame.level = level
    · have hacts : s.Acts g false (s.shape g frame frames m kind result pinned).2 :=
        .shape hframes kind result pinned
      obtain ⟨frame₁, u, v, hu, hv, huv⟩ :=
        (h.shape frame frames m kind result pinned).exists_eq
      rw [hu] at hacts
      rw [leave_eq hframes hlevel, leave_eq hframes' hlevel, hu, hv]
      refine .behind hacts (.bind (huv.settleErrors hrun ..) fun u v huv => ?_)
      exact .bind (huv.runLevelHooks hhook ..) fun u v huv => .same huv.closeLevel rfl
    · have hacts : s.Acts g false { s with frames } := by
        have hlost : s.Acts g false { s with frames := s.frames.tail } := .lose s rfl
        rwa [hframes] at hlost
      unfold Session.leave
      simp only [hframes, hframes']
      rw [if_neg hlevel, if_neg hlevel]
      exact .behind hacts (hunbalanced frame.level (h.setFrames frames))

/-- A section without a frame is left alike. -/
theorem leaveSimple (hhook : HookRunner.Abreast k hook hook') (h : s.Twins k t) (rounds : Nat)
    (m : Marker) (kind : Option Kind) (result : Bool) :
    s.Abreast k (s.leaveSimple g hook rounds m kind result)
      (t.leaveSimple k.other hook' rounds m kind result) := by
  rw [leaveSimple_eq, leaveSimple_eq]
  refine .behind (.closeMarker m kind result s) (.bind
    ((h.closeMarker m kind result).runLevelHooks hhook rounds _) fun u v huv => ?_)
  exact .same huv.closeLevel rfl

end Twins

end Session

end Descent
