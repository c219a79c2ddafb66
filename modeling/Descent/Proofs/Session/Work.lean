import Descent.Proofs.Session.Grouping
import Descent.Session.Section
import Mathlib.Data.List.Forall2

/-!
# The work of a run

What a balanced run does to a session comes down to a few pieces of work. A node is made out of what
happens between the opening of its marker and its commitment, or else the marker is dropped or rolled
back; a node that was committed before is kept in place of a section, widened, or wrapped; and frames
are put up and taken down again. `Work allows g first s s'` says that such work leads from `s` to
`s'`, where `first` is the node that the work begins with, if it begins with one. What every run of
every balanced grammar keeps is shown by induction on it, piece by piece.

What work leaves alone of the sections around it does not depend on the markers
(`Work.surroundings`).
-/

namespace Descent

open Session (Calm)

/-- The frame without what it notes of errors and attempts. -/
def Frame.core (f : Frame) : Frame :=
  { f with errorAt := none, attemptAt := none, attemptsBefore := 0 }

section
variable {f f' : Frame} (h : f'.core = f.core)
include h

theorem Frame.modifiers_eq_of_core : f'.modifiers = f.modifiers := by
  show f'.core.modifiers = f.core.modifiers
  rw [h]

theorem Frame.leftNode_eq_of_core : f'.leftNode = f.leftNode := by
  show f'.core.leftNode = f.core.leftNode
  rw [h]

theorem Frame.position_eq_of_core : f'.position = f.position := by
  show f'.core.position = f.core.position
  rw [h]

theorem Frame.level_eq_of_core : f'.level = f.level := by
  show f'.core.level = f.core.level
  rw [h]

end

namespace Session

/-- A frame is put up, in the context that its section makes. -/
def putFrame (frame : Frame) (s : Session) : Session :=
  { s with frames := frame :: s.frames, lookahead := s.lookahead.enter frame.modifiers }

/-- The innermost frame is taken down, in the context that it leaves. -/
def takeFrame (frame : Frame) (s : Session) : Session :=
  { s with frames := s.frames.tail, lookahead := s.lookahead.leave frame.modifiers }

/-- From `s` to `s'` the position has moved ahead at most, and errors and attempts were noted. -/
structure Steady (s s' : Session) : Prop where
  log : s'.log = s.log
  quiet : s'.quiet = s.quiet
  hooks : s'.hooks = s.hooks
  level : s'.level = s.level
  lookahead : s'.lookahead = s.lookahead
  position : s.position ≤ s'.position
  frames : s'.frames.map Frame.core = s.frames.map Frame.core

namespace Steady

variable {g : Setup} {s s' s₁ s₂ : Session}

theorem refl (s : Session) : Steady s s := ⟨rfl, rfl, rfl, rfl, rfl, Nat.le_refl _, rfl⟩

theorem trans (h : Steady s s₁) (h' : Steady s₁ s₂) : Steady s s₂ :=
  ⟨h'.log.trans h.log, h'.quiet.trans h.quiet, h'.hooks.trans h.hooks, h'.level.trans h.level,
    h'.lookahead.trans h.lookahead, Nat.le_trans h.position h'.position,
    h'.frames.trans h.frames⟩

theorem map_core_modifyHead {f : Frame → Frame} (hf : ∀ x, (f x).core = x.core)
    (fs : List Frame) : (fs.modifyHead f).map Frame.core = fs.map Frame.core := by
  cases fs with
  | nil => rfl
  | cons x fs => simp [hf]

theorem calm (h : Calm s s') : Steady s s' where
  log := h.log
  quiet := h.quiet
  hooks := h.hooks
  level := h.level
  lookahead := h.lookahead
  position := h.position
  frames := by
    obtain ⟨a, ha⟩ := h.frames
    have hf (f : Frame) : { f with attemptAt := a f.attemptAt }.core = f.core := rfl
    rw [ha, map_core_modifyHead hf]

theorem toSignificant (g : Setup) (s : Session) : Steady s (s.toSignificant g) :=
  calm (.toSignificant g s)

theorem note (s : Session) (e : Event) : Steady s (s.note e) := calm (.note s e)

theorem abort (g : Setup) (s : Session) (error : Fatal) : Steady s (s.abort g error) :=
  calm (.abort g s error)

theorem pushFrame (h : Steady s s') (f : Frame) :
    Steady { s with frames := f :: s.frames } { s' with frames := f :: s'.frames } :=
  { h with frames := congrArg (f.core :: ·) h.frames }

theorem modifyFrame (s : Session) {f : Frame → Frame} (hf : ∀ x, (f x).core = x.core) :
    Steady s (s.modifyFrame f) :=
  { refl s with frames := map_core_modifyHead hf s.frames }

end Steady

end Session

/-- Every hook waits for a section that is open. -/
def Session.HooksOpen (s : Session) : Prop := ∀ h ∈ s.hooks, h.level ≤ s.level

open Session (Steady)

/-- Work on a session, as the pieces of a run that leave no section open. -/
inductive Work (allows : Modifiers → Bool) (g : Setup) : Option Marker → Session → Session → Prop
  | steady {s s' : Session} (h : Steady s s') : Work allows g none s s'
  | trans {s s₁ s₂ : Session} (h : Work allows g none s s₁) (h' : Work allows g none s₁ s₂) :
    Work allows g none s s₂
  /-- A new node. -/
  | node {s s₁ : Session} (kind : Kind) (error : Option SyntaxError)
    (h : Work allows g none (s.openMarker g).2 s₁) :
    Work allows g (some (s.openMarker g).1) s (s₁.commit (s.openMarker g).1 kind error)
  /-- What would have become a node stays without one. -/
  | bare {s s₁ : Session} (h : Work allows g none (s.openMarker g).2 s₁) :
    Work allows g none s (s₁.drop (s.openMarker g).1)
  /-- The input is given back. -/
  | undone {s s₁ : Session} (h : Work allows g none (s.openMarker g).2 s₁) :
    Work allows g none s (s₁.rollback (s.openMarker g).1)
  /-- More nodes behind the first one. -/
  | next {s s₁ s₂ : Session} {m m' : Marker} (h : Work allows g (some m) s s₁)
    (h' : Work allows g (some m') s₁ s₂) : Work allows g (some m) s s₂
  | rest {s s₁ s₂ : Session} {m : Marker} (h : Work allows g (some m) s s₁) (h' : Steady s₁ s₂) :
    Work allows g (some m) s s₂
  /-- A node around the first one and all others behind it. -/
  | fold {s s₁ : Session} {m : Marker} (kind : Kind) (h : Work allows g (some m) s s₁) :
    Work allows g (some (s₁.wrap m).1) s ((s₁.wrap m).2.commitAs (s₁.wrap m).1 kind)
  | forget {s s₁ : Session} {m : Marker} (h : Work allows g (some m) s s₁) :
    Work allows g none s s₁
  /-- A section keeps a child in its place. -/
  | absorb {s : Session} {m : Marker} (h : s.log.lastCommitted? = some m) :
    Work allows g none s (s.drop m)
  /-- A node is widened over what happened behind it. -/
  | widen {s s₁ : Session} {m : Marker} (hm : s.log.lastWidenable? = some m)
    (h : Work allows g none s s₁) : Work allows g none s (s₁.widen m)
  /-- A section wraps the node before it. -/
  | wrapLeft {s s₁ : Session} {m : Marker} {modifiers : Modifiers} (kind : Kind)
    (hallows : allows modifiers = true) (hleft : modifiers.takesLeft = true)
    (hm : (s.openMarker g).2.log.lastCommitted? = some m) (h : Work allows g none s s₁) :
    Work allows g none s ((s₁.wrap m).2.commitAs (s₁.wrap m).1 kind)
  /-- A section widens the node before it. -/
  | widenLeft {s s₁ : Session} {m : Marker} {modifiers : Modifiers}
    (hallows : allows modifiers = true) (hleft : modifiers.takesLeft = true)
    (hm : (s.openMarker g).2.log.lastCommitted? = some m) (h : Work allows g none s s₁) :
    Work allows g none s (s₁.widen m)
  | supply {modifiers : Modifiers} (kind : Kind) (s : Session)
    (hallows : allows modifiers = true) (hupper : modifiers.upper = true) :
    Work allows g none s { s with frames := Session.supplyKind kind s.frames }
  | level {s s₁ : Session} (h : Work allows g none { s with level := s.level + 1 } s₁) :
    Work allows g none s s₁.closeLevel
  | framed {s s₁ : Session} (frame : Frame) (hallows : allows frame.modifiers = true)
    (h : Work allows g none (s.putFrame frame) s₁) : Work allows g none s (s₁.takeFrame frame)
  /-- Nothing is reported during a recovery. -/
  | hushed {s s₁ : Session} (hquiet : s.quiet = false)
    (h : Work allows g none { s with quiet := true } s₁) :
    Work allows g none s { s₁ with quiet := false }
  /-- Chunks that mind delimiters. -/
  | delimited {run : Runner} {rounds level : Nat} {kind : Kind} {minds : Bool}
    {item eatMore : RuleRef} {b : Bool} {s s' : Session} (hpairs : g.language.delimiters ≠ [])
    (hrun : ∀ rule level s b s', s.HooksOpen → run rule level s = some (b, s') →
      Work allows g none s s')
    (hhooks : s.HooksOpen)
    (h : s.groupRun g run rounds level kind minds item eatMore = some (b, s')) :
    Work allows g none s s'

/-! ## What is around the work -/

/-- What becomes of a frame while work is done inside its section. A frame without a kind may be
supplied with one if sections are allowed that do so. -/
structure Frame.Becomes (allows : Modifiers → Bool) (f f' : Frame) : Prop where
  core : { f'.core with kind := f.kind } = f.core
  kind : f'.kind = f.kind ∨
    f.kind = none ∧ ∃ modifiers, allows modifiers = true ∧ modifiers.upper = true

namespace Frame.Becomes

variable {allows : Modifiers → Bool} {f f' f'' : Frame}

theorem of_core (h : f'.core = f.core) : Becomes allows f f' where
  core := by rw [h]; rfl
  kind := .inl (show f'.core.kind = f.core.kind by rw [h])

section
variable (h : Becomes allows f f')
include h

theorem level : f'.level = f.level := by
  show { f'.core with kind := f.kind }.level = f.core.level
  rw [h.core]

theorem position : f'.position = f.position := by
  show { f'.core with kind := f.kind }.position = f.core.position
  rw [h.core]

theorem modifiers : f'.modifiers = f.modifiers := by
  show { f'.core with kind := f.kind }.modifiers = f.core.modifiers
  rw [h.core]

theorem leftNode : f'.leftNode = f.leftNode := by
  show { f'.core with kind := f.kind }.leftNode = f.core.leftNode
  rw [h.core]

end

theorem trans (h : Becomes allows f f') (h' : Becomes allows f' f'') : Becomes allows f f'' where
  core := by
    rw [← h.core, ← h'.core]
  kind := by
    rcases h.kind with hk | hk
    · rcases h'.kind with hk' | ⟨hnone, hupper⟩
      · exact .inl (hk'.trans hk)
      · exact .inr ⟨hk ▸ hnone, hupper⟩
    · exact .inr hk

end Frame.Becomes

/-- The sections around are as before, but for what is noted of errors and attempts in their frames
and for kinds that were supplied to them. -/
structure Session.Surroundings (allows : Modifiers → Bool) (s s' : Session) : Prop where
  level : s'.level = s.level
  hooks : s'.hooks = s.hooks
  quiet : s'.quiet = s.quiet
  frames : List.Forall₂ (Frame.Becomes allows) s.frames s'.frames
  lookahead : (s.lookahead.depth = 0 → s.lookahead.positive = true) →
    s'.lookahead = s.lookahead

open Session (Surroundings)

namespace Session.Surroundings

variable {allows : Modifiers → Bool} {g : Setup} {s s' s₁ s₂ : Session} {m : Marker}

theorem forall₂_becomes_trans {fs fs' fs'' : List Frame}
    (h : List.Forall₂ (Frame.Becomes allows) fs fs')
    (h' : List.Forall₂ (Frame.Becomes allows) fs' fs'') :
    List.Forall₂ (Frame.Becomes allows) fs fs'' := by
  induction h generalizing fs'' with
  | nil => exact h'
  | cons hf _ ih =>
    cases h' with
    | cons hf' h' => exact .cons (hf.trans hf') (ih h')

theorem forall₂_becomes_of_core {fs fs' : List Frame}
    (h : fs'.map Frame.core = fs.map Frame.core) :
    List.Forall₂ (Frame.Becomes allows) fs fs' := by
  have hmap : List.Forall₂ Eq (fs.map Frame.core) (fs'.map Frame.core) := by
    rw [List.forall₂_eq_eq_eq]
    exact h.symm
  rw [List.forall₂_map_left_iff, List.forall₂_map_right_iff] at hmap
  exact hmap.imp fun _ _ he => .of_core he.symm

theorem forall₂_becomes_supplyKind {modifiers : Modifiers} (hallows : allows modifiers = true)
    (hupper : modifiers.upper = true) (kind : Kind) (fs : List Frame) :
    List.Forall₂ (Frame.Becomes allows) fs (Session.supplyKind kind fs) := by
  induction fs with
  | nil => exact .nil
  | cons f fs ih =>
    unfold Session.supplyKind
    split
    · next hnone =>
      refine .cons ⟨rfl, .inr ⟨Option.isNone_iff_eq_none.1 hnone, modifiers, hallows, hupper⟩⟩ ?_
      exact forall₂_becomes_of_core rfl
    · exact .cons (.of_core rfl) ih

/-- Nothing but markers, the position and notes has changed. -/
theorem of_eq (hlevel : s'.level = s.level) (hhooks : s'.hooks = s.hooks)
    (hquiet : s'.quiet = s.quiet) (hframes : s'.frames.map Frame.core = s.frames.map Frame.core)
    (hlookahead : s'.lookahead = s.lookahead) : Surroundings allows s s' :=
  ⟨hlevel, hhooks, hquiet, forall₂_becomes_of_core hframes, fun _ => hlookahead⟩

theorem trans (h : Surroundings allows s s₁) (h' : Surroundings allows s₁ s₂) :
    Surroundings allows s s₂ where
  level := h'.level.trans h.level
  hooks := h'.hooks.trans h.hooks
  quiet := h'.quiet.trans h.quiet
  frames := forall₂_becomes_trans h.frames h'.frames
  lookahead hs := by
    have h₁ := h.lookahead hs
    exact (h'.lookahead (h₁ ▸ hs)).trans h₁

theorem hooksOpen (h : Surroundings allows s s') (hs : s.HooksOpen) : s'.HooksOpen := by
  rw [HooksOpen, h.hooks, h.level]
  exact hs

theorem openMarker (g : Setup) (s : Session) : Surroundings allows s (s.openMarker g).2 :=
  of_eq rfl rfl rfl rfl rfl

theorem commit (m : Marker) (kind : Kind) (error : Option SyntaxError) (s : Session) :
    Surroundings allows s (s.commit m kind error) := by
  unfold Session.commit
  split <;> exact of_eq rfl rfl rfl rfl rfl

theorem wrap (m : Marker) (s : Session) : Surroundings allows s (s.wrap m).2 := by
  unfold Session.wrap
  dsimp only
  split <;> exact of_eq rfl rfl rfl rfl rfl

theorem drop (m : Marker) (s : Session) : Surroundings allows s (s.drop m) :=
  of_eq rfl rfl rfl rfl rfl

theorem rollback (m : Marker) (s : Session) : Surroundings allows s (s.rollback m) := by
  unfold Session.rollback
  split <;> exact of_eq rfl rfl rfl rfl rfl

theorem widen (m : Marker) (s : Session) : Surroundings allows s (s.widen m) := by
  unfold Session.widen
  split
  · exact of_eq rfl rfl rfl rfl rfl
  · refine (wrap m s).trans (.trans ?_ (drop m _))
    split <;> exact commit ..

/-- Chunks have no frames. -/
theorem invariant (s : Session) : MarkerInvariant g (Surroundings allows s) (fun _ => True) fun _ => True where
  calm h hc := h.trans
    (of_eq hc.level hc.hooks hc.quiet (Steady.calm hc).frames hc.lookahead)
  openMarker h := ⟨h.trans (openMarker ..), trivial⟩
  commitAs _ h _ _ := h.trans (commit ..)
  drop h _ := h.trans (drop ..)
  wrap h _ := ⟨h.trans (wrap ..), trivial⟩

end Session.Surroundings

/-- Inside a lookahead section the context is one that the section can be left from. -/
theorem Lookahead.enter_admissible {c : Lookahead} (modifiers : Modifiers)
    (h : c.depth = 0 → c.positive = true) :
    (c.enter modifiers).depth = 0 → (c.enter modifiers).positive = true := by
  unfold Lookahead.enter
  split
  · intro hzero
    cases hzero
  · split
    · intro hzero
      cases hzero
    · exact h

namespace Work

variable {allows : Modifiers → Bool} {g : Setup} {s s' s₁ s₂ : Session} {first : Option Marker}

/-- Work leaves the sections around it alone. -/
theorem surroundings (h : Work allows g first s s') : Surroundings allows s s' := by
  induction h with
  | steady h => exact .of_eq h.level h.hooks h.quiet h.frames h.lookahead
  | trans _ _ ih ih' => exact ih.trans ih'
  | node kind error _ ih => exact (Surroundings.openMarker ..).trans (ih.trans (.commit ..))
  | bare _ ih => exact (Surroundings.openMarker ..).trans (ih.trans (.drop ..))
  | undone _ ih => exact (Surroundings.openMarker ..).trans (ih.trans (.rollback ..))
  | next _ _ ih ih' => exact ih.trans ih'
  | rest _ h ih => exact ih.trans (.of_eq h.level h.hooks h.quiet h.frames h.lookahead)
  | fold kind _ ih => exact ih.trans ((Surroundings.wrap ..).trans (.commit ..))
  | forget _ ih => exact ih
  | absorb _ => exact .drop ..
  | widen _ _ ih => exact ih.trans (.widen ..)
  | wrapLeft kind _ _ _ _ ih => exact ih.trans ((Surroundings.wrap ..).trans (.commit ..))
  | widenLeft _ _ _ _ ih => exact ih.trans (.widen ..)
  | supply kind s hallows hupper =>
    exact ⟨rfl, rfl, rfl, Surroundings.forall₂_becomes_supplyKind hallows hupper kind s.frames,
      fun _ => rfl⟩
  | level _ ih =>
    refine ⟨?_, ih.hooks, ih.quiet, ih.frames, ih.lookahead⟩
    show _ - 1 = _
    rw [ih.level]
    rfl
  | framed frame _ _ ih =>
    obtain ⟨hlevel, hhooks, hquiet, hframes, hlookahead⟩ := ih
    refine ⟨hlevel, hhooks, hquiet, ?_, fun hs => ?_⟩
    · obtain ⟨f, fs, -, hfs, heq⟩ := List.forall₂_cons_left_iff.1 hframes
      show List.Forall₂ _ _ (List.tail _)
      rw [heq]
      exact hfs
    · show Lookahead.leave _ _ = _
      rw [hlookahead (Lookahead.enter_admissible frame.modifiers hs)]
      exact Lookahead.leave_enter frame.modifiers hs
  | hushed hquiet _ ih =>
    exact ⟨ih.level, ih.hooks, hquiet.symm, ih.frames, ih.lookahead⟩
  | @delimited _ _ _ _ _ _ _ _ s _ _ _ hhooks h ih =>
    have hkept : Surroundings allows s s := .of_eq rfl rfl rfl rfl rfl
    refine (@Surroundings.invariant allows g s).groupRun ?_ hkept h trivial
    intro rule _ level t b t' ht hr
    exact ht.trans (ih rule level t b t' (ht.hooksOpen hhooks) hr)

end Work

end Descent
