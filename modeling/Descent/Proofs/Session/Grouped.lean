import Descent.Proofs.Session.Skipping
import Descent.Proofs.Session.Work

/-!
# Reports and chunks are work

Reporting an error makes a node and may widen the one before it. Grouping makes chunks, each a node
behind the one before (`Line`), and wraps runs of them at the oldest (`Grouped`). Delimited regions
are not looked into.
-/

namespace Descent

open Session (Calm Steady)

/-- A runner whose runs are work. -/
def Runner.Works (allows : Modifiers → Bool) (g : Setup) (run : Runner) : Prop :=
  ∀ rule level s b s', s.HooksOpen → run rule level s = some (b, s') → Work allows g none s s'

namespace Work

variable {allows : Modifiers → Bool} {g : Setup} {s s' s₁ s₂ : Session} {first : Option Marker}

theorem refl (s : Session) : Work allows g none s s := .steady (.refl s)

theorem calm (h : Calm s s') : Work allows g none s s' := .steady (.calm h)

theorem note (h : Work allows g none s s') (e : Event) : Work allows g none s (s'.note e) :=
  h.trans (.steady (.note s' e))

theorem toSignificant (h : Work allows g none s s') :
    Work allows g none s (s'.toSignificant g) :=
  h.trans (.steady (.toSignificant g s'))

theorem modifyFrame (h : Work allows g none s s') {f : Frame → Frame}
    (hf : ∀ x, (f x).core = x.core) : Work allows g none s (s'.modifyFrame f) :=
  h.trans (.steady (.modifyFrame s' hf))

theorem hooksOpen (h : Work allows g first s s') (hs : s.HooksOpen) : s'.HooksOpen :=
  h.surroundings.hooksOpen hs

/-! ## Reports -/

theorem insertError (s : Session) (error : SyntaxError) :
    Work allows g none s (s.insertError g error) :=
  .forget (.node .error (some error) (refl _))

/-- A node that could be widened is widened over what was done since. -/
theorem widenOver (h : Work allows g none s s₁) {last : Option Marker}
    (hlast : ∀ m, last = some m → s.log.lastWidenable? = some m) (site : Nat) :
    Work allows g none s (s₁.widenOver last site) := by
  unfold Session.widenOver
  split
  · next m =>
    split
    · exact .widen (hlast m rfl) h
    · exact h
  · exact h

theorem report (s : Session) (site : Nat) (inner force : Bool) :
    Work allows g none s (s.report g site inner force).2 := by
  unfold Session.report
  split
  · exact refl s
  · have h₁ : Work allows g none s (s.toSignificant g) := (refl s).toSignificant
    dsimp only
    split
    · exact h₁
    · refine toSignificant (trans (h₁.note (.errorReported (s.toSignificant g).position
        ((s.toSignificant g).errorHere g ((s.toSignificant g).expectedHere g)) false inner)) ?_)
      split
      · exact (insertError _ _).widenOver (fun _ hm => hm) site
      · exact insertError _ _

theorem reportFor (s : Session) (frame : Frame) (inner force : Bool) :
    Work allows g none s (s.reportFor g frame inner force).2.2 := by
  rw [Session.session_reportFor]
  exact report ..

theorem reportInFrame (s : Session) (site : Nat) (inner : Bool) :
    Work allows g none s (s.reportInFrame g site inner) := by
  have h : Work allows g none s (s.report g site inner true).2 := report ..
  unfold Session.reportInFrame
  split
  · next heq =>
    rw [heq] at h
    exact h.modifyFrame fun _ => rfl
  · next heq =>
    rw [heq] at h
    exact h

theorem reportHere (s : Session) : Work allows g none s (s.reportHere g) := by
  have h : Work allows g none s (s.toSignificant g) := (refl s).toSignificant
  unfold Session.reportHere
  dsimp only
  split
  · exact h.note _
  · split
    · exact h.trans (reportInFrame ..)
    · exact h

theorem reportAgain (s : Session) : Work allows g none s (s.reportAgain g) := by
  unfold Session.reportAgain
  split
  · exact refl s
  · split
    · exact refl s
    · split
      · exact (refl s).toSignificant.trans (reportInFrame ..)
      · exact refl s

end Work

/-! ## Chunks -/

/-- The chunks `cs`, the latest first, are nodes side by side that were made since `s`. -/
inductive Line (allows : Modifiers → Bool) (g : Setup) (s : Session) :
    List Chunk → Session → Prop
  | nil {s' : Session} (h : Work allows g none s s') : Line allows g s [] s'
  | cons {x : Chunk} {cs : List Chunk} {t s' : Session} (h : Line allows g s cs t)
    (hx : Work allows g (some x.marker) t s') : Line allows g s (x :: cs) s'

namespace Line

variable {allows : Modifiers → Bool} {g : Setup} {s s' t : Session} {cs : List Chunk} {x : Chunk}

theorem steady (h : Line allows g s cs t) (hs : Steady t s') : Line allows g s cs s' := by
  cases h with
  | nil h => exact .nil (h.trans (.steady hs))
  | cons h hx => exact .cons h (hx.rest hs)

theorem work (h : Line allows g s cs s') : Work allows g none s s' := by
  induction h with
  | nil h => exact h
  | cons _ hx ih => exact ih.trans hx.forget

/-- The oldest of the latest chunks is the first node of what was done since it was begun. -/
theorem split {later : List Chunk} (h : Line allows g s (later ++ x :: cs) s') :
    ∃ t, Line allows g s cs t ∧ Work allows g (some x.marker) t s' := by
  induction later generalizing s' with
  | nil =>
    cases h with
    | cons h hx => exact ⟨_, h, hx⟩
  | cons y later ih =>
    cases h with
    | cons h hy =>
      obtain ⟨t, ht, hx⟩ := ih h
      exact ⟨t, ht, hx.next hy⟩

end Line

/-- Items are being grouped since `s`, with the current chunk open or not. -/
inductive Grouped (allows : Modifiers → Bool) (g : Setup) (s : Session) (c : Grouping) :
    Session → Prop
  | between {s' : Session} (hregions : c.regions = []) (hc : c.current = none)
    (h : Line allows g s c.chunks s') : Grouped allows g s c s'
  | inside {t s' : Session} (hregions : c.regions = [])
    (hc : c.current = some (t.openMarker g).1) (h : Line allows g s c.chunks t)
    (hin : Work allows g none (t.openMarker g).2 s') : Grouped allows g s c s'

namespace Grouped

variable {allows : Modifiers → Bool} {g : Setup} {s s' t : Session} {c c' : Grouping}
  {kind : Kind}

theorem regions (h : Grouped allows g s c t) : c.regions = [] := by
  cases h <;> assumption

theorem steady (h : Grouped allows g s c t) (hs : Steady t s') : Grouped allows g s c s' := by
  cases h with
  | between hregions hc h => exact .between hregions hc (h.steady hs)
  | inside hregions hc h hin => exact .inside hregions hc h (hin.trans (.steady hs))

/-- The counts of items do not matter. -/
theorem congr (h : Grouped allows g s c t) (hregions : c'.regions = c.regions)
    (hcurrent : c'.current = c.current) (hchunks : c'.chunks = c.chunks) :
    Grouped allows g s c' t := by
  cases h with
  | between hr hc h =>
    exact .between (hregions.trans hr) (hcurrent.trans hc) (hchunks ▸ h)
  | inside hr hc h hin =>
    exact .inside (hregions.trans hr) (hcurrent.trans hc) (hchunks ▸ h) hin

theorem surroundings (h : Grouped allows g s c t) : s.Surroundings allows t := by
  cases h with
  | between _ _ h => exact h.work.surroundings
  | inside _ _ h hin =>
    exact h.work.surroundings.trans ((Session.Surroundings.openMarker ..).trans hin.surroundings)

theorem openCurrent (h : Grouped allows g s c t) :
    Grouped allows g s (t.openCurrent g c).1 (t.openCurrent g c).2 ∧
      (t.openCurrent g c).1.current.isSome = true := by
  unfold Session.openCurrent
  cases h with
  | between hregions hc h =>
    rw [hc]
    exact ⟨.inside hregions rfl h (.refl _), rfl⟩
  | inside hregions hc h hin =>
    rw [hc]
    exact ⟨.inside hregions hc h hin, by rw [hc]; rfl⟩

/-- What is done while the current chunk is open is part of it. -/
theorem work (h : Grouped allows g s c t) (hc : c.current.isSome = true)
    (hw : Work allows g none t s') : Grouped allows g s c s' := by
  cases h with
  | between _ hnone _ =>
    rw [hnone] at hc
    cases hc
  | inside hregions hc h hin => exact .inside hregions hc h (hin.trans hw)

theorem closeCurrent (h : Grouped allows g s c t) (kind : Kind) :
    (t.closeCurrent kind c).1.regions = [] ∧ (t.closeCurrent kind c).1.current = none ∧
      Line allows g s (t.closeCurrent kind c).1.chunks (t.closeCurrent kind c).2 := by
  unfold Session.closeCurrent
  cases h with
  | between hregions hc h =>
    rw [hc]
    exact ⟨hregions, hc, h⟩
  | inside hregions hc h hin =>
    rw [hc]
    exact ⟨hregions, rfl, .cons h (.node kind none hin)⟩

/-- A full run of chunks ends with the one it is wrapped at. -/
theorem chunks_of_latestRun {oldest : Chunk} {size : Nat}
    (holdest : (c.latestRun.take size).getLast? = some oldest)
    (hsize : ¬ c.latestRun.length < size) :
    ∃ later, c.chunks = later ++ oldest :: c.chunks.drop size := by
  have hprefix : c.latestRun <+: c.chunks := by
    unfold Grouping.latestRun
    split
    · exact List.nil_prefix
    · exact List.takeWhile_prefix _
  have htake : c.latestRun.take size = c.chunks.take size := by
    obtain ⟨more, hmore⟩ := hprefix
    rw [← hmore, List.take_append_of_le_length (Nat.le_of_not_lt hsize)]
  obtain ⟨later, hlater⟩ := List.getLast?_eq_some_iff.1 (htake ▸ holdest)
  refine ⟨later, ?_⟩
  calc c.chunks = c.chunks.take size ++ c.chunks.drop size := (List.take_append_drop ..).symm
    _ = later ++ oldest :: c.chunks.drop size := by rw [hlater]; simp

theorem foldRounds (kind : Kind) (rounds : Nat) (hregions : c.regions = [])
    (hc : c.current = none) (h : Line allows g s c.chunks t) :
    Grouped allows g s (t.foldRounds g kind rounds c).1 (t.foldRounds g kind rounds c).2 := by
  induction rounds generalizing c t with
  | zero => exact .between hregions hc h
  | succ rounds ih =>
    simp only [Session.foldRounds]
    split
    · exact .between hregions hc h
    · next oldest holdest =>
      split
      · exact .between hregions hc h
      · next hsize =>
        obtain ⟨later, hchunks⟩ := chunks_of_latestRun holdest hsize
        obtain ⟨u, hline, hwork⟩ := (hchunks ▸ h).split
        exact ih hregions hc (.cons hline ((hwork.fold kind).rest (.note _ _)))

theorem foldIfFull (h : Grouped allows g s c t) (kind : Kind) :
    Grouped allows g s (t.foldIfFull g kind c).1 (t.foldIfFull g kind c).2 := by
  unfold Session.foldIfFull
  split
  · obtain ⟨hregions, hc, hline⟩ := h.closeCurrent kind
    exact foldRounds kind _ hregions hc hline
  · exact h

variable {run : Runner} {level : Nat} {item eatMore : RuleRef} {b : Bool}

theorem itemStep (hrun : run.Works allows g) (hs : s.HooksOpen) (h : Grouped allows g s c t)
    (hd : t.itemStep g run level item eatMore c = some (b, c', s')) :
    Grouped allows g s c' s' := by
  rw [Session.itemStep_eq] at hd
  obtain ⟨h₁, hc⟩ := h.openCurrent
  obtain ⟨⟨more, u⟩, hmore, hd⟩ := Option.bind_eq_some_iff.1 hd
  have h₂ : Grouped allows g s (t.openCurrent g c).1 u := by
    split at hmore
    · exact h₁.work hc (hrun _ _ _ _ _ (h₁.surroundings.hooksOpen hs) hmore)
    · cases hmore
      exact h₁
  obtain ⟨⟨parsed, v⟩, hparsed, hd⟩ := Option.bind_eq_some_iff.1 hd
  have h₃ : Grouped allows g s (t.openCurrent g c).1 v := by
    split at hparsed
    · exact h₂.work hc (hrun _ _ _ _ _ (h₂.surroundings.hooksOpen hs) hparsed)
    · cases hparsed
      exact h₂
  split at hd
  · cases hd
    exact h₃.congr rfl rfl rfl
  · cases hd
    exact h₃

theorem groupItems (hrun : run.Works allows g) (hs : s.HooksOpen) {rounds : Nat}
    (h : Grouped allows g s c t)
    (hd : t.groupItems g run level kind none item eatMore rounds c = some (c', s')) :
    Grouped allows g s c' s' := by
  induction rounds generalizing c t with
  | zero => cases hd
  | succ rounds ih =>
    rw [Session.groupItems_succ] at hd
    obtain ⟨⟨parsed, c₁, t₁⟩, hstep, hd⟩ := Option.bind_eq_some_iff.1 hd
    have h₁ : Grouped allows g s c₁ t₁ :=
      (h.steady (.toSignificant g t)).itemStep hrun hs hstep
    have h₂ := h₁.foldIfFull kind
    split at hd
    · cases hd
      exact h₁
    · have hguard := Steady.calm (.guardProgress g (t₁.foldIfFull g kind c₁).2 "parse_as_tree"
        t.position)
      split at hd
      · next u hu =>
        rw [hu] at hguard
        exact ih (h₂.steady hguard) hd
      · next u hu =>
        rw [hu] at hguard
        cases hd
        exact h₂.steady hguard

/-- What is left open is dropped in the end. -/
theorem dropOpen (h : Grouped allows g s c t) : Work allows g none s (t.dropOpen c) := by
  unfold Session.dropOpen
  rw [h.regions]
  cases h with
  | between _ hc h =>
    rw [hc]
    exact h.work
  | inside _ hc h hin =>
    rw [hc]
    exact h.work.trans (.bare hin)

end Grouped

namespace Work

theorem groupRun {allows : Modifiers → Bool} {g : Setup} {run : Runner} {rounds level : Nat}
    {kind : Kind} {minds b : Bool} {item eatMore : RuleRef} {s s' : Session}
    (hrun : run.Works allows g) (hs : s.HooksOpen)
    (hr : s.groupRun g run rounds level kind minds item eatMore = some (b, s')) :
    Work allows g none s s' := by
  by_cases hpairs : g.language.delimiters = []
  · have hpair : (if minds then g.language.delimiters.head? else none) = none := by
      rw [hpairs]
      cases minds <;> rfl
    rw [Session.groupRun_eq] at hr
    simp only [hpair] at hr
    obtain ⟨⟨c, t⟩, ht, hr⟩ := Option.bind_eq_some_iff.1 hr
    obtain ⟨-, rfl⟩ := Prod.mk.inj (Option.some.inj hr)
    have hbegin : Grouped allows g s { regions := [] } s := .between rfl rfl (.nil (.refl s))
    exact (hbegin.groupItems hrun hs ht).dropOpen.note _
  · exact .delimited hpairs hrun hs hr

end Work

end Descent
