import Descent.Proofs.MarkerLog.Steps
import Descent.Proofs.Session.Grouping
import Descent.Proofs.Tree.Errors

/-!
# Grouping adds no error and takes none away

Markers that are there when a run is grouped are left as they are, and those that grouping opens
have no error (`Spares`). If the root node is one of the former, what is put before it has no error
either, so the errors of the tree are those from before (`Spares.diagnostics_widenOver`).
-/

namespace Descent

open MarkerLog (insertStart insertStart_cases)
open Session (Calm)

theorem Session.log_widen {s : Session} {m : Marker} {kind : Kind}
    (hkind : s.log.kind? m = some kind) (hlt : m.number < s.log.markers.size)
    (herror : s.log.error? m = none) : (s.widen m).log = s.log.widen m kind s.position := by
  have hwrap : (s.log.wrap m).2.error? m = none := by
    rw [MarkerLog.error?, MarkerLog.info?_wrap_of_lt hlt]
    exact herror
  have hother : (s.wrap m).2.position = s.position ∧ (s.wrap m).1 = s.log.fresh := by
    simp only [Session.wrap]
    split <;> exact ⟨rfl, rfl⟩
  simp only [Session.widen, hkind, Session.log_wrap, hwrap, Session.commitAs, Session.log_drop,
    Session.log_commit, hother]
  rfl

/-- In the log of `s` the markers of `old` are as they were, and all others are without an error. No
marker of `old` starts before the marker `m`. -/
structure Spares (old : MarkerLog) (m : Marker) (s : Session) : Prop where
  sound : s.log.Sound
  size : old.markers.size ≤ s.log.markers.size
  same : ∀ x : Marker, x.number < old.markers.size → s.log.info? x = old.info? x
  fresh : ∀ x : Marker, old.markers.size ≤ x.number → s.log.error? x = none
  front : ∃ later older, s.log.entries = later ++ .start m :: older ∧
    ∀ e ∈ older, old.markers.size ≤ e.marker.number
  hooks : s.hooks = []

namespace Spares

variable {g : Setup} {old : MarkerLog} {m x : Marker} {s s' : Session}

theorem intro (hsound : s.log.Sound) (hold : s.log.entries.getLast? = some (.start m))
    (hhooks : s.hooks = []) : Spares s.log m s where
  sound := hsound
  size := Nat.le_refl _
  same _ _ := rfl
  fresh x hx := by rw [MarkerLog.error?, MarkerLog.info?_eq_none_iff.2 hx]; rfl
  front := by
    obtain ⟨later, hl⟩ := List.getLast?_eq_some_iff.1 hold
    exact ⟨later, [], hl, by simp⟩
  hooks := hhooks

theorem calm (h : Spares old m s) (hc : Calm s s') : Spares old m s' where
  sound := hc.log ▸ h.sound
  size := hc.log ▸ h.size
  same := hc.log ▸ h.same
  fresh := hc.log ▸ h.fresh
  front := hc.log ▸ h.front
  hooks := hc.hooks.trans h.hooks

/-- A step that records something on top and changes a marker that was not there before. -/
theorem push (h : Spares old m s) {log : MarkerLog} (hsound : log.Sound)
    (hsize : s.log.markers.size ≤ log.markers.size)
    (hother : ∀ x : Marker, x.number < old.markers.size → log.info? x = s.log.info? x)
    (hfresh : ∀ x : Marker, old.markers.size ≤ x.number → log.error? x = none)
    (hentries : s.log.entries <:+ log.entries) :
    Spares old m { s with log } where
  sound := hsound
  size := Nat.le_trans h.size hsize
  same x hx := (hother x hx).trans (h.same x hx)
  fresh := hfresh
  front := by
    obtain ⟨later, older, hs, hold⟩ := h.front
    obtain ⟨more, he⟩ := hentries
    exact ⟨more ++ later, older, by rw [← he, hs, List.append_assoc], hold⟩
  hooks := h.hooks

theorem openMarker (h : Spares old m s) :
    Spares old m (s.openMarker g).2 ∧ old.markers.size ≤ (s.openMarker g).1.number := by
  have h₁ := h.calm (.toSignificant g s)
  refine ⟨h₁.push (h.sound.openAt _) (by simp) (fun x hx => ?_) (fun x hx => ?_)
    (List.suffix_cons _ _), h.size⟩
  · exact MarkerLog.info?_openAt_of_lt (Nat.lt_of_lt_of_le hx h.size) _
  · have hx' := h.fresh x hx
    unfold MarkerLog.error? at hx' ⊢
    simp only [MarkerLog.info?, Array.getElem?_push] at hx' ⊢
    split
    · rfl
    · exact hx'

theorem commitAs (h : Spares old m s) (hx : old.markers.size ≤ x.number) (kind : Kind) :
    Spares old m (s.commitAs x kind) := by
  have hpush : Spares old m { s with log := s.log.commit x kind none s.position } := by
    refine h.push (h.sound.commit ..) (by simp) (fun y hy => ?_) (fun y hy => ?_)
      (MarkerLog.suffix_entries_commit ..)
    · exact MarkerLog.info?_commit_of_ne (by rintro rfl; omega) _ _ _
    · by_cases hxy : x = y
      · subst hxy
        have hx' := h.fresh x hx
        unfold MarkerLog.commit MarkerLog.error? at *
        split
        · simp only [MarkerLog.info?, Array.getElem?_modify, if_true]
          cases s.log.markers[x.number]? <;> rfl
        · exact hx'
      · rw [MarkerLog.error?, MarkerLog.info?_commit_of_ne hxy]
        exact h.fresh y hy
  unfold Session.commitAs Session.commit
  split
  · exact hpush
  · exact hpush
  · exact { hpush with }

theorem drop (h : Spares old m s) (hx : old.markers.size ≤ x.number) :
    Spares old m (s.drop x) := by
  refine h.push (h.sound.drop x) (by simp) (fun y hy => ?_) (fun y hy => ?_)
    (MarkerLog.suffix_entries_drop s.log x)
  · exact MarkerLog.info?_drop_of_ne (by rintro rfl; omega)
  · rw [MarkerLog.error?_drop]
    exact h.fresh y hy

/-- Wherever a new start is put, only new markers start before `m`. -/
theorem front_insertStart {es later older : List Entry} {n : Nat} {new : Marker}
    (hes : es = later ++ .start m :: older) (hnew : n ≤ new.number)
    (hold : ∀ e ∈ older, n ≤ e.marker.number) (x : Marker) :
    ∃ later' older', insertStart x new es = later' ++ .start m :: older' ∧
      ∀ e ∈ older', n ≤ e.marker.number := by
  have hinsert (l r : List Entry) (hr : ∀ e ∈ l ++ r, n ≤ e.marker.number) :
      ∀ e ∈ l ++ .start new :: r, n ≤ e.marker.number := by
    intro e he
    simp only [List.mem_append, List.mem_cons] at he hr
    rcases he with he | rfl | he
    · exact hr e (.inl he)
    · exact hnew
    · exact hr e (.inr he)
  rcases insertStart_cases x new es with ⟨-, hi⟩ | ⟨later', older', -, hes', hi⟩
  · exact ⟨.start new :: later, older, by rw [hi, hes]; rfl, hold⟩
  rw [hi]
  rcases List.append_eq_append_iff.1 (hes'.symm.trans hes) with ⟨a, rfl, ha⟩ | ⟨c, rfl, hc⟩
  · cases a with
    | nil =>
      obtain ⟨hx, rfl⟩ := List.cons.inj ha
      exact ⟨later', .start new :: older', by rw [hx], hinsert [] _ hold⟩
    | cons e a =>
      obtain ⟨rfl, rfl⟩ := List.cons.inj ha
      exact ⟨later' ++ .start x :: .start new :: a, older, by simp, hold⟩
  · cases c with
    | nil =>
      obtain ⟨hx, rfl⟩ := List.cons.inj hc
      exact ⟨later, .start new :: older, by simp [hx], hinsert [] _ hold⟩
    | cons e c =>
      obtain ⟨rfl, rfl⟩ := List.cons.inj hc
      have hall := hinsert (c ++ [.start x]) older' (by rw [List.append_assoc]; exact hold)
      rw [List.append_assoc] at hall
      exact ⟨later, c ++ .start x :: .start new :: older', by simp, hall⟩

theorem wrap (h : Spares old m s) (x : Marker) :
    Spares old m (s.wrap x).2 ∧ old.markers.size ≤ (s.wrap x).1.number := by
  have hlog : Spares old m { s with log := (s.log.wrap x).2 } := by
    refine ⟨h.sound.wrap x, ?_, fun y hy => ?_, fun y hy => ?_, ?_, h.hooks⟩
    · have := h.size
      simp only [MarkerLog.size_wrap]
      omega
    · rw [MarkerLog.info?_wrap_of_lt (Nat.lt_of_lt_of_le hy h.size)]
      exact h.same y hy
    · have hy' := h.fresh y hy
      unfold MarkerLog.error? at hy' ⊢
      simp only [MarkerLog.wrap, MarkerLog.info?, Array.getElem?_push] at hy' ⊢
      split
      · rfl
      · exact hy'
    · obtain ⟨later, older, hes, hold⟩ := h.front
      exact front_insertStart hes h.size hold x
  unfold Session.wrap
  dsimp only
  split
  · exact ⟨hlog, h.size⟩
  · exact ⟨{ hlog with }, h.size⟩

theorem invariant (g : Setup) (old : MarkerLog) (m : Marker) :
    MarkerInvariant g (Spares old m) (old.markers.size ≤ ·.number) fun _ => True where
  calm := calm
  openMarker := openMarker
  commitAs kind h hx _ := h.commitAs hx kind
  drop := drop
  wrap h _ := h.wrap _

/-! ## The errors of the tree -/

theorem isCommitted_of_lt (h : Spares old m s) (hx : x.number < old.markers.size) :
    s.log.isCommitted x = old.isCommitted x := by
  rw [MarkerLog.isCommitted, MarkerLog.stage?, h.same x hx]
  rfl

theorem error?_of_lt (h : Spares old m s) (hx : x.number < old.markers.size) :
    s.log.error? x = old.error? x := by
  rw [MarkerLog.error?, h.same x hx]
  rfl

/-- The committed markers with an error are those from before. -/
theorem errors_iff (h : Spares old m s) (x : Marker) :
    s.log.IsError x ↔ old.IsError x := by
  unfold MarkerLog.IsError
  by_cases hx : x.number < old.markers.size
  · rw [h.isCommitted_of_lt hx, h.error?_of_lt hx]
  · have hnew := h.fresh x (Nat.le_of_not_lt hx)
    have hold : old.error? x = none := by
      rw [MarkerLog.error?, MarkerLog.info?_eq_none_iff.2 (Nat.le_of_not_lt hx)]
      rfl
    simp [hnew, hold]

variable {source : Source} {language : Language} {root : Kind}

theorem diagnostics_of_errors_iff {log : MarkerLog} (hsound : log.Sound)
    (herrors : ∀ x, log.IsError x ↔ old.IsError x)
    (hroot : ∀ x, log.rootMarker? root = some x → log.error? x = none) :
    (log.toTree source language root).diagnostics ≠ [] ↔ old.HasErrors := by
  rw [MarkerLog.diagnostics_toTree_ne_nil_iff hsound]
  constructor
  · rintro ⟨x, hx, -⟩
    exact ⟨x, (herrors x).1 hx⟩
  · rintro ⟨x, hold⟩
    have hx := (herrors x).2 hold
    refine ⟨x, hx, fun hr => ?_⟩
    have herror := hx.2
    rw [hroot x hr] at herror
    cases herror

/-- The node that is put around `m` in its place has no error either. -/
theorem diagnostics_widen (h : Spares old m s) (hm : old.isCommitted m = true)
    (herror : old.error? m = none) {kind : Kind} (hkind : s.log.kind? m = some kind) :
    ((s.widen m).log.toTree source language root).diagnostics ≠ [] ↔ old.HasErrors := by
  obtain ⟨info, hi, -⟩ := MarkerLog.isCommitted_iff.1 hm
  have hold := MarkerLog.lt_size_of_info? hi
  have hlt : m.number < s.log.markers.size := Nat.lt_of_lt_of_le hold h.size
  have hne : m ≠ s.log.fresh := fun he => Nat.ne_of_lt hlt (congrArg Marker.number he)
  rw [Session.log_widen hkind hlt ((h.error?_of_lt hold).trans herror)]
  have hm' : s.log.error? m = none := (h.error?_of_lt hold).trans herror
  refine diagnostics_of_errors_iff (h.sound.widen ..) (fun x => ?_) (fun x hx => ?_)
  · rw [← h.errors_iff, MarkerLog.IsError, MarkerLog.IsError, MarkerLog.error?_widen hne]
    by_cases hfresh : s.log.fresh = x
    · simp [← hfresh, MarkerLog.error?_fresh]
    by_cases hxm : m = x
    · simp [← hxm, hm']
    rw [MarkerLog.isCommitted, MarkerLog.stage?, MarkerLog.info?_widen_of_ne hfresh hxm]
    rfl
  · obtain ⟨later, older, hes, hfront⟩ := h.front
    obtain ⟨later', hes'⟩ := MarkerLog.entries_widen h.sound hes kind s.position
    obtain ⟨new, hnew, hstage, -⟩ := MarkerLog.info?_widen_fresh hne kind s.position
    refine MarkerLog.error?_of_rootMarker? hes' (MarkerLog.isCommitted_iff.2 ⟨new, hnew, hstage⟩)
      ?_ (fun e he => ?_) hx
    · rw [MarkerLog.error?_widen hne, MarkerLog.error?_fresh]
    · rw [MarkerLog.error?_widen hne]
      exact h.fresh _ (hfront e he)

/-- Widening the node `m` over a position, or not, makes no difference to the errors. -/
theorem diagnostics_widenOver (h : Spares old m s) (hm : old.isCommitted m = true)
    (herror : old.error? m = none) (site : Nat) :
    ((s.widenOver (some m) site).log.toTree source language root).diagnostics ≠ [] ↔ old.HasErrors := by
  obtain ⟨info, hi, -⟩ := MarkerLog.isCommitted_iff.1 hm
  have hold := MarkerLog.lt_size_of_info? hi
  have hstays : (s.log.toTree source language root).diagnostics ≠ [] ↔ old.HasErrors := by
    refine diagnostics_of_errors_iff h.sound h.errors_iff (fun x hx => ?_)
    obtain ⟨later, older, hes, hfront⟩ := h.front
    exact MarkerLog.error?_of_rootMarker? hes ((h.isCommitted_of_lt hold).trans hm)
      ((h.error?_of_lt hold).trans herror) (fun e he => h.fresh _ (hfront e he)) hx
  unfold Session.widenOver
  dsimp only
  split
  · cases hkind : s.log.kind? m with
    | none =>
      unfold Session.widen
      rw [hkind]
      exact hstays
    | some kind => exact h.diagnostics_widen hm herror hkind
  · exact hstays

end Spares

end Descent
