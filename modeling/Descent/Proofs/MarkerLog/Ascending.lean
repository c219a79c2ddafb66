import Descent.Proofs.MarkerLog.Rooted
import Mathlib.Data.List.Basic

/-!
# Logs that go with the position

Markers are opened and committed at the current position, which goes back only when the entries
recorded since are taken back. So the positions that the entries stand for never go back along the
log, and none is past the current one (`MarkerLog.Ascends`). A marker that is put in front of another
one shares its position, so wrapping does no harm, as long as the other one still has its start.
-/

namespace Descent

namespace MarkerLog

variable {log log' : MarkerLog} {m x : Marker} {p q : Nat}

/-- The position of the token at which an entry opened or closed its marker. -/
def place? (log : MarkerLog) : Entry → Option Nat
  | .start m => some (log.start m)
  | .commit m => some (log.stop m)
  | .drop .. => none

/-- The positions of the entries, the latest first. -/
def places (log : MarkerLog) : List Nat := log.entries.filterMap log.place?

/-- The positions of the entries do not go back along the log, and none is past `q`. -/
def Ascends (log : MarkerLog) (q : Nat) : Prop := (q :: log.places).Pairwise (· ≥ ·)

theorem place?_congr {e : Entry} (hstart : log'.start e.marker = log.start e.marker)
    (hstop : log'.stop e.marker = log.stop e.marker) : log'.place? e = log.place? e := by
  cases e with
  | start m => exact congrArg some hstart
  | commit m => exact congrArg some hstop
  | drop m prior => rfl

theorem place?_of_info? {e : Entry} (h : log'.info? e.marker = log.info? e.marker) :
    log'.place? e = log.place? e := by
  refine place?_congr ?_ ?_
  · rw [start, start, h]
  · rw [stop, stop, h]

/-- The stage of a marker does not matter. -/
theorem place?_of_stage {e : Entry} (h : ∀ info, log.info? e.marker = some info →
      ∃ stage, log'.info? e.marker = some { info with stage })
    (hsize : log'.markers.size = log.markers.size) : log'.place? e = log.place? e := by
  cases hi : log.info? e.marker with
  | none =>
    have hnone : log'.info? e.marker = none := by
      rw [info?_eq_none_iff, hsize]
      exact info?_eq_none_iff.1 hi
    exact place?_of_info? (hnone.trans hi.symm)
  | some info =>
    obtain ⟨stage, hs⟩ := h info hi
    refine place?_congr ?_ ?_
    · rw [start, start, hi, hs]
      rfl
    · rw [stop, stop, hi, hs]
      rfl

namespace Ascends

theorem mono (h : log.Ascends q) (hq : q ≤ p) : log.Ascends p := by
  obtain ⟨hle, hpairwise⟩ := List.pairwise_cons.1 h
  exact List.pairwise_cons.2 ⟨fun x hx => Nat.le_trans (hle x hx) hq, hpairwise⟩

theorem of_places (h : log.Ascends q) (hp : log'.places = log.places) : log'.Ascends q := by
  rw [Ascends, hp]
  exact h

/-- No marker that has its start starts past the current position. -/
theorem start_le (h : log.Ascends q) (hm : .start m ∈ log.entries) : log.start m ≤ q := by
  have hmem : log.start m ∈ log.places := List.mem_filterMap.2 ⟨_, hm, rfl⟩
  exact (List.pairwise_cons.1 h).1 _ hmem

/-- No marker that was committed ends past the current position. -/
theorem stop_le (h : log.Ascends q) (hm : .commit m ∈ log.entries) : log.stop m ≤ q := by
  have hmem : log.stop m ∈ log.places := List.mem_filterMap.2 ⟨_, hm, rfl⟩
  exact (List.pairwise_cons.1 h).1 _ hmem

theorem openAt (h : log.Ascends q) (hs : log.Sound) (hq : q ≤ p) : (log.openAt p).2.Ascends p := by
  have hold : log.entries.filterMap (log.openAt p).2.place? = log.places :=
    List.filterMap_congr fun e he => place?_of_info? (info?_openAt_of_lt (hs.known e he) p)
  have hfresh : (log.openAt p).2.start log.fresh = p := by
    simp [start, info?, MarkerLog.openAt, fresh]
  have hplaces : (log.openAt p).2.places = p :: log.places := by
    rw [← hold]
    exact congrArg (· :: _) hfresh
  rw [Ascends, hplaces]
  obtain ⟨hle, -⟩ := List.pairwise_cons.1 (h.mono hq)
  refine List.pairwise_cons.2 ⟨fun x hx => ?_, h.mono hq⟩
  rcases List.mem_cons.1 hx with rfl | hx
  · exact Nat.le_refl _
  · exact hle x hx

theorem commit (h : log.Ascends q) (hs : log.Sound) (m : Marker) (kind : Kind)
    (error : Option SyntaxError) : (log.commit m kind error q).Ascends q := by
  by_cases hm : log.stage? m = some .opened
  · obtain ⟨info, hi, hopen⟩ := Option.map_eq_some_iff.1 hm
    have hinfo := info?_commit_self hi hopen kind error q
    have hstart : log.start m = info.start := by simp [start, hi]
    have hle := h.start_le (hs.start_mem_of_opened hm)
    have hstop : (log.commit m kind error q).stop m = q := by
      simp only [stop, hinfo, Option.map_some, Option.getD_some]
      omega
    have hold : log.entries.filterMap (log.commit m kind error q).place? = log.places := by
      refine List.filterMap_congr fun e he => ?_
      by_cases hx : m = e.marker
      · -- of an open marker the log has the start only
        have hmem : e ∈ log.history m := mem_history.2 ⟨he, hx.symm⟩
        obtain rfl : e = .start m := by simpa [((hs.life hi).of_opened hopen).1] using hmem
        simp [place?, start, hinfo, hi]
      · exact place?_of_info? (info?_commit_of_ne hx kind error q)
    have hplaces : (log.commit m kind error q).places = q :: log.places := by
      have hentries : (log.commit m kind error q).entries = .commit m :: log.entries := by
        rw [MarkerLog.commit, if_pos hm]
      rw [places, hentries, ← hold]
      show (log.commit m kind error q).stop m :: _ = _
      rw [hstop]
    rw [Ascends, hplaces]
    refine List.pairwise_cons.2 ⟨fun x hx => ?_, h⟩
    rcases List.mem_cons.1 hx with rfl | hx
    · exact Nat.le_refl _
    · exact (List.pairwise_cons.1 h).1 x hx
  · rw [MarkerLog.commit, if_neg hm]
    exact h

theorem drop (h : log.Ascends q) (m : Marker) : (log.drop m).Ascends q := by
  refine h.of_places ?_
  have hold : log.entries.filterMap (log.drop m).place? = log.places :=
    List.filterMap_congr fun e _ => place?_of_stage (fun info hi => info?_drop hi m) (by simp)
  rw [← hold, places]
  rcases entries_drop log m with he | ⟨prior, he⟩
  · rw [he]
  · rw [he]
    rfl

theorem wrap (h : log.Ascends q) (hs : log.Sound) (hm : .start m ∈ log.entries) :
    (log.wrap m).2.Ascends q := by
  have hplace (e : Entry) (he : e ∈ log.entries) : (log.wrap m).2.place? e = log.place? e :=
    place?_of_info? (info?_wrap_of_lt (hs.known e he) m)
  have hfresh : (log.wrap m).2.place? (.start log.fresh) = some (log.start m) := by
    simp [place?, MarkerLog.start, info?, MarkerLog.wrap, fresh]
  rcases insertStart_cases m log.fresh log.entries with ⟨hnot, -⟩ | ⟨later, older, -, hes, hnew⟩
  · exact absurd hm hnot
  · -- the position of the other marker is there twice
    have hthis : log.place? (.start m) = some (log.start m) := rfl
    have hplaces : log.places =
        later.filterMap log.place? ++ log.start m :: older.filterMap log.place? := by
      rw [places, hes, List.filterMap_append, List.filterMap_cons_some hthis]
    have hlater : later.filterMap (log.wrap m).2.place? = later.filterMap log.place? :=
      List.filterMap_congr fun e he => hplace e (by simp [hes, he])
    have holder : older.filterMap (log.wrap m).2.place? = older.filterMap log.place? :=
      List.filterMap_congr fun e he => hplace e (by simp [hes, he])
    have hplaces' : (log.wrap m).2.places = later.filterMap log.place? ++
        log.start m :: log.start m :: older.filterMap log.place? := by
      rw [places, show (log.wrap m).2.entries = _ from hnew, List.filterMap_append, hlater,
        List.filterMap_cons_some ((hplace _ hm).trans hthis), List.filterMap_cons_some hfresh,
        holder]
    rw [Ascends, hplaces] at h
    rw [Ascends, hplaces']
    simp only [List.pairwise_cons, List.pairwise_append, List.mem_append, List.mem_cons] at h ⊢
    grind

/-- Rolling back ends at the position of the last entry that is taken back. -/
theorem rollback (h : log.Ascends q) (hr : log.rollback m = some (p, log')) : log'.Ascends p := by
  obtain ⟨hm, ⟨info, hi, hp⟩, hl⟩ := rollback_eq_some_iff.1 hr
  obtain ⟨later, -, hes⟩ := entries_unwind log.markers hm
  have hsize : log'.markers.size = log.markers.size := by rw [← hl, size_unwind]
  have hplace (e : Entry) : log'.place? e = log.place? e := by
    refine place?_of_stage (fun info hi => ?_) hsize
    obtain ⟨stage, hs⟩ := info?_unwind hi log.entries m
    exact ⟨stage, hl ▸ hs⟩
  have hthis : log.place? (.start m) = some p := by simp [place?, start, hi, hp]
  have hplaces : log.places = later.filterMap log.place? ++ p :: log'.places := by
    rw [places, hes, hl, List.filterMap_append, List.filterMap_cons_some hthis, places,
      List.filterMap_congr fun e _ => hplace e]
  rw [Ascends, hplaces] at h
  exact (List.pairwise_append.1 (List.pairwise_cons.1 h).2).2.1

end Ascends

end MarkerLog

end Descent
