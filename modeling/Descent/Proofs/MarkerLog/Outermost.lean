import Descent.Proofs.MarkerLog.Rooted

/-!
# The outermost node

When the open marker below all others is committed, it becomes a node that spans all others
(`MarkerLog.Outermost`). Which markers are committed with an error does not depend on it, nor on
whether it is widened afterwards.
-/

namespace Descent

namespace MarkerLog

variable {log : MarkerLog} {m x : Marker}

/-- The marker is committed with an error. -/
def IsError (log : MarkerLog) (m : Marker) : Prop :=
  log.isCommitted m = true ∧ (log.error? m).isSome = true

instance (log : MarkerLog) (m : Marker) : Decidable (log.IsError m) :=
  inferInstanceAs (Decidable (_ ∧ _))

/-- Some marker is committed with an error. -/
def HasErrors (log : MarkerLog) : Prop := ∃ m, log.IsError m

theorem error?_fresh (log : MarkerLog) : log.error? log.fresh = none := by
  have hnone : log.info? log.fresh = none := info?_eq_none_iff.2 (Nat.le_refl _)
  rw [error?, hnone]
  rfl

/-! ## Dropping -/

theorem error?_drop (log : MarkerLog) (x y : Marker) : (log.drop x).error? y = log.error? y := by
  unfold error?
  cases hi : log.info? y with
  | none =>
    have hsize : (log.drop x).info? y = none :=
      info?_eq_none_iff.2 (by simpa using info?_eq_none_iff.1 hi)
    rw [hsize]
  | some info =>
    obtain ⟨stage, hs⟩ := info?_drop hi x
    rw [hs]
    rfl

theorem isCommitted_drop_self (log : MarkerLog) (m : Marker) :
    (log.drop m).isCommitted m = false := by
  have hset (es : List Entry) :
      MarkerLog.isCommitted ⟨setStage log.markers m .dropped, es⟩ m = false := by
    rw [isCommitted, stage?, info?, setStage_get, if_pos rfl]
    cases log.markers[m.number]? <;> rfl
  unfold drop
  split
  · exact hset _
  · exact hset _
  · next hc => exact beq_eq_false_iff_ne.2 hc

/-- A dropped marker is the only one whose error is lost. -/
theorem isError_drop (log : MarkerLog) (m x : Marker) :
    (log.drop m).IsError x ↔ log.IsError x ∧ m ≠ x := by
  by_cases hx : m = x
  · subst hx
    simp [IsError, isCommitted_drop_self]
  · rw [IsError, isCommitted, stage?, error?, info?_drop_of_ne hx]
    exact (and_iff_left hx).symm

/-! ## Committing the outermost node -/

/-- The marker is committed without an error, and its start is the oldest entry. -/
structure Outermost (m : Marker) (log : MarkerLog) : Prop where
  sound : log.Sound
  committed : log.isCommitted m = true
  noError : log.error? m = none
  oldest : log.entries.getLast? = some (.start m)

theorem Rooted.outermost (h : log.Rooted m) (kind : Kind) (p : Nat) :
    (log.commit m kind none p).Outermost m ∧
      (log.commit m kind none p).lastWidenable? = some m := by
  obtain ⟨info, hi, hs⟩ := h.opened
  have hstage : log.stage? m = some .opened := by rw [stage?, hi, ← hs]; rfl
  have hentries : (log.commit m kind none p).entries = .commit m :: log.entries := by
    rw [MarkerLog.commit, if_pos hstage]
  have hinfo := info?_commit_self hi hs kind none p
  have hcommitted : (log.commit m kind none p).isCommitted m = true :=
    isCommitted_iff.2 ⟨_, hinfo, rfl⟩
  refine ⟨⟨h.sound.commit .., hcommitted, by rw [error?, hinfo]; rfl, ?_⟩, ?_⟩
  · rw [hentries, List.getLast?_cons, h.oldest]
    rfl
  · rw [lastWidenable?, hentries, List.find?_cons_of_pos (by exact hcommitted)]

/-- The other markers are as they were. -/
theorem Rooted.isError_commit (h : log.Rooted m) (kind : Kind) (p : Nat) (x : Marker) :
    (log.commit m kind none p).IsError x ↔ log.IsError x := by
  by_cases hx : m = x
  · subst hx
    have hnone := (h.outermost kind p).1.noError
    have hopen : log.isCommitted m ≠ true := fun hc => h.ne_of_isCommitted hc rfl
    simp [IsError, hnone, hopen]
  · rw [IsError, isCommitted, stage?, error?, info?_commit_of_ne hx]
    rfl

/-- A node with an error is put into the outermost one. -/
theorem Outermost.insertError (h : log.Outermost m) (p q : Nat) (error : SyntaxError) :
    ((log.openAt p).2.commit log.fresh .error (some error) q).Outermost m ∧
      ((log.openAt p).2.commit log.fresh .error (some error) q).HasErrors := by
  obtain ⟨info, hi, hs⟩ := isCommitted_iff.1 h.committed
  have hlt := lt_size_of_info? hi
  have hne : log.fresh ≠ m := fun he => Nat.ne_of_gt hlt (congrArg Marker.number he)
  have hfresh : (log.openAt p).2.info? log.fresh = some { start := p, stop := p } := by
    simp [MarkerLog.openAt, info?, fresh]
  have hnew := info?_commit_self hfresh rfl .error (some error) q
  have hm : ((log.openAt p).2.commit log.fresh .error (some error) q).info? m = log.info? m := by
    rw [info?_commit_of_ne hne, info?_openAt_of_lt hlt]
  refine ⟨⟨(h.sound.openAt p).commit .., ?_, ?_, ?_⟩, log.fresh, ?_, ?_⟩
  · exact isCommitted_iff.2 ⟨info, hm.trans hi, hs⟩
  · rw [error?, hm]
    exact h.noError
  · obtain ⟨more, hmore⟩ :=
      suffix_entries_commit (log.openAt p).2 log.fresh .error (some error) q
    have hopen : (log.openAt p).2.entries = .start log.fresh :: log.entries := rfl
    rw [← hmore, hopen, List.getLast?_append, List.getLast?_cons, h.oldest]
    rfl
  · exact isCommitted_iff.2 ⟨_, hnew, rfl⟩
  · rw [error?, hnew]
    rfl

/-! ## Widening -/

/-- Puts a node of a kind around a marker and drops the marker. -/
def widen (log : MarkerLog) (m : Marker) (kind : Kind) (p : Nat) : MarkerLog :=
  ((log.wrap m).2.commit log.fresh kind none p).drop m

theorem Sound.widen (h : log.Sound) (m : Marker) (kind : Kind) (p : Nat) :
    (log.widen m kind p).Sound :=
  ((h.wrap m).commit ..).drop m

theorem info?_widen_of_ne (hx : log.fresh ≠ x) (hm : m ≠ x) (kind : Kind) (p : Nat) :
    (log.widen m kind p).info? x = log.info? x := by
  rw [MarkerLog.widen, info?_drop_of_ne hm, info?_commit_of_ne hx, info?_wrap_of_ne hx]

/-- The new node is there, without an error. -/
theorem info?_widen_fresh (hm : m ≠ log.fresh) (kind : Kind) (p : Nat) :
    ∃ info, (log.widen m kind p).info? log.fresh = some info ∧ info.stage = .committed ∧
      info.error = none := by
  have hfresh : (log.wrap m).2.info? log.fresh =
      some { start := log.start m, stop := log.start m } := by
    simp [MarkerLog.wrap, info?, fresh]
  have hcommit := info?_commit_self hfresh rfl kind none p
  exact ⟨_, (info?_drop_of_ne hm).trans hcommit, rfl, rfl⟩

theorem error?_widen (hm : m ≠ log.fresh) (kind : Kind) (p : Nat) (x : Marker) :
    (log.widen m kind p).error? x = log.error? x := by
  by_cases hx : log.fresh = x
  · obtain ⟨info, hi, -, hnone⟩ := info?_widen_fresh hm kind p
    rw [← hx, error?_fresh, error?, hi]
    exact hnone
  · rw [MarkerLog.widen, error?_drop, error?, info?_commit_of_ne hx, info?_wrap_of_ne hx]
    rfl

/-- The new node starts right before the place of the old one. -/
theorem entries_widen {later older : List Entry} (h : log.Sound)
    (hes : log.entries = later ++ .start m :: older) (kind : Kind) (p : Nat) :
    ∃ later', (log.widen m kind p).entries = later' ++ .start log.fresh :: older := by
  obtain ⟨more, hmore⟩ := (suffix_entries_commit (log.wrap m).2 log.fresh kind none p).trans
    (suffix_entries_drop _ m)
  refine ⟨more ++ (later ++ [.start m]), ?_⟩
  rw [MarkerLog.widen, ← hmore, h.entries_wrap hes]
  simp

end MarkerLog

end Descent
