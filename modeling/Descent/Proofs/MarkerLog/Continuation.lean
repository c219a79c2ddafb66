import Descent.Proofs.MarkerLog.Rollback

/-!
# Continued logs

A log is continued if no marker that was there is rolled back to. Then all entries stay, in their
order, and what is known of a node does not change but for its stage. Opening, committing, dropping
and wrapping markers continue a log, and so does rolling back to a marker that was opened
meanwhile (`Continues.rollback`).
-/

namespace Descent

namespace MarkerLog

/-- `log'` is what has become of `log`. -/
structure Continues (log log' : MarkerLog) : Prop where
  sound : log'.Sound
  since : ∀ old p, old.Sound → Since old p log → Since old p log'
  size : log.markers.size ≤ log'.markers.size
  entries : log.entries.Sublist log'.entries
  infos : ∀ x info, log.info? x = some info → ∃ info', log'.info? x = some info' ∧
    info'.start = info.start ∧ (info.kind.isSome = true → ∃ stage, info' = { info with stage })

namespace Continues

variable {log log' log₁ : MarkerLog} {x : Marker}

theorem refl (h : log.Sound) : log.Continues log where
  sound := h
  since _ _ _ h := h
  size := Nat.le_refl _
  entries := List.Sublist.refl _
  infos _ info hi := ⟨info, hi, rfl, fun _ => ⟨info.stage, rfl⟩⟩

theorem trans (h : log.Continues log₁) (h' : log₁.Continues log') : log.Continues log' where
  sound := h'.sound
  since old p hold hs := h'.since old p hold (h.since old p hold hs)
  size := Nat.le_trans h.size h'.size
  entries := h.entries.trans h'.entries
  infos x info hi := by
    obtain ⟨info₁, hi₁, hstart, hsame⟩ := h.infos x info hi
    obtain ⟨info', hi', hstart', hsame'⟩ := h'.infos x info₁ hi₁
    refine ⟨info', hi', hstart'.trans hstart, fun hkind => ?_⟩
    obtain ⟨stage, rfl⟩ := hsame hkind
    exact hsame' hkind

/-- Where a marker starts that had its start stays as it is. -/
theorem start_eq (h : log.Continues log') (hs : log.Sound) (hx : .start x ∈ log.entries) :
    log'.start x = log.start x := by
  have hlt := hs.known (.start x) hx
  have hi : log.info? x = some log.markers[x.number] := Array.getElem?_eq_getElem hlt
  obtain ⟨info', hi', hstart, -⟩ := h.infos x _ hi
  rw [start, start, hi, hi']
  exact hstart

/-- Where a node ends stays as it is. -/
theorem stop_eq (h : log.Continues log') (hs : log.Sound) (hx : log.isCommitted x = true) :
    log'.stop x = log.stop x := by
  obtain ⟨info, hi, hc⟩ := isCommitted_iff.1 hx
  obtain ⟨info', hi', -, hsame⟩ := h.infos x info hi
  obtain ⟨stage, rfl⟩ := hsame ((hs.life hi).of_committed hc).2.2
  rw [stop, stop, hi, hi']
  rfl

theorem openAt (h : log.Sound) (p : Nat) : log.Continues (log.openAt p).2 where
  sound := h.openAt p
  since _ _ _ hs := hs.openAt p
  size := by simp
  entries := List.sublist_cons_self ..
  infos _ info hi := ⟨info, info?_openAt hi p, rfl, fun _ => ⟨info.stage, rfl⟩⟩

theorem commit (h : log.Sound) (x : Marker) (kind : Kind) (error : Option SyntaxError) (p : Nat) :
    log.Continues (log.commit x kind error p) where
  sound := h.commit x kind error p
  since _ _ hold hs := hs.commit hold x kind error p
  size := by simp
  entries := (suffix_entries_commit log x kind error p).sublist
  infos _ info hi := by
    obtain ⟨info', hi', hstart, hsame⟩ := info?_commit hi x kind error p
    refine ⟨info', hi', hstart, fun hkind => ⟨info.stage, hsame fun hopen => ?_⟩⟩
    rw [((h.life hi).of_opened hopen).2] at hkind
    cases hkind

theorem drop (h : log.Sound) (x : Marker) : log.Continues (log.drop x) where
  sound := h.drop x
  since _ _ _ hs := hs.drop x
  size := by simp
  entries := (suffix_entries_drop log x).sublist
  infos _ info hi := by
    obtain ⟨stage, hs⟩ := info?_drop hi x
    exact ⟨_, hs, rfl, fun _ => ⟨stage, rfl⟩⟩

theorem sublist_insertStart (m new : Marker) (es : List Entry) :
    es.Sublist (insertStart m new es) := by
  rcases insertStart_cases m new es with ⟨-, h⟩ | ⟨later, older, -, rfl, h⟩
  · rw [h]
    exact List.sublist_cons_self ..
  · rw [h]
    exact (List.Sublist.refl later).append ((List.sublist_cons_self _ older).cons_cons _)

theorem wrap (h : log.Sound) (x : Marker) : log.Continues (log.wrap x).2 where
  sound := h.wrap x
  since _ _ _ hs := hs.wrap x
  size := by simp
  entries := sublist_insertStart x log.fresh log.entries
  infos _ info hi := ⟨info, info?_wrap hi x, rfl, fun _ => ⟨info.stage, rfl⟩⟩

/-- What happened after a marker was opened is taken back. -/
theorem rollback {p q : Nat} (hlog : log.Sound) (h : (log.openAt p).2.Continues log₁)
    (hr : log₁.rollback log.fresh = some (q, log')) : log.Continues log' := by
  have hopen := openAt hlog p
  have hsince := h.since log p hlog (.intro hlog p)
  obtain ⟨-, hfilter, -⟩ := hsince.entries_rollback hr
  have hl := (rollback_eq_some_iff.1 hr).2.2
  have hentries : log.entries.Sublist log'.entries := hfilter ▸ List.filter_sublist
  refine ⟨h.sound.rollback hr, fun old p' hold hs => ?_, ?_, hentries, fun x info hi => ?_⟩
  · refine (h.since old p' hold (hs.openAt p)).rollback hr (hentries.subset ?_)
    obtain ⟨later, older, he, -⟩ := hs.split
    simp [he]
  · rw [← hl, size_unwind]
    exact Nat.le_trans hopen.size h.size
  · obtain ⟨info', hi', hstart, hsame⟩ := (hopen.trans h).infos x info hi
    obtain ⟨stage, hs⟩ := info?_unwind hi' log₁.entries log.fresh
    refine ⟨{ info' with stage }, hl ▸ hs, hstart, fun hkind => ⟨stage, ?_⟩⟩
    obtain ⟨stage', rfl⟩ := hsame hkind
    rfl

end Continues

end MarkerLog

end Descent
