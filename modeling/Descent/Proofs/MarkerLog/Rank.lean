import Descent.Proofs.MarkerLog.Nesting

/-!
# The order of entries

The rank of an entry is the number of entries up to and with it, the oldest having rank 1. What is not
in the log has rank 0. Ranks turn statements about the order of entries into arithmetic, and the
operations change them in a simple way: what is recorded on top gets the next rank, and a start that
is put in front of another one takes its rank over and moves that one and all later entries up.
-/

namespace Descent

/-- The number of entries up to and with an entry. The list has the latest first. -/
def rank (es : List Entry) (e : Entry) : Nat := (es.dropWhile (· ≠ e)).length

variable {es fs : List Entry} {e x y : Entry}

@[simp] theorem rank_cons_self (es : List Entry) (e : Entry) : rank (e :: es) e = es.length + 1 := by
  simp [rank]

theorem rank_cons_of_ne (es : List Entry) (h : x ≠ e) : rank (x :: es) e = rank es e := by
  simp [rank, h]

theorem rank_le_length (es : List Entry) (e : Entry) : rank es e ≤ es.length :=
  (List.dropWhile_sublist _).length_le

theorem rank_pos_iff : 0 < rank es e ↔ e ∈ es := by
  induction es with
  | nil => simp [rank]
  | cons x es ih =>
    by_cases hx : x = e
    · simp [hx]
    · rw [rank_cons_of_ne es hx, ih, List.mem_cons]
      exact (or_iff_right (Ne.symm hx)).symm

theorem rank_append_of_notMem (h : e ∉ fs) (es : List Entry) : rank (fs ++ es) e = rank es e := by
  induction fs with
  | nil => rfl
  | cons x fs ih =>
    obtain ⟨hx, hfs⟩ := not_or.1 (mt List.mem_cons.2 h)
    rw [List.cons_append, rank_cons_of_ne _ (Ne.symm hx), ih hfs]

/-- What is in the front of a list ranks above all behind it. -/
theorem rank_append_of_mem (h : e ∈ fs) (es : List Entry) :
    rank (fs ++ es) e = rank fs e + es.length := by
  induction fs with
  | nil => cases h
  | cons x fs ih =>
    by_cases hx : x = e
    · subst hx
      simp only [List.cons_append, rank_cons_self, List.length_append]
      omega
    · rw [List.cons_append, rank_cons_of_ne _ hx, rank_cons_of_ne _ hx,
        ih ((List.mem_cons.1 h).resolve_left (Ne.symm hx))]

/-- Different entries have different ranks. -/
theorem rank_inj (hx : x ∈ es) (h : rank es x = rank es y) : x = y := by
  induction es with
  | nil => cases hx
  | cons e es ih =>
    by_cases hex : e = x
    · by_cases hey : e = y
      · exact hex.symm.trans hey
      · rw [← hex, rank_cons_self, rank_cons_of_ne _ hey] at h
        have := rank_le_length es y
        omega
    · have hmem := (List.mem_cons.1 hx).resolve_left (Ne.symm hex)
      by_cases hey : e = y
      · rw [← hey, rank_cons_self, rank_cons_of_ne _ hex] at h
        have := rank_le_length es x
        omega
      · rw [rank_cons_of_ne _ hex, rank_cons_of_ne _ hey] at h
        exact ih hmem h

/-- Ranks say which entry comes first, where the one below is there only once. -/
theorem rank_lt_iff (hx : es.count x ≤ 1) (hmem : x ∈ es) :
    rank es x < rank es y ↔ Before es y x ∧ x ≠ y := by
  induction es with
  | nil => cases hmem
  | cons e es ih =>
    rw [before_cons]
    by_cases hex : e = x
    · subst hex
      have hnot : e ∉ es := by
        rw [List.count_cons_self] at hx
        exact List.count_eq_zero.1 (by omega)
      have hle := rank_le_length (e :: es) y
      rw [List.length_cons] at hle
      rw [rank_cons_self]
      refine iff_of_false (by omega) ?_
      rintro ⟨⟨-, h⟩ | h, -⟩
      · exact hnot h
      · exact hnot h.mem.2
    · have hmem' := (List.mem_cons.1 hmem).resolve_left (Ne.symm hex)
      have hx' : es.count x ≤ 1 := by rwa [List.count_cons_of_ne hex] at hx
      rw [rank_cons_of_ne _ hex]
      by_cases hey : e = y
      · subst hey
        rw [rank_cons_self]
        have hle := rank_le_length es x
        refine iff_of_true (by omega) ⟨.inl ⟨rfl, hmem'⟩, Ne.symm hex⟩
      · rw [rank_cons_of_ne _ hey, ih hx' hmem']
        have hye : y ≠ e := Ne.symm hey
        simp [hye]

/-- The order of entries is the same in a longer list. -/
theorem rank_lt_of_sublist (h : es.Sublist fs) (hx : fs.count x ≤ 1) (hmem : x ∈ es)
    (hlt : rank es x < rank es y) : rank fs x < rank fs y := by
  have hcount : es.count x ≤ 1 := Nat.le_trans (h.count_le x) hx
  obtain ⟨hbefore, hne⟩ := (rank_lt_iff hcount hmem).1 hlt
  exact (rank_lt_iff hx (h.subset hmem)).2 ⟨hbefore.trans h, hne⟩

/-! ## Starts in front of others -/

section
variable {m new : Marker} (hm : .start m ∈ es)
include hm

/-- A start that is put in front of another one takes its rank over. -/
theorem rank_insertStart_new (hnew : .start new ∉ es) :
    rank (MarkerLog.insertStart m new es) (.start new) = rank es (.start m) := by
  rcases MarkerLog.insertStart_cases m new es with ⟨hnot, -⟩ | ⟨later, older, hlater, rfl, h⟩
  · exact absurd hm hnot
  · have hne : Entry.start m ≠ .start new := by
      rintro he
      exact hnew (he ▸ hm)
    have hnot : Entry.start new ∉ later := fun hmem => hnew (List.mem_append_left _ hmem)
    rw [h, rank_append_of_notMem hnot, rank_append_of_notMem hlater, rank_cons_of_ne _ hne,
      rank_cons_self, rank_cons_self]

/-- The other start and all later entries move up. -/
theorem rank_insertStart (he : e ≠ .start new) :
    rank (MarkerLog.insertStart m new es) e =
      if rank es (.start m) ≤ rank es e then rank es e + 1 else rank es e := by
  rcases MarkerLog.insertStart_cases m new es with ⟨hnot, -⟩ | ⟨later, older, hlater, rfl, h⟩
  · exact absurd hm hnot
  · have hstart : rank (later ++ .start m :: older) (.start m) = older.length + 1 := by
      rw [rank_append_of_notMem hlater, rank_cons_self]
    rw [h, hstart]
    by_cases hmem : e ∈ later
    · rw [rank_append_of_mem hmem, rank_append_of_mem hmem, if_pos]
      · simp only [List.length_cons]
        omega
      · simp only [List.length_cons]
        omega
    · rw [rank_append_of_notMem hmem, rank_append_of_notMem hmem]
      by_cases hem : Entry.start m = e
      · subst hem
        rw [rank_cons_self, rank_cons_self, if_pos (Nat.le_refl _), List.length_cons]
      · have hle := rank_le_length older e
        rw [rank_cons_of_ne _ hem, rank_cons_of_ne _ hem, rank_cons_of_ne _ he.symm, if_neg]
        omega

end

end Descent
