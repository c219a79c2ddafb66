import Descent.Proofs.MarkerLog.Continuation
import Descent.Proofs.MarkerLog.Outermost

/-!
# Where errors start

Errors are apart if no two markers that are committed with one start at the same position
(`MarkerLog.ErrorsApart`). Of what can be done to a log only a new error can bring two of them
together: all else leaves every error where another one was, even if that is widened
(`MarkerLog.ErrorsFrom`). What is committed is one more error at most (`MarkerLog.OneMoreError`).
-/

namespace Descent

namespace MarkerLog

variable {log log' log₁ : MarkerLog} {m x y : Marker}

/-- No two errors start at the same position. -/
def ErrorsApart (log : MarkerLog) : Prop :=
  ∀ m x, log.IsError m → log.IsError x → log.start m = log.start x → m = x

/-- Every error has taken the place of another one that started at the same position. -/
def ErrorsFrom (log log' : MarkerLog) : Prop :=
  ∃ place : Marker → Marker,
    (∀ x, log'.IsError x → log.IsError (place x) ∧ log.start (place x) = log'.start x) ∧
      ∀ x y, log'.IsError x → log'.IsError y → place x = place y → x = y

theorem ErrorsFrom.trans (h : log.ErrorsFrom log₁) (h' : log₁.ErrorsFrom log') :
    log.ErrorsFrom log' := by
  obtain ⟨place, hplace, hinj⟩ := h
  obtain ⟨place', hplace', hinj'⟩ := h'
  refine ⟨place ∘ place', fun x hx => ?_, fun x y hx hy heq => hinj' x y hx hy ?_⟩
  · obtain ⟨hx', hstart'⟩ := hplace' x hx
    obtain ⟨hx, hstart⟩ := hplace _ hx'
    exact ⟨hx, hstart.trans hstart'⟩
  · exact hinj _ _ (hplace' x hx).1 (hplace' y hy).1 heq

/-- Errors may go. -/
theorem errorsFrom_of_isError
    (h : ∀ x, log'.IsError x → log.IsError x ∧ log.start x = log'.start x) : log.ErrorsFrom log' :=
  ⟨id, h, fun _ _ _ _ heq => heq⟩

theorem ErrorsFrom.refl (log : MarkerLog) : log.ErrorsFrom log :=
  errorsFrom_of_isError fun _ hx => ⟨hx, rfl⟩

theorem ErrorsApart.of_errorsFrom (h : log.ErrorsApart) (hfrom : log.ErrorsFrom log') :
    log'.ErrorsApart := by
  obtain ⟨place, hplace, hinj⟩ := hfrom
  intro x y hx hy heq
  obtain ⟨hpx, hsx⟩ := hplace x hx
  obtain ⟨hpy, hsy⟩ := hplace y hy
  exact hinj x y hx hy (h _ _ hpx hpy (by rw [hsx, hsy, heq]))

/-! ## What brings no error -/

theorem isError_congr (hi : log'.info? x = log.info? x) : log'.IsError x ↔ log.IsError x := by
  rw [IsError, IsError, isCommitted, isCommitted, stage?, stage?, error?, error?, hi]

theorem start_congr (hi : log'.info? x = log.info? x) : log'.start x = log.start x := by
  rw [start, start, hi]

/-- It is enough to know one marker that is no error. -/
theorem errorsFrom_of_ne (hm : ¬ log'.IsError m) (hi : ∀ x, m ≠ x → log'.info? x = log.info? x) :
    log.ErrorsFrom log' := by
  refine errorsFrom_of_isError fun x hx => ?_
  have hne : m ≠ x := fun he => hm (he ▸ hx)
  exact ⟨(isError_congr (hi x hne)).1 hx, (start_congr (hi x hne)).symm⟩

theorem info?_openAt_of_ne (h : log.fresh ≠ x) (p : Nat) :
    (log.openAt p).2.info? x = log.info? x := by
  simp only [openAt, info?, Array.getElem?_push]
  exact if_neg fun hn => h (Marker.number_inj.1 hn).symm

theorem errorsFrom_openAt (log : MarkerLog) (p : Nat) : log.ErrorsFrom (log.openAt p).2 := by
  refine errorsFrom_of_ne (m := log.fresh) (fun h => ?_) fun x hx => info?_openAt_of_ne hx p
  simp [IsError, isCommitted, stage?, info?, openAt, fresh] at h

theorem errorsFrom_wrap (log : MarkerLog) (m : Marker) : log.ErrorsFrom (log.wrap m).2 := by
  refine errorsFrom_of_ne (m := log.fresh) (fun h => ?_) fun x hx => info?_wrap_of_ne hx m
  simp [IsError, isCommitted, stage?, info?, wrap, fresh] at h

theorem errorsFrom_drop (log : MarkerLog) (m : Marker) : log.ErrorsFrom (log.drop m) :=
  errorsFrom_of_ne (fun h => ((isError_drop log m m).1 h).2 rfl) fun _ hx => info?_drop_of_ne hx

/-- A node without an error is committed, or nothing is. -/
theorem errorsFrom_commit (log : MarkerLog) (m : Marker) (kind : Kind) (p : Nat) :
    log.ErrorsFrom (log.commit m kind none p) := by
  by_cases hs : log.stage? m = some .opened
  · obtain ⟨info, hi, hopened⟩ := Option.map_eq_some_iff.1 hs
    refine errorsFrom_of_ne (m := m) (fun h => ?_) fun x hx => info?_commit_of_ne hx ..
    have herror := h.2
    rw [error?, info?_commit_self hi hopened] at herror
    cases herror
  · rw [commit, if_neg hs]
    exact .refl log

/-- What was done since a marker was opened is taken back, the errors with it. -/
theorem errorsFrom_rollback {p q : Nat} (hlog : log.Sound)
    (h : (log.openAt p).2.Continues log₁) (hr : log₁.rollback log.fresh = some (q, log')) :
    log.ErrorsFrom log' := by
  have hsince := h.since log p hlog (.intro hlog p)
  obtain ⟨-, hbrackets, hinfo⟩ := hsince.restore hlog hr
  have hsound := h.sound.rollback hr
  refine errorsFrom_of_isError fun x hx => ?_
  have hmem : .start x ∈ log'.brackets := by
    have hstart := hsound.start_mem_of_committed (isCommitted_iff_stage?.1 hx.1)
    exact List.mem_filter.2 ⟨List.mem_reverse.2 hstart, hx.1⟩
  rw [hbrackets] at hmem
  have hcommitted : log.isCommitted x = true := isCommitted_of_shapes (List.mem_filter.1 hmem).2
  have hi := hinfo x hcommitted
  exact ⟨(isError_congr hi).1 hx, (start_congr hi).symm⟩

/-- A node put around an error takes its place if the error is dropped. -/
theorem errorsFrom_replace (hm : log.IsError m) (kind : Kind) (error : Option SyntaxError) (p : Nat) :
    log.ErrorsFrom (((log.wrap m).2.commit log.fresh kind error p).drop m) := by
  let log' := ((log.wrap m).2.commit log.fresh kind error p).drop m
  have hne : m ≠ log.fresh := by
    rintro rfl
    have herror := hm.2
    rw [error?_fresh] at herror
    cases herror
  have hdropped (x : Marker) (hx : log'.IsError x) : m ≠ x := ((isError_drop _ m x).1 hx).2
  have hi (x : Marker) (hfresh : x ≠ log.fresh) (hx : m ≠ x) : log'.info? x = log.info? x := by
    rw [info?_drop_of_ne hx, info?_commit_of_ne hfresh.symm, info?_wrap_of_ne hfresh.symm]
  have hstart : log'.start log.fresh = log.start m := by
    have hwrapped : (log.wrap m).2.info? log.fresh =
        some { start := log.start m, stop := log.start m } := by
      simp [wrap, info?, fresh]
    rw [start, info?_drop_of_ne hne, info?_commit_self hwrapped rfl]
    rfl
  refine ⟨fun x => if x = log.fresh then m else x, fun x hx => ?_, fun x y hx hy heq => ?_⟩
  · dsimp only
    split
    · next hfresh =>
      subst hfresh
      exact ⟨hm, hstart.symm⟩
    · next hfresh =>
      have hsame := hi x hfresh (hdropped x hx)
      exact ⟨(isError_congr hsame).1 hx, (start_congr hsame).symm⟩
  · have hx := hdropped x hx
    have hy := hdropped y hy
    grind

/-! ## A new error -/

/-- A new error is the only one that was not there before. -/
theorem isError_insertError (log : MarkerLog) (p q : Nat) (error : SyntaxError) :
    let log' := (log.openAt p).2.commit log.fresh .error (some error) q
    (log'.IsError log.fresh ∧ log'.start log.fresh = p) ∧
      ∀ x, log'.IsError x → x = log.fresh ∨ log.IsError x ∧ log'.start x = log.start x := by
  intro log'
  have hopened : (log.openAt p).2.info? log.fresh = some { start := p, stop := p } := by
    simp [openAt, info?, fresh]
  have hfresh := info?_commit_self hopened rfl .error (some error) q
  refine ⟨⟨⟨isCommitted_iff.2 ⟨_, hfresh, rfl⟩, ?_⟩, ?_⟩, fun x hx => ?_⟩
  · rw [error?, hfresh]
    rfl
  · rw [start, hfresh]
    rfl
  · by_cases hne : x = log.fresh
    · exact .inl hne
    · have hi : log'.info? x = log.info? x := by
        rw [info?_commit_of_ne (Ne.symm hne), info?_openAt_of_ne (Ne.symm hne)]
      exact .inr ⟨(isError_congr hi).1 hx, start_congr hi⟩

/-- It is apart from the others if none starts where it does. -/
theorem ErrorsApart.insertError (h : log.ErrorsApart) {p : Nat}
    (hp : ∀ x, log.IsError x → log.start x ≠ p) (error : SyntaxError) (q : Nat) :
    ((log.openAt p).2.commit log.fresh .error (some error) q).ErrorsApart := by
  obtain ⟨⟨-, hstart⟩, hcases⟩ := log.isError_insertError p q error
  intro x y hx hy heq
  rcases hcases x hx with rfl | ⟨hex, hsx⟩
  · rcases hcases y hy with rfl | ⟨hey, hsy⟩
    · rfl
    · exact absurd (hsy.symm.trans (heq.symm.trans hstart)) (hp y hey)
  · rcases hcases y hy with rfl | ⟨hey, hsy⟩
    · exact absurd (hsx.symm.trans (heq.trans hstart)) (hp x hex)
    · exact h x y hex hey (hsx.symm.trans (heq.trans hsy))

/-! ## One more error -/

/-- Every error, but for one that may be new, has taken the place of another one that started at the same
position. -/
def OneMoreError (log log' : MarkerLog) : Prop :=
  ∃ (m : Marker) (place : Marker → Marker),
    (∀ x, log'.IsError x → x ≠ m → log.IsError (place x) ∧ log.start (place x) = log'.start x) ∧
      ∀ x y, log'.IsError x → log'.IsError y → x ≠ m → y ≠ m → place x = place y → x = y

theorem ErrorsFrom.oneMore (h : log.ErrorsFrom log') : log.OneMoreError log' := by
  obtain ⟨place, hplace, hinj⟩ := h
  exact ⟨log.fresh, place, fun x hx _ => hplace x hx, fun x y hx hy _ _ => hinj x y hx hy⟩

theorem OneMoreError.after (h : log.ErrorsFrom log₁) (h' : log₁.OneMoreError log') :
    log.OneMoreError log' := by
  obtain ⟨place, hplace, hinj⟩ := h
  obtain ⟨m, place', hplace', hinj'⟩ := h'
  refine ⟨m, place ∘ place', fun x hx hne => ?_, fun x y hx hy hxm hym heq =>
    hinj' x y hx hy hxm hym ?_⟩
  · obtain ⟨hx', hstart'⟩ := hplace' x hx hne
    obtain ⟨hx, hstart⟩ := hplace _ hx'
    exact ⟨hx, hstart.trans hstart'⟩
  · exact hinj _ _ (hplace' x hx hxm).1 (hplace' y hy hym).1 heq

theorem OneMoreError.before (h : log.OneMoreError log₁) (h' : log₁.ErrorsFrom log') :
    log.OneMoreError log' := by
  obtain ⟨m, place, hplace, hinj⟩ := h
  obtain ⟨place', hplace', hinj'⟩ := h'
  -- what has taken the place of the new one is the only one that may be new
  obtain ⟨n, hn⟩ : ∃ n, ∀ x, log'.IsError x → place' x = m → x = n := by
    by_cases hm : ∃ n, log'.IsError n ∧ place' n = m
    · obtain ⟨n, hn, rfl⟩ := hm
      exact ⟨n, fun x hx heq => hinj' x n hx hn heq⟩
    · exact ⟨m, fun x hx heq => absurd ⟨x, hx, heq⟩ hm⟩
  have hold (x : Marker) (hx : log'.IsError x) (hne : x ≠ n) : place' x ≠ m := fun heq => hne (hn x hx heq)
  refine ⟨n, place ∘ place', fun x hx hne => ?_, fun x y hx hy hxn hyn heq => hinj' x y hx hy ?_⟩
  · obtain ⟨hx', hstart'⟩ := hplace' x hx
    obtain ⟨hx'', hstart⟩ := hplace _ hx' (hold x hx hne)
    exact ⟨hx'', hstart.trans hstart'⟩
  · exact hinj _ _ (hplace' x hx).1 (hplace' y hy).1 (hold x hx hxn) (hold y hy hyn) heq

/-- Whatever is committed is one more error at most. -/
theorem oneMoreError_commit (log : MarkerLog) (m : Marker) (kind : Kind) (error : Option SyntaxError)
    (p : Nat) : log.OneMoreError (log.commit m kind error p) := by
  refine ⟨m, id, fun x hx hne => ?_, fun _ _ _ _ _ _ heq => heq⟩
  have hi : (log.commit m kind error p).info? x = log.info? x := info?_commit_of_ne (Ne.symm hne) ..
  exact ⟨(isError_congr hi).1 hx, (start_congr hi).symm⟩

end MarkerLog

end Descent
