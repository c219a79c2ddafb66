import Descent.Proofs.MarkerLog.Continuation
import Descent.Proofs.MarkerLog.Rank
import Descent.Proofs.MarkerLog.Rooted

/-!
# Logs whose markers do not cross

Between its start and its commitment the entries of a node make an interval of the log, and an open
marker has one without an end. A log is `Laminar` if of any two such intervals one is inside the
other, or they are apart, and the open markers are nested in the order in which they were opened. This
is what the operations keep that are done one inside the other: a marker is committed while no other
one is open behind it (`Laminar.commit`), and a node is put around a marker and all that is behind it
only where the marker is `Exposed`, with no open marker and no part of an older node behind its start
(`Laminar.enclose`).
-/

namespace Descent

namespace MarkerLog

variable {log log' : MarkerLog} {m x y : Marker} {p : Nat}

/-! ## Stages -/

theorem stage?_openAt (log : MarkerLog) (p : Nat) (x : Marker) :
    (log.openAt p).2.stage? x = if x = log.fresh then some .opened else log.stage? x := by
  split
  · next h =>
    subst h
    simp [stage?, openAt, info?, fresh]
  · next h =>
    have hne : x.number ≠ log.markers.size := fun hn => h (Marker.number_inj.1 hn)
    simp [stage?, openAt, info?, Array.getElem?_push, hne]

theorem stage?_wrap (log : MarkerLog) (m x : Marker) :
    (log.wrap m).2.stage? x = if x = log.fresh then some .opened else log.stage? x := by
  split
  · next h =>
    subst h
    simp [stage?, wrap, info?, fresh]
  · next h =>
    have hne : x.number ≠ log.markers.size := fun hn => h (Marker.number_inj.1 hn)
    simp [stage?, wrap, info?, Array.getElem?_push, hne]

theorem stage?_commit (hm : log.stage? m = some .opened) (kind : Kind)
    (error : Option SyntaxError) (p : Nat) (x : Marker) :
    (log.commit m kind error p).stage? x = if x = m then some .committed else log.stage? x := by
  split
  · next h =>
    subst h
    obtain ⟨info, hi, hs⟩ := Option.map_eq_some_iff.1 hm
    rw [stage?, info?_commit_self hi hs kind error p]
    rfl
  · next h => rw [stage?, info?_commit_of_ne (Ne.symm h), stage?]

theorem stage?_drop_of_ne (h : m ≠ x) : (log.drop m).stage? x = log.stage? x := by
  rw [stage?, info?_drop_of_ne h, stage?]

theorem stage?_drop_self (hm : log.stage? m = some .opened ∨ log.stage? m = some .committed) :
    (log.drop m).stage? m = some .dropped := by
  have hset (es : List Entry) :
      stage? ⟨setStage log.markers m .dropped, es⟩ m = some .dropped := by
    have hsome : ∃ info, log.markers[m.number]? = some info := by
      rcases hm with hm | hm
      · obtain ⟨info, hi, -⟩ := Option.map_eq_some_iff.1 hm
        exact ⟨info, hi⟩
      · obtain ⟨info, hi, -⟩ := Option.map_eq_some_iff.1 hm
        exact ⟨info, hi⟩
    obtain ⟨info, hi⟩ := hsome
    rw [stage?, info?, setStage_get, if_pos rfl, hi]
    rfl
  unfold drop
  rcases hm with hm | hm
  · rw [hm]
    exact hset _
  · rw [hm]
    exact hset _

/-- A marker that neither is open nor a node is not dropped. -/
theorem drop_eq_self (h : log.stage? m ≠ some .opened) (h' : log.stage? m ≠ some .committed) :
    log.drop m = log := by
  unfold drop
  split
  · next hm => exact absurd hm h
  · next hm => exact absurd hm h'
  · rfl

/-- Dropping brings no marker to another stage than `dropped`. -/
theorem stage?_of_drop {stage : MarkerStage} (hne : stage ≠ .dropped)
    (hx : (log.drop m).stage? x = some stage) : log.stage? x = some stage := by
  by_cases hmx : m = x
  · subst hmx
    by_cases hm : log.stage? m = some .opened ∨ log.stage? m = some .committed
    · rw [stage?_drop_self hm] at hx
      exact absurd (Option.some.inj hx).symm hne
    · rwa [drop_eq_self (fun h => hm (.inl h)) (fun h => hm (.inr h))] at hx
  · rwa [stage?_drop_of_ne hmx] at hx

theorem number_lt_of_stage? {stage : MarkerStage} (h : log.stage? x = some stage) :
    x.number < log.markers.size := by
  obtain ⟨info, hi, -⟩ := Option.map_eq_some_iff.1 h
  exact lt_size_of_info? hi

/-! ## Intervals -/

/-- The rank of the start of a marker. -/
def opens (log : MarkerLog) (m : Marker) : Nat := rank log.entries (.start m)

/-- The rank of the commitment of a marker. -/
def commits (log : MarkerLog) (m : Marker) : Nat := rank log.entries (.commit m)

theorem opens_drop (log : MarkerLog) (m x : Marker) : (log.drop m).opens x = log.opens x := by
  rcases entries_drop log m with he | ⟨prior, he⟩
  · rw [opens, he, opens]
  · rw [opens, he, rank_cons_of_ne _ Entry.noConfusion, opens]

theorem commits_drop (log : MarkerLog) (m x : Marker) :
    (log.drop m).commits x = log.commits x := by
  rcases entries_drop log m with he | ⟨prior, he⟩
  · rw [commits, he, commits]
  · rw [commits, he, rank_cons_of_ne _ Entry.noConfusion, commits]

theorem opens_le (log : MarkerLog) (m : Marker) : log.opens m ≤ log.entries.length :=
  rank_le_length ..

theorem commits_le (log : MarkerLog) (m : Marker) : log.commits m ≤ log.entries.length :=
  rank_le_length ..

theorem opens_pos_iff : 0 < log.opens m ↔ .start m ∈ log.entries := rank_pos_iff

theorem opens_inj (hx : .start x ∈ log.entries) (h : log.opens x = log.opens y) : x = y :=
  Entry.start.inj (rank_inj hx h)

namespace Sound

/-- A node is committed after its start. -/
theorem opens_lt_commits (h : log.Sound) (hm : log.stage? m = some .committed) :
    0 < log.opens m ∧ log.opens m < log.commits m := by
  have hhist := h.isCommitted_iff.1 (isCommitted_iff_stage?.2 hm)
  have hmem := h.start_mem_of_committed hm
  have hbefore : Before log.entries (.commit m) (.start m) := by
    have hsub : (log.history m).Sublist log.entries := List.filter_sublist
    rwa [hhist] at hsub
  exact ⟨opens_pos_iff.2 hmem,
    (rank_lt_iff (h.count_le_one (.start m)) hmem).2 ⟨hbefore, Entry.noConfusion⟩⟩

/-- Nothing is recorded yet of the marker that will be allocated next. -/
theorem start_fresh_notMem (h : log.Sound) : .start log.fresh ∉ log.entries := fun hmem =>
  Nat.lt_irrefl _ (h.known _ hmem)

end Sound

/-- Of the intervals of any two nodes one is inside the other, or they are apart; none has the start
of an open marker inside; and the open markers are in the order in which they were opened. -/
structure Laminar (log : MarkerLog) : Prop where
  nodes : ∀ x y, log.stage? x = some .committed → log.stage? y = some .committed →
    log.opens x < log.opens y → log.commits x < log.opens y ∨ log.commits y < log.commits x
  across : ∀ x o, log.stage? x = some .committed → log.stage? o = some .opened →
    log.opens x < log.opens o → log.commits x < log.opens o
  order : ∀ o o', log.stage? o = some .opened → log.stage? o' = some .opened →
    o.number < o'.number → log.opens o < log.opens o'

/-- All open markers are in front of the start of the marker, and no node reaches from in front of it
across it. -/
structure Exposed (log : MarkerLog) (x : Marker) : Prop where
  start : .start x ∈ log.entries
  nodes : ∀ y, log.stage? y = some .committed → log.opens y < log.opens x →
    log.commits y < log.opens x
  opened : ∀ o, log.stage? o = some .opened → log.opens o < log.opens x

namespace Laminar

theorem empty : Laminar {} where
  nodes _ _ h := by simp [stage?, info?] at h
  across _ _ h := by simp [stage?, info?] at h
  order _ _ h := by simp [stage?, info?] at h

theorem openAt (h : log.Laminar) (p : Nat) : (log.openAt p).2.Laminar := by
  have hopens (x : Marker) (hx : x ≠ log.fresh) : (log.openAt p).2.opens x = log.opens x :=
    rank_cons_of_ne _ fun he => hx (Entry.start.inj he).symm
  have hfresh : (log.openAt p).2.opens log.fresh = log.entries.length + 1 := rank_cons_self ..
  have hcommits (x : Marker) : (log.openAt p).2.commits x = log.commits x :=
    rank_cons_of_ne _ Entry.noConfusion
  have hold (x : Marker) (h : (log.openAt p).2.stage? x = some .committed) :
      log.stage? x = some .committed ∧ x ≠ log.fresh := by
    rw [stage?_openAt] at h
    split at h
    · cases h
    · next hx => exact ⟨h, hx⟩
  refine ⟨fun x y hx hy hlt => ?_, fun x o hx ho hlt => ?_, fun o o' ho ho' hlt => ?_⟩
  · obtain ⟨hx, hxf⟩ := hold x hx
    obtain ⟨hy, hyf⟩ := hold y hy
    rw [hopens x hxf, hopens y hyf] at hlt
    rw [hcommits, hcommits, hopens y hyf]
    exact h.nodes x y hx hy hlt
  · obtain ⟨hx, hxf⟩ := hold x hx
    rw [stage?_openAt] at ho
    split at ho
    · next hof =>
      have hle := log.commits_le x
      rw [hcommits, hof, hfresh]
      omega
    · next hof =>
      rw [hopens x hxf, hopens o hof] at hlt
      rw [hcommits, hopens o hof]
      exact h.across x o hx ho hlt
  · rw [stage?_openAt] at ho ho'
    split at ho
    · next hof =>
      -- no open marker is newer than the new one
      subst hof
      split at ho'
      · next hof' => exact absurd (congrArg Marker.number hof'.symm) (Nat.ne_of_lt hlt)
      · have hlt' := number_lt_of_stage? ho'
        exact absurd hlt' (Nat.not_lt.2 (Nat.le_of_lt hlt))
    · next hof =>
      split at ho'
      · next hof' =>
        have hle := log.opens_le o
        rw [hopens o hof, hof', hfresh]
        omega
      · next hof' =>
        rw [hopens o hof, hopens o' hof']
        exact h.order o o' ho ho' hlt

theorem drop (h : log.Laminar) (m : Marker) : (log.drop m).Laminar := by
  have hstage (x : Marker) {stage : MarkerStage} (hne : stage ≠ .dropped) :=
    @stage?_of_drop log m x stage hne
  refine ⟨fun x y hx hy => ?_, fun x o hx ho => ?_, fun o o' ho ho' => ?_⟩
  · rw [opens_drop, opens_drop, commits_drop, commits_drop]
    exact h.nodes x y (hstage x (by decide) hx) (hstage y (by decide) hy)
  · rw [opens_drop, opens_drop, commits_drop]
    exact h.across x o (hstage x (by decide) hx) (hstage o (by decide) ho)
  · rw [opens_drop, opens_drop]
    exact h.order o o' (hstage o (by decide) ho) (hstage o' (by decide) ho')

/-- An open marker is committed behind which no other one is open. -/
theorem commit (h : log.Laminar) (hm : log.stage? m = some .opened)
    (hlast : ∀ o, log.stage? o = some .opened → log.opens o ≤ log.opens m) (kind : Kind)
    (error : Option SyntaxError) (p : Nat) :
    (log.commit m kind error p).Laminar := by
  have hentries : (log.commit m kind error p).entries = .commit m :: log.entries := by
    rw [MarkerLog.commit, if_pos hm]
  have hopens (x : Marker) : (log.commit m kind error p).opens x = log.opens x := by
    rw [opens, hentries, rank_cons_of_ne _ Entry.noConfusion, opens]
  have hcommits (x : Marker) (hx : x ≠ m) :
      (log.commit m kind error p).commits x = log.commits x := by
    rw [commits, hentries, rank_cons_of_ne _ fun he => hx (Entry.commit.inj he).symm, commits]
  have hthis : (log.commit m kind error p).commits m = log.entries.length + 1 := by
    rw [commits, hentries, rank_cons_self]
  have hstage (x : Marker) := stage?_commit hm kind error p x
  refine ⟨fun x y hx hy hlt => ?_, fun x o hx ho hlt => ?_, fun o o' ho ho' hlt => ?_⟩
  · rw [hstage] at hx hy
    rw [hopens, hopens] at hlt
    rw [hopens]
    by_cases hxm : x = m
    · have hym : y ≠ m := by
        rintro rfl
        exact Nat.ne_of_lt hlt (congrArg log.opens hxm)
      have hle := log.commits_le y
      rw [hxm, hthis, hcommits y hym]
      omega
    · rw [if_neg hxm] at hx
      rw [hcommits x hxm]
      by_cases hym : y = m
      · exact .inl (h.across x y hx (hym ▸ hm) hlt)
      · rw [if_neg hym] at hy
        rw [hcommits y hym]
        exact h.nodes x y hx hy hlt
  · rw [hstage] at hx ho
    rw [hopens, hopens] at hlt
    rw [hopens]
    by_cases hom : o = m
    · rw [if_pos hom] at ho
      cases ho
    · rw [if_neg hom] at ho
      by_cases hxm : x = m
      · have hle := hlast o ho
        rw [← hxm] at hle
        omega
      · rw [if_neg hxm] at hx
        rw [hcommits x hxm]
        exact h.across x o hx ho hlt
  · rw [hstage] at ho ho'
    rw [hopens, hopens]
    split at ho
    · cases ho
    · split at ho'
      · cases ho'
      · exact h.order o o' ho ho' hlt

end Laminar

/-! ## Nodes around others -/

/-- Commits a node around a marker and all that is behind its start. -/
def enclose (log : MarkerLog) (x : Marker) (kind : Kind) (error : Option SyntaxError) (p : Nat) :
    MarkerLog :=
  (log.wrap x).2.commit log.fresh kind error p

section
variable (log : MarkerLog) (x y : Marker) (kind : Kind) (error : Option SyntaxError) (p : Nat)

theorem stage?_enclose : (log.enclose x kind error p).stage? y =
    if y = log.fresh then some .committed else log.stage? y := by
  have hopen : (log.wrap x).2.stage? log.fresh = some .opened := by
    rw [stage?_wrap, if_pos rfl]
  rw [enclose, stage?_commit hopen, stage?_wrap]
  split <;> rfl

theorem entries_enclose : (log.enclose x kind error p).entries =
    .commit log.fresh :: insertStart x log.fresh log.entries := by
  have hopen : (log.wrap x).2.stage? log.fresh = some .opened := by
    rw [stage?_wrap, if_pos rfl]
  rw [enclose, commit, if_pos hopen]
  rfl

variable {log x y} (hx : .start x ∈ log.entries)
include hx

theorem opens_enclose_fresh (hs : log.Sound) :
    (log.enclose x kind error p).opens log.fresh = log.opens x := by
  rw [opens, entries_enclose, rank_cons_of_ne _ Entry.noConfusion,
    rank_insertStart_new hx hs.start_fresh_notMem, opens]

theorem opens_enclose (hy : y ≠ log.fresh) : (log.enclose x kind error p).opens y =
    if log.opens x ≤ log.opens y then log.opens y + 1 else log.opens y := by
  rw [opens, entries_enclose, rank_cons_of_ne _ Entry.noConfusion,
    rank_insertStart hx fun he => hy (Entry.start.inj he)]
  rfl

theorem commits_enclose (hy : y ≠ log.fresh) : (log.enclose x kind error p).commits y =
    if log.opens x ≤ log.commits y then log.commits y + 1 else log.commits y := by
  rw [commits, entries_enclose, rank_cons_of_ne _ fun he => hy (Entry.commit.inj he).symm,
    rank_insertStart hx Entry.noConfusion]
  rfl

omit hx in
theorem commits_enclose_fresh :
    (log.enclose x kind error p).commits log.fresh = log.entries.length + 2 := by
  rw [commits, entries_enclose, rank_cons_self]
  rcases insertStart_cases x log.fresh log.entries with ⟨-, h⟩ | ⟨later, older, -, hes, h⟩
  · rw [h, List.length_cons]
  · rw [h, hes]
    simp only [List.length_append, List.length_cons]
    omega

end

/-- A node is put around an exposed marker. -/
theorem Laminar.enclose (h : log.Laminar) (hs : log.Sound) (hx : log.Exposed x) (kind : Kind)
    (error : Option SyntaxError) (p : Nat) : (log.enclose x kind error p).Laminar := by
  have hstage (y : Marker) := stage?_enclose log x y kind error p
  have hopens {y : Marker} := @opens_enclose log x y kind error p hx.start
  have hcommits {y : Marker} := @commits_enclose log x y kind error p hx.start
  have hopensFresh := opens_enclose_fresh kind error p hx.start hs
  have hcommitsFresh := @commits_enclose_fresh log x kind error p
  refine ⟨fun y z hy hz hlt => ?_, fun y o hy ho hlt => ?_, fun o o' ho ho' hlt => ?_⟩
  · rw [hstage] at hy hz
    by_cases hyf : y = log.fresh
    · have hzf : z ≠ log.fresh := by
        rintro rfl
        rw [hyf] at hlt
        exact Nat.lt_irrefl _ hlt
      have hle := log.commits_le z
      rw [hyf, hcommitsFresh, hcommits hzf]
      split <;> omega
    · rw [if_neg hyf] at hy
      by_cases hzf : z = log.fresh
      · rw [hzf, hopensFresh, hopens hyf] at hlt
        rw [hzf, hopensFresh, hcommits hyf]
        have hnode := hx.nodes y hy
        grind
      · rw [if_neg hzf] at hz
        rw [hopens hyf, hopens hzf] at hlt
        rw [hcommits hyf, hcommits hzf, hopens hzf]
        have hyz := h.nodes y z hy hz
        grind
  · rw [hstage] at hy ho
    have hof : o ≠ log.fresh := by
      rintro rfl
      rw [if_pos rfl] at ho
      cases ho
    rw [if_neg hof] at ho
    have hle := hx.opened o ho
    by_cases hyf : y = log.fresh
    · rw [hyf, hopensFresh, hopens hof, if_neg (by omega)] at hlt
      omega
    · rw [if_neg hyf] at hy
      rw [hopens hyf, hopens hof] at hlt
      rw [hcommits hyf, hopens hof]
      have hyo := h.across y o hy ho
      grind
  · rw [hstage] at ho ho'
    split at ho
    · cases ho
    · next hof =>
      split at ho'
      · cases ho'
      · next hof' =>
        rw [hopens hof, hopens hof']
        have hoo' := h.order o o' ho ho' hlt
        grind

end MarkerLog

end Descent
