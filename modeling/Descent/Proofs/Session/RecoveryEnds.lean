import Descent.Proofs.Session.Turns

/-!
# Recovery ends

The loops of recovery end in as many rounds as there are tokens, and one more. So with more rounds than
tokens recovery itself does (`Session.arrives_recover`), and a section that is left with a condition under
which more is eaten is left in the end (`Session.arrives_settleErrors`), if the condition and the advancer
end and never go back. They need to do so only further in than the section is, and only where something
holds that lasts.
-/

namespace Descent.Session

variable {g : Setup} {run : Runner} {s : Session} {rounds level : Nat} {eatMore item : RuleRef}
  {frame : Frame}

/-- Where a section is left, the frame and the session stay in the source. -/
theorem inBounds_shape {frame : Frame} {frames : List Frame} (hs : s.InBounds g)
    (hframes : s.frames = frame :: frames) (m : Marker) (kind : Option Kind) (result pinned : Bool) :
    (s.shape g frame frames m kind result pinned).1.InBounds g ∧
      (s.shape g frame frames m kind result pinned).2.InBounds g := by
  obtain ⟨hframe, hrest⟩ := List.forall_mem_cons.1 (hframes ▸ hs.frames)
  refine ⟨Acts.inBounds_shapeSection hframe ⟨hs.position, hs.starts, hrest⟩, ?_⟩
  have hacts : s.Acts g false (s.shape g frame frames m kind result pinned).2 :=
    .shape hframes kind result pinned
  exact hacts.inBounds hs

/-- The level at which a section was entered stays with its frame. -/
theorem level_attemptsByName (g : Setup) (s : Session) (frame : Frame) (kind : Option Kind)
    (stays : Bool) : (s.attemptsByName g frame kind stays).1.level = frame.level := by
  unfold attemptsByName
  split
  · rfl
  · dsimp only
    generalize (if kind.isSome then g.limits.nameSlack else 0) = slack
    split
    · split <;> rfl
    · rfl

section
variable {I : Session → Prop} (hI : Lasting g I)
include hI

theorem arrives_groupRun (minds : Bool) (hitem : run.ProceedsIn I item (level + 1))
    (heat : run.ProceedsIn I eatMore (level + 1))
    (hadvancer : minds = true → g.language.delimiters ≠ [] → run.ProceedsIn I g.advancer level)
    (hrounds : g.source.size < rounds) (kind : Kind) (hs : I s) :
    Arrives (I ·.2) (s.groupRun g run rounds level kind minds item eatMore) := by
  have hpair : (if minds then g.language.delimiters.head? else none).isSome = true →
      run.ProceedsIn I g.advancer level := by
    intro h
    split at h
    · next hminds => exact hadvancer hminds fun hnil => by simp [hnil] at h
    · cases h
  rw [groupRun_eq]
  generalize (if minds then g.language.delimiters.head? else none) = pair? at hpair ⊢
  have hfirst := hI.smooth hs (.firstRegions g s pair?) (.firstRegions g pair? s)
  refine (arrives_groupItems hI hitem heat hpair hrounds kind _ hfirst).bind fun x _ hx => .some ?_
  have hdropped := hI.smooth hx (.dropOpen x.2 x.1) (.dropOpen x.1 x.2)
  exact hI.goesOn hdropped (.note _ rfl)

variable (hacts : run.Acts g false)
  (hadvancer : ∀ level, frame.level < level → run.ProceedsIn I g.advancer level)
include hacts hadvancer

theorem arrives_reportSwallowingFor (hframe : frame.InBounds g) (hs : I s) :
    Arrives (fun x => I x.2.2 ∧ x.2.1.InBounds g) (s.reportSwallowingFor g run frame) := by
  have hreport : Arrives (I ·.2) (s.reportSwallowing g run (frame.level + 1)) := by
    refine .ite (fun _ => .some hs) fun haborted => ?_
    dsimp only [Option.bind_eq_bind]
    generalize herror : (s.toSignificant g).errorHere g _ = error
    generalize hnoted : (s.toSignificant g).note _ = noted
    have hnote : I noted := by
      rw [← hnoted, ← herror]
      exact hI.smooth (hI.seek hs) (.note ..) (.reported _ _ _ (Bool.eq_false_iff.2 haborted)
        (significant_significant g s.position))
    have hmem : .errorReported (s.toSignificant g).position error true false ∈ noted.trace := by
      rw [← hnoted]
      exact List.mem_cons_self
    have hopened := hI.smooth hnote (.openMarker g noted) (.openMarker noted)
    refine (hadvancer _ (Nat.lt_succ_self _) _ hopened).bind fun x hx hx' => .some ?_
    have hopen : noted.Acts g false (noted.openMarker g).2 := .openMarker noted
    have hstep := hacts _ _ _ _ _ (hI.inBounds hopened) hx
    have hseen : x.2.HasSeen error :=
      (hopen.trans hstep).hasSeen (herror ▸ LeadsTo.errorHere_isSyntaxError ..) hmem
    exact hI.seek (hI.smooth hx'.1 (.commit ..) (.commitError _ hseen))
  refine hreport.bind fun x _ hx => ?_
  obtain ⟨position?, t⟩ := x
  cases position? with
  | none => exact .some ⟨hx, hframe⟩
  | some position => exact .some ⟨hx, { hframe with }⟩

variable (heat : ∀ level, frame.level < level → run.ProceedsIn I eatMore level)
  (hrounds : g.source.size < rounds)
include heat hrounds

theorem arrives_reportSkipped (hframe : frame.InBounds g) (kind : Option Kind) (result pinned : Bool)
    (initial : Nat) (eatsFirst more : Bool) (hs : I s) :
    Arrives (fun x => I x.2.2 ∧ x.2.1.InBounds g)
      (s.reportSkipped g run rounds frame kind result pinned eatMore initial eatsFirst more) := by
  have hfor (inner force : Bool) : I (s.reportFor g frame inner force).2.2 ∧
      (s.reportFor g frame inner force).2.1.InBounds g :=
    (Acts.reportFor g hframe inner force s).imp_left (hI.smooth hs (.reportFor ..))
  simp only [reportSkipped, Option.bind_eq_bind, ← bind_ite]
  refine .ite (fun _ => ?_) fun _ => .ite (fun _ => .some (hfor ..)) fun _ =>
    .ite (fun _ => .some (hfor ..)) fun _ => .some ⟨hs, hframe⟩
  -- what is skipped next is reported, or stepped over if it has been; the rest is grouped
  refine Arrives.bind (Q := fun x => I x.2.2 ∧ x.2.1.InBounds g) ?_ fun x _ hx => ?_
  · refine .ite (fun _ => arrives_reportSwallowingFor hI hacts hadvancer hframe hs) fun _ => ?_
    refine .ite (fun _ => ?_) fun _ => .some ⟨hs, hframe⟩
    exact (hadvancer _ (Nat.lt_succ_self _) _ hs).map fun y hy => ⟨hy.1, hframe⟩
  · refine .ite (fun _ => .some hx) fun _ => ?_
    refine (heat _ (Nat.lt_succ_self _) _ hx.1).bind fun y _ hy => ?_
    refine .ite (fun _ => ?_) fun _ => .some ⟨hy.1, hx.2⟩
    refine (arrives_groupRun hI true (hadvancer _ (by omega)) (heat _ (by omega))
      (fun _ _ => hadvancer _ (by omega)) hrounds .chunk hy.1).bind fun z _ hz => ?_
    exact .some ⟨hz, hx.2⟩

theorem arrives_recover (hframe : frame.InBounds g) (kind : Option Kind) (result pinned : Bool)
    (initial lastError : Nat) (hs : I s) : Arrives (fun x => I x.2 ∧ x.1.InBounds g)
      (s.recover g run rounds frame kind result pinned eatMore initial lastError) := by
  have hlevel := Nat.lt_succ_self frame.level
  have hquiet {u : Session} (hu : I u) (quiet : Bool) : I { u with quiet } :=
    hI.smooth hu { Smooth.refl u with } (.still (.quiet u quiet))
  have hseek := hI.seek (hquiet hs true)
  simp only [recover, Option.bind_eq_bind, ← bind_ite]
  have hfirst : Arrives (I ·.2) (if ({ s with quiet := true }.toSignificant g).isAtEnd g then
      some (false, { s with quiet := true }.toSignificant g)
      else run eatMore (frame.level + 1) ({ s with quiet := true }.toSignificant g)) :=
    .ite (fun _ => .some hseek) fun _ => (heat _ hlevel _ hseek).mono fun _ hx => hx.1
  refine hfirst.bind fun x _ hx => ?_
  refine (arrives_skipRun hI (hadvancer _ hlevel) (heat _ hlevel) hrounds _ lastError _ 0 hx).bind
    fun y _ hy => ?_
  refine (arrives_reportSkipped hI hacts hadvancer heat hrounds hframe kind result pinned initial x.1
    y.1 (hI.goesOn hy (.note y.2 rfl))).bind fun z _ hz => ?_
  generalize (if (pinned || result) && (g.widensAlways || kind.isSome) && x.1 then
    x.2.log.lastWidenable? else none) = last
  have hwide := hI.smooth hz.1 (.widenOver z.2.2 last z.2.1.position) (.widenOver ..)
  refine .ite (fun _ => .some ⟨?_, ?_⟩) fun _ => .some ⟨hquiet hwide false, hz.2⟩
  · exact hI.smooth (hquiet hwide false) (.clearAttempts ..) (.still (.clearAttempts ..))
  · exact ⟨hz.2.position, fun _ hp => by cases hp⟩

omit heat hrounds in
/-- A section is left in the end, whether there is anything to recover from or not. -/
theorem arrives_settleErrors {eatMore : Option RuleRef}
    (heat : ∀ rule, eatMore = some rule → ∀ level, frame.level < level → run.ProceedsIn I rule level)
    (hrounds : g.source.size < rounds) (hframe : frame.InBounds g) (kind : Option Kind)
    (result pinned : Bool) (hs : I s) :
    Arrives I (s.settleErrors g run rounds frame kind result pinned eatMore) := by
  rw [settleErrors_eq]
  have hname := hI.smooth hs (.attemptsByName g s frame kind (result || pinned))
    (.still (.attemptsByName ..))
  have hframe₁ := Acts.inBounds_attemptsByName (hI.inBounds hs) hframe (.refl s : s.Acts g false s)
    kind (result || pinned)
  have hlevel := level_attemptsByName g s frame kind (result || pinned)
  generalize s.attemptsByName g frame kind (result || pinned) = x at hname hframe₁ hlevel ⊢
  rw [← hlevel] at hadvancer heat
  refine Arrives.bind (Q := fun y => I y.2 ∧ y.1.InBounds g) ?_ fun y _ hy => .some ?_
  · unfold settleFrame
    split
    · next rule hrule =>
      have hmore : eatMore = some rule := by
        split at hrule
        · cases hrule
        · exact hrule
      exact arrives_recover hI hacts hadvancer (heat rule hmore) hrounds hframe₁ kind result pinned _ _
        hname
    · refine .some ?_
      split
      · exact (Acts.reportPinned hframe₁ kind _ _ x.2).imp_left (hI.smooth hname (.reportPinned ..))
      · exact ⟨hname, hframe₁⟩
  · refine hI.smooth hy.1 (.modifyFrame ..) (.modifyFrame ?_ ?_ y.2)
    · exact fun _ => rfl
    · exact fun _ hx => hx.absorb hy.2

end

section
variable (hacts : run.Acts g false) (hadvancer : run.Proceeds g.advancer)
  (heat : run.Proceeds eatMore) (hrounds : g.source.size < rounds)
include hacts hadvancer heat hrounds

theorem ends_groupRun (hitem : run.Proceeds item) (hs : s.InBounds g) (level : Nat) (kind : Kind)
    (minds : Bool) : ∃ x, s.groupRun g run rounds level kind minds item eatMore = some x := by
  obtain ⟨x, hx, -⟩ := arrives_groupRun .source minds (hitem.proceedsIn hacts (level + 1))
    (heat.proceedsIn hacts _) (fun _ _ => hadvancer.proceedsIn hacts _) hrounds kind hs
  exact ⟨x, hx⟩

/-- A section is left in the end if the rules end anywhere. -/
theorem ends_settleErrors (hs : s.InBounds g) (hframe : frame.InBounds g) (kind : Option Kind)
    (result pinned : Bool) :
    ∃ s', s.settleErrors g run rounds frame kind result pinned (some eatMore) = some s' := by
  obtain ⟨s', hs', -⟩ := arrives_settleErrors .source hacts
    (fun level _ => hadvancer.proceedsIn hacts level)
    (fun rule h level _ => Option.some.inj h ▸ heat.proceedsIn hacts level) hrounds hframe kind result
    pinned hs
  exact ⟨s', hs'⟩

end

end Descent.Session
