import Descent.Proofs.Session.Turns

/-!
# Fatal errors of recovery

What recovery does to markers and sections raises no fatal error. Where the advancer is the default one,
every step over a token that is there moves ahead, so that no loop of recovery gets stuck, and a fatal
error can come only from the condition under which more is eaten (`Session.RaisedBy.settleErrors`).
-/

namespace Descent

/-- A run of the rule ends with a fatal error that was not there before. -/
def Runner.Raises (run : Runner) (rule : RuleRef) (a : Aborted) : Prop :=
  ∃ level s b s', run rule level s = some (b, s') ∧ s.aborted ≠ some a ∧ s'.aborted = some a

namespace Session

variable {g : Setup} {s s₁ s' : Session}

/-- The default advancer moves past every position at which there is a token. -/
theorem lt_stepOver {p : Nat} (hp : p ≤ s.position) (hsize : p < g.source.size) :
    p < (s.stepOver g).2.position := by
  have hle := g.le_significant s.position
  unfold stepOver
  dsimp only
  split
  · next hend =>
    have hnone : g.source.tokens[g.significant s.position]? = none := by
      simpa [isAtEnd, kindHere?, Source.kind?, toSignificant] using hend
    exact Nat.lt_of_lt_of_le hsize (List.getElem?_eq_none_iff.1 hnone)
  · simp only [toSignificant]
    omega

/-! ## Recovery -/

/-- From `s` to `s'` the session does not go back, and only the rule raises fatal errors. -/
structure RaisedBy (run : Runner) (rule : RuleRef) (s s' : Session) : Prop where
  position : s.position ≤ s'.position
  aborted : ∀ a, s'.aborted = some a → s.aborted = some a ∨ run.Raises rule a

variable {run : Runner} {rule : RuleRef}

theorem Smooth.raisedBy (h : Smooth s s') : RaisedBy run rule s s' :=
  ⟨h.position, fun _ ha => .inl (h.aborted.symm.trans ha)⟩

namespace RaisedBy

theorem refl (s : Session) : RaisedBy run rule s s := (Smooth.refl s).raisedBy

theorem trans (h : RaisedBy run rule s s₁) (h' : RaisedBy run rule s₁ s') :
    RaisedBy run rule s s' :=
  ⟨Nat.le_trans h.position h'.position, fun a ha =>
    (h'.aborted a ha).elim (h.aborted a) .inr⟩

theorem ask (hproceeds : run.Proceeds rule) {level : Nat} {b : Bool}
    (h : run rule level s = some (b, s')) : RaisedBy run rule s s' := by
  refine ⟨hproceeds.onward _ _ _ _ h, fun a ha => ?_⟩
  by_cases hs : s.aborted = some a
  · exact .inl hs
  · exact .inr ⟨level, s, b, s', h, hs, ha⟩

variable {rounds level : Nat} {kind : Option Kind} {result pinned b : Bool} {c c' : Grouping}

/-- Where nothing moves back, a step over a token that is there is one ahead. -/
theorem stepOver (run : Runner) (rule : RuleRef) (h : Smooth s s₁) :
    RaisedBy run rule s (s₁.stepOver g).2 ∧
      (s.position < g.source.size → s.position < (s₁.stepOver g).2.position) :=
  ⟨(h.trans (.stepOver g s₁)).raisedBy, lt_stepOver h.position⟩

section
variable (hadvancer : g.advancer = .advance) (hrun : run.Standard g)
include hadvancer hrun

theorem advance {t : Session} (h : run g.advancer level s = some (b, t)) :
    t = (s.stepOver g).2 ∧ b = (s.stepOver g).1 := by
  rw [hadvancer, hrun.advance] at h
  have heq := Option.some.inj h
  exact ⟨congrArg Prod.snd heq.symm, congrArg Prod.fst heq.symm⟩

/-- No round of skipping gets stuck, since there is a token before the last error. -/
theorem skipTurn (hrule : run.Proceeds rule) {name : String} {lastError : Nat}
    (hlast : lastError ≤ g.source.size) (x : Bool × Int × Session)
    (r : Turn (Bool × Int × Session) (Bool × Session))
    (h : skipTurn g run rule name level lastError x = some r) :
    r.Holds (RaisedBy run rule x.2.2 ·.2.2) (RaisedBy run rule x.2.2 ·.2) fun _ => False := by
  obtain ⟨more, depth, s⟩ := x
  have hseek : RaisedBy run rule s (s.toSignificant g) := (Smooth.toSignificant g s).raisedBy
  simp only [Session.skipTurn] at h
  split at h
  · split at h
    · cases h
      exact hseek
    · obtain ⟨⟨b₁, t⟩, ht, h⟩ := Option.bind_eq_some_iff.1 h
      obtain ⟨rfl, -⟩ := advance hadvancer hrun ht
      obtain ⟨hstep, hahead⟩ := stepOver (g := g) run rule
        (.refl (s.toSignificant g))
      have hmoved := hahead (by omega)
      dsimp only at h
      rw [if_neg (by omega)] at h
      obtain ⟨⟨b₂, u⟩, hu, h⟩ := Option.bind_eq_some_iff.1 h
      cases h
      exact (hseek.trans hstep).trans (.ask hrule hu)
  · cases h
    exact .refl _

theorem skipRun (hrule : run.Proceeds rule) {name : String} {lastError : Nat}
    (hlast : lastError ≤ g.source.size) {more : Bool} {depth : Int}
    (h : s.skipRun g run rule name level lastError rounds more depth = some (b, s')) :
    RaisedBy run rule s s' := by
  rw [skipRun_eq_goRound] at h
  refine goRound_of_holds (I := fun x => RaisedBy run rule s x.2.2)
    (J := fun z => RaisedBy run rule s z.2) (fun x r hx hr => ?_) (.refl s) h
  exact (skipTurn hadvancer hrun hrule hlast x r hr).mono (fun _ => hx.trans) (fun _ => hx.trans)
    fun _ => False.elim

theorem reportSwallowingFor {frame frame' : Frame}
    (h : s.reportSwallowingFor g run frame = some (b, frame', s')) : RaisedBy run rule s s' := by
  obtain ⟨⟨p, t⟩, ht, h⟩ := Option.bind_eq_some_iff.1 h
  have hs' : t = s' := by cases p <;> cases h <;> rfl
  subst hs'
  unfold reportSwallowing at ht
  split at ht
  · cases ht
    exact .refl s
  · dsimp only [Option.bind_eq_bind] at ht
    generalize (s.toSignificant g).errorHere g _ = error at ht
    obtain ⟨⟨b₁, u⟩, hu, ht⟩ := Option.bind_eq_some_iff.1 ht
    obtain ⟨rfl, -⟩ := advance hadvancer hrun hu
    cases ht
    refine Smooth.raisedBy ?_
    exact ((((Smooth.toSignificant g s).trans (.note ..)).trans (.openMarker ..)).trans
      (.stepOver ..)).trans ((Smooth.commit ..).trans (.toSignificant ..))

/-! ## Grouping -/

theorem delimiterStep {kind : Kind} {pair : Delimiters}
    (h : s.delimiterStep g run level kind pair c = some (c', s')) :
    RaisedBy run rule s s' ∧ (s.position < g.source.size → s.position < s'.position) := by
  simp only [Session.delimiterStep] at h
  have hclose := Smooth.closeCurrent s kind c
  generalize Session.closeCurrent kind c s = x₁ at h hclose
  generalize hx₂ : (if s.kindHere? g = some pair.opening then _ else x₁) = x₂ at h
  have hopen : Smooth s x₂.2 := by
    rw [← hx₂]
    split
    · exact hclose.trans (.openMarker g x₁.2)
    · exact hclose
  have hfold := hopen.trans (.foldFull g x₂.2 kind x₂.1)
  generalize Session.foldFull g kind x₂.1 x₂.2 = x₃ at h hfold
  obtain ⟨⟨b, t⟩, ht, h⟩ := Option.bind_eq_some_iff.1 h
  obtain ⟨rfl, -⟩ := advance hadvancer hrun ht
  obtain ⟨hstep, hahead⟩ := stepOver (g := g) run rule hfold
  split at h
  · split at h
    · cases h
      exact ⟨hstep, hahead⟩
    · next region regions _ =>
      have hclosed : Smooth (x₃.2.stepOver g).2 s' := by
        obtain rfl : _ = s' := congrArg Prod.snd (Option.some.inj h)
        exact (Smooth.commitAs _ region.marker kind).trans (.foldFull ..)
      exact ⟨hstep.trans hclosed.raisedBy, fun hsize =>
        Nat.lt_of_lt_of_le (hahead hsize) hclosed.position⟩
  · cases h
    exact ⟨hstep, hahead⟩

omit hadvancer in
theorem itemStep (hrule : run.Proceeds rule)
    (h : s.itemStep g run level .advance rule c = some (b, c', s')) :
    RaisedBy run rule s s' ∧ (b = true → s.position < s'.position) := by
  rw [itemStep_eq] at h
  have hopen : RaisedBy run rule s (s.openCurrent g c).2 := (Smooth.openCurrent g s c).raisedBy
  obtain ⟨⟨more, t⟩, hmore, h⟩ := Option.bind_eq_some_iff.1 h
  have ht : RaisedBy run rule s t := by
    split at hmore
    · exact hopen.trans (.ask hrule hmore)
    · cases hmore
      exact hopen
  obtain ⟨⟨parsed, u⟩, hparsed, h⟩ := Option.bind_eq_some_iff.1 h
  have hu : RaisedBy run rule s u ∧ (parsed = true → s.position < u.position) := by
    split at hparsed
    · rw [hrun.advance] at hparsed
      have hstep : RaisedBy run rule t (t.stepOver g).2 := (Smooth.stepOver g t).raisedBy
      obtain rfl : (t.stepOver g).2 = u := congrArg Prod.snd (Option.some.inj hparsed)
      refine ⟨ht.trans hstep, fun hp => ?_⟩
      rcases stepOver_cases g t with ⟨hlt, -⟩ | heq
      · exact Nat.lt_of_le_of_lt ht.position (lt_stepOver (Nat.le_refl _) hlt)
      · rw [heq] at hparsed
        cases hparsed
        cases hp
    · cases hparsed
      exact ⟨ht, fun hp => nomatch hp⟩
  split at h
  · next hp =>
    cases h
    exact ⟨hu.1, fun _ => hu.2 hp⟩
  · cases h
    exact ⟨hu.1, fun hp => nomatch hp⟩

/-- A round of grouping that is complete has moved ahead. -/
theorem roundStep (hrule : run.Proceeds rule) {kind : Kind} {pair? : Option Delimiters}
    (h : s.roundStep g run level kind pair? .advance rule c = some (b, c', s')) :
    RaisedBy run rule s s' ∧ (b = true → s.position < s'.position) := by
  unfold Session.roundStep at h
  split at h
  · next pair hpair =>
    obtain ⟨⟨c₁, s₁⟩, hstep, heq⟩ := Option.map_eq_some_iff.1 h
    cases heq
    obtain ⟨hraised, hahead⟩ := delimiterStep hadvancer hrun hstep
    refine ⟨hraised, fun _ => hahead (lt_size_of_isAtEnd ?_)⟩
    have hhere := (Option.filter_eq_some_iff.1 hpair).2
    unfold isAtEnd
    cases hk : s.kindHere? g with
    | some k => rfl
    | none => simp [hk] at hhere
  · exact itemStep hrun hrule h

/-- Nor does a round of grouping get stuck. -/
theorem groupTurn (hrule : run.Proceeds rule) {kind : Kind} {pair? : Option Delimiters}
    (x : Grouping × Session) (r : Turn (Grouping × Session) (Grouping × Session))
    (h : groupTurn g run level kind pair? .advance rule x = some r) :
    r.Holds (RaisedBy run rule x.2 ·.2) (RaisedBy run rule x.2 ·.2) fun _ => False := by
  obtain ⟨c, s⟩ := x
  have hseek : RaisedBy run rule s (s.toSignificant g) := (Smooth.toSignificant g s).raisedBy
  simp only [Session.groupTurn] at h
  obtain ⟨⟨parsed, c₁, s₁⟩, hstep, h⟩ := Option.bind_eq_some_iff.1 h
  obtain ⟨hround, hahead⟩ := roundStep hadvancer hrun hrule hstep
  split at h
  · cases h
    exact hseek.trans hround
  · next hparsed =>
    have hfold := Smooth.foldIfFull g s₁ kind c₁
    have hlt := hahead (by simpa using hparsed)
    have hle := hseek.position
    have hle' := hfold.position
    simp only [guardProgress, if_pos (show s.position ≠ (s₁.foldIfFull g kind c₁).2.position by
      omega)] at h
    cases h
    exact (hseek.trans hround).trans hfold.raisedBy

theorem groupRun (hrule : run.Proceeds rule) {kind : Kind} {minds : Bool}
    (h : s.groupRun g run rounds level kind minds .advance rule = some (b, s')) :
    RaisedBy run rule s s' := by
  rw [groupRun_eq] at h
  generalize (if minds then g.language.delimiters.head? else none) = pair? at h
  obtain ⟨⟨c, t⟩, ht, h⟩ := Option.bind_eq_some_iff.1 h
  obtain ⟨-, rfl⟩ := Prod.mk.inj (Option.some.inj h)
  rw [groupItems_eq_goRound] at ht
  have hitems := goRound_of_holds (I := fun x => RaisedBy run rule s x.2)
    (J := fun z => RaisedBy run rule s z.2) (fun x r hx hr =>
      (groupTurn hadvancer hrun hrule x r hr).mono (fun _ => hx.trans) (fun _ => hx.trans)
        fun _ => False.elim) (Smooth.firstRegions g s pair?).raisedBy ht
  exact hitems.trans ((Smooth.dropOpen t c).trans (.note ..)).raisedBy

/-! ## Leaving a section -/

theorem reportSkipped (hrule : run.Proceeds rule) {frame frame' : Frame} {initial : Nat}
    {eatsFirst more : Bool} (h : s.reportSkipped g run rounds frame kind result pinned rule initial
      eatsFirst more = some (b, frame', s')) : RaisedBy run rule s s' := by
  refine reportSkipped_keeps (fun rule' hrule' level t c t' hs ht => ?_)
    (fun _ _ _ => reportSwallowingFor hadvancer hrun)
    (fun _ _ _ hs ht => hs.trans (groupRun hadvancer hrun hrule (hadvancer ▸ ht)))
    (fun inner force => (Smooth.reportFor g s frame inner force).raisedBy) (.refl s) h
  rcases hrule' with rfl | rfl
  · obtain ⟨rfl, -⟩ := advance hadvancer hrun ht
    exact hs.trans (Smooth.stepOver g t).raisedBy
  · exact hs.trans (.ask hrule ht)

theorem recover (hrule : run.Proceeds rule) {frame frame' : Frame} {initial lastError : Nat}
    (hlast : lastError ≤ g.source.size) (h : s.recover g run rounds frame kind result pinned rule
      initial lastError = some (frame', s')) : RaisedBy run rule s s' := by
  have hseek : RaisedBy run rule s ({ s with quiet := true }.toSignificant g) :=
    Smooth.raisedBy { Smooth.toSignificant g s with }
  obtain ⟨eatsFirst, t, starts, more, u, reported, frame₁, v, last, ht, hu, hv, -, hend⟩ :=
    exists_stages h
  have hfirst : RaisedBy run rule s t := by
    rcases ht with ⟨-, rfl⟩ | ht
    · exact hseek
    · exact hseek.trans (.ask hrule ht)
  have hskip := hfirst.trans (skipRun hadvancer hrun hrule hlast hu)
  have hnote := hskip.trans (Smooth.note u (.skipped u.position lastError more)).raisedBy
  have hreport := hnote.trans (reportSkipped hadvancer hrun hrule hv)
  have hquiet : RaisedBy run rule s { v.widenOver last frame₁.position with quiet := false } :=
    hreport.trans (Smooth.raisedBy { Smooth.widenOver v last frame₁.position with })
  rcases hend with heq | heq
  · cases heq
    exact hquiet
  · obtain ⟨-, rfl⟩ := Prod.mk.inj heq
    exact hquiet.trans (Smooth.raisedBy { Smooth.refl _ with })

/-- Leaving a section with a condition under which more is eaten raises no fatal error but those of
that condition. -/
theorem settleErrors (hrule : run.Proceeds rule) {frame : Frame} (hframe : frame.InBounds g)
    (hs : s.InBounds g)
    (h : s.settleErrors g run rounds frame kind result pinned (some rule) = some s') :
    RaisedBy run rule s s' := by
  have hframe₁ := Acts.inBounds_attemptsByName hs hframe (.refl s : s.Acts g true s) kind
    (result || pinned)
  have hname : RaisedBy run rule s (s.attemptsByName g frame kind (result || pinned)).2 :=
    (Smooth.attemptsByName g s frame kind (result || pinned)).raisedBy
  obtain ⟨frame', t, rfl, hcases⟩ := settleErrors_cases h
  refine hname.trans (.trans ?_ (Smooth.modifyFrame t _).raisedBy)
  obtain ⟨rule', hrule', -, hrecover⟩ | ⟨-, -, rfl⟩ | ⟨-, rfl⟩ := hcases
  · cases hrule'
    exact recover hadvancer hrun hrule hframe₁.errorPosition hrecover
  · exact (Smooth.reportPinned ..).raisedBy
  · exact .refl _

end

end RaisedBy

end Session

end Descent
