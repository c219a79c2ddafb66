import Descent.Proofs.Session.GivenBack
import Descent.Proofs.Session.Seeking
import Descent.Proofs.Session.Sequences
import Descent.Proofs.Source.Significant

/-!
# What a sequence tries

A sequence tries its kinds in order, each at the significant token that the one before has left. Until the
sequence is pinned it ends with the first kind that the token does not have. Behind the pin such a kind is
passed over, so that each is tried once (`Session.consumeKinds_tries`).
-/

namespace Descent

/-! ## Trials -/

/-- A kind that is tried at a significant token, and whether the token has it. -/
structure Trial where
  kind : Kind
  position : Nat
  hit : Bool
  deriving DecidableEq, Repr

namespace Trial

/-- Where the next trial begins: behind the token, if it has the kind. -/
def next (t : Trial) : Nat := if t.hit then t.position + 1 else t.position

/-- Where trials come to that begin at a position. -/
def behind (p : Nat) (ts : List Trial) : Nat := ts.foldl (fun _ t => t.next) p

/-- The trials up to the first that fails. -/
def upToMiss : List Trial → List Trial
  | [] => []
  | t :: ts => if t.hit then t :: upToMiss ts else [t]

theorem upToMiss_prefix (ts : List Trial) : upToMiss ts <+: ts := by
  induction ts with
  | nil => exact List.prefix_refl []
  | cons t ts ih =>
    unfold upToMiss
    split
    · exact List.cons_prefix_cons.2 ⟨rfl, ih⟩
    · exact List.cons_prefix_cons.2 ⟨rfl, List.nil_prefix⟩

/-- Trials that do not fail are the first ones, and so is the one that fails behind them. -/
theorem upToMiss_of_take {ts : List Trial} {n : Nat} (hn : n < ts.length)
    (hhits : ∀ t ∈ ts.take n, t.hit = true) (hmiss : ¬∀ t ∈ ts.take (n + 1), t.hit = true) :
    upToMiss ts = ts.take (n + 1) ∧ (upToMiss ts).countP (·.hit) = n := by
  induction ts generalizing n with
  | nil => exact absurd hn (Nat.not_lt_zero n)
  | cons t ts ih =>
    cases n with
    | zero =>
      have ht : t.hit = false := by simpa using hmiss
      simp [upToMiss, ht]
    | succ n =>
      rw [List.take_succ_cons, List.forall_mem_cons] at hhits hmiss
      obtain ⟨htake, hcount⟩ := ih (Nat.lt_of_succ_lt_succ hn) hhits.2 fun h => hmiss ⟨hhits.1, h⟩
      rw [upToMiss, if_pos hhits.1, htake]
      rw [htake] at hcount
      exact ⟨rfl, by rw [List.countP_cons_of_pos hhits.1, hcount]⟩

theorem behind_append (p : Nat) (ts us : List Trial) : behind p (ts ++ us) = behind (behind p ts) us :=
  List.foldl_append

end Trial

namespace Setup

variable {g : Setup} {p q : Nat} {kind : Kind} {kinds : List Kind}

/-- The significant tokens from a position on. -/
def ahead (g : Setup) (p : Nat) : List Token := (g.source.tokens.drop p).filter g.language.isSignificant

/-- Their kinds. -/
def kindsAhead (g : Setup) (p : Nat) : List Kind := (g.ahead p).map (·.kind)

theorem tokensBefore_append_ahead (g : Setup) (p : Nat) :
    g.tokensBefore p ++ g.ahead p = g.source.tokens.filter g.language.isSignificant := by
  rw [tokensBefore, ahead, ← List.filter_append, List.take_append_drop]

theorem ahead_significant (g : Setup) (p : Nat) : g.ahead (g.significant p) = g.ahead p := by
  have hall := (g.tokensBefore_append_ahead (g.significant p)).trans (g.tokensBefore_append_ahead p).symm
  rw [tokensBefore_significant] at hall
  exact List.append_cancel_left hall

/-- The next significant token is the first one ahead. -/
theorem ahead_eq (g : Setup) (p : Nat) :
    g.ahead p = g.source.tokens[g.significant p]?.elim [] (· :: g.ahead (g.significant p + 1)) := by
  rw [← ahead_significant]
  cases ht : g.source.tokens[g.significant p]? with
  | none =>
    rw [ahead, List.drop_eq_nil_of_le (List.getElem?_eq_none_iff.1 ht)]
    rfl
  | some t =>
    obtain ⟨hlt, rfl⟩ := List.getElem?_eq_some_iff.1 ht
    have hsignificant : g.language.isSignificant g.source.tokens[g.significant p] = true := by
      simpa [(g.significant_spec p).1] using (isTriviaAt_eq ht).symm
    rw [ahead, List.drop_eq_getElem_cons hlt, List.filter_cons_of_pos hsignificant]
    rfl

/-- A kind is tried at the next significant token. -/
def trial (g : Setup) (p : Nat) (kind : Kind) : Trial :=
  ⟨kind, g.significant p, g.source.kind? (g.significant p) == some kind⟩

/-- Kinds are tried in order, each once. -/
def trials (g : Setup) : Nat → List Kind → List Trial
  | _, [] => []
  | p, kind :: kinds => g.trial p kind :: g.trials (g.trial p kind).next kinds

theorem trials_congr (h : g.significant p = g.significant q) (kinds : List Kind) :
    g.trials p kinds = g.trials q kinds := by
  cases kinds with
  | nil => rfl
  | cons kind kinds => simp only [trials, trial, h]

theorem significant_behind (h : g.significant p = g.significant q) (ts : List Trial) :
    g.significant (Trial.behind p ts) = g.significant (Trial.behind q ts) := by
  cases ts with
  | nil => exact h
  | cons t ts => rfl

theorem map_kind_trials (g : Setup) (p : Nat) (kinds : List Kind) :
    (g.trials p kinds).map (·.kind) = kinds := by
  induction kinds generalizing p with
  | nil => rfl
  | cons kind kinds ih => rw [trials, List.map_cons, ih]; rfl

/-- A trial succeeds if its kind is the first one ahead, and takes it. -/
theorem trial_spec (g : Setup) (p : Nat) (kind : Kind) :
    if (g.trial p kind).hit then g.ahead (g.trial p kind).next = (g.ahead p).tail ∧
        g.kindsAhead p = kind :: g.kindsAhead (g.trial p kind).next
    else g.ahead (g.trial p kind).next = g.ahead p ∧ (g.kindsAhead p).head? ≠ some kind := by
  have hkind : g.source.kind? (g.significant p) = (g.kindsAhead p).head? := by
    rw [kindsAhead, ahead_eq, Source.kind?]
    cases g.source.tokens[g.significant p]? <;> rfl
  split
  · next hhit =>
    have hhead : (g.kindsAhead p).head? = some kind := hkind ▸ eq_of_beq hhit
    have hahead := g.ahead_eq p
    rw [Trial.next, if_pos hhit]
    show g.ahead (g.significant p + 1) = _ ∧ _ = kind :: g.kindsAhead (g.significant p + 1)
    unfold kindsAhead at hhead ⊢
    cases ht : g.source.tokens[g.significant p]? with
    | none =>
      rw [hahead, ht] at hhead
      cases hhead
    | some t =>
      rw [hahead, ht] at hhead
      obtain rfl := Option.some.inj hhead
      rw [hahead, ht]
      exact ⟨rfl, rfl⟩
  · next hmiss =>
    rw [Trial.next, if_neg hmiss]
    exact ⟨g.ahead_significant p, fun hhead => hmiss (beq_iff_eq.2 (hkind.trans hhead))⟩

theorem hit_trial_iff {tail : List Kind} :
    (g.trial p kind).hit = true ∧ tail <+: g.kindsAhead (g.trial p kind).next ↔
      kind :: tail <+: g.kindsAhead p := by
  have hahead := g.trial_spec p kind
  split at hahead
  · next hhit => rw [hahead.2, List.cons_prefix_cons]; simp [hhit]
  · next hmiss =>
    refine ⟨fun h => absurd h.1 hmiss, fun ⟨rest, h⟩ => absurd ?_ hahead.2⟩
    rw [← h]
    rfl

/-- The first trials succeed if the first kinds come next. -/
theorem hits_iff_prefix (n : Nat) :
    (∀ t ∈ (g.trials p kinds).take n, t.hit = true) ↔ kinds.take n <+: g.kindsAhead p := by
  induction kinds generalizing p n with
  | nil => simp [trials]
  | cons kind kinds ih =>
    cases n with
    | zero => simp
    | succ n => rw [trials, List.take_succ_cons, List.forall_mem_cons, List.take_succ_cons, ih, hit_trial_iff]

/-- Each success takes one significant token. -/
theorem ahead_behind {ts : List Trial} (h : ts <+: g.trials p kinds) :
    g.ahead (Trial.behind p ts) = (g.ahead p).drop (ts.countP (·.hit)) := by
  induction kinds generalizing p ts with
  | nil =>
    rw [trials, List.prefix_nil] at h
    subst h
    rfl
  | cons kind kinds ih =>
    cases ts with
    | nil => rfl
    | cons t ts =>
      obtain ⟨rfl, hts⟩ := List.cons_prefix_cons.1 h
      have hahead := g.trial_spec p kind
      show g.ahead (Trial.behind (g.trial p kind).next ts) = _
      rw [ih hts]
      split at hahead
      · next hhit => rw [List.countP_cons_of_pos hhit, hahead.1, List.drop_tail]
      · next hmiss => rw [List.countP_cons_of_neg hmiss, hahead.1]

/-- Whether a sequence gets pinned that is at the kind with an index, at a position: all kinds before the one
with the index of the pin come next. The first kind of a sequence pins none. -/
def reaches (g : Setup) (pin : Pin) (index p : Nat) (kinds : List Kind) : Prop :=
  match pin with
  | .after i => 0 < i ∧ index ≤ i ∧ i < index + kinds.length ∧ kinds.take (i - index) <+: g.kindsAhead p
  | .none | .report => False

instance (g : Setup) (pin : Pin) (index p : Nat) (kinds : List Kind) :
    Decidable (g.reaches pin index p kinds) :=
  match pin with
  | .after _ => inferInstanceAs (Decidable (_ ∧ _))
  | .none | .report => .isFalse id

/-- What a sequence tries. It goes on behind a kind that fails only if it gets pinned. -/
def tried (g : Setup) (pin : Pin) (index p : Nat) (kinds : List Kind) : List Trial :=
  if g.reaches pin index p kinds then g.trials p kinds else Trial.upToMiss (g.trials p kinds)

theorem reaches_of_pin {index : Nat} (h : 0 < index) :
    g.reaches (.after index) index p (kind :: kinds) :=
  ⟨h, Nat.le_refl _, by simp, by simp⟩

/-- Before the pin a sequence gets pinned if the kind succeeds and what follows gets pinned. -/
theorem reaches_cons {pin : Pin} {index : Nat} (h : ¬(0 < index ∧ pin = .after index)) :
    g.reaches pin index p (kind :: kinds) ↔
      (g.trial p kind).hit = true ∧ g.reaches pin (index + 1) (g.trial p kind).next kinds := by
  cases pin with
  | none => exact ⟨False.elim, And.right⟩
  | report => exact ⟨False.elim, And.right⟩
  | after i =>
    by_cases hi : index = i
    · subst hi
      exact ⟨fun ⟨hpos, _⟩ => absurd ⟨hpos, rfl⟩ h, fun ⟨_, _, hlt, _⟩ => absurd hlt (Nat.not_succ_le_self _)⟩
    · by_cases hle : index ≤ i
      · have hsub : i - index = i - (index + 1) + 1 := by omega
        simp only [reaches, hsub, List.take_succ_cons, List.length_cons, ← hit_trial_iff]
        constructor
        · rintro ⟨hpos, -, hlt, hhit, htake⟩
          exact ⟨hhit, hpos, by omega, by omega, htake⟩
        · rintro ⟨hhit, hpos, -, hlt, htake⟩
          exact ⟨hpos, hle, by omega, hhit, htake⟩
      · exact ⟨fun ⟨_, h, _⟩ => absurd h hle, fun ⟨_, _, h, _⟩ => absurd h (by omega)⟩

/-- What a sequence tries that is not at its pin: the kind, and what follows if it succeeds. -/
theorem tried_cons {pin : Pin} {index : Nat} (h : ¬(0 < index ∧ pin = .after index)) :
    g.tried pin index p (kind :: kinds) = g.trial p kind ::
      if (g.trial p kind).hit then g.tried pin (index + 1) (g.trial p kind).next kinds else [] := by
  unfold tried
  by_cases hhit : (g.trial p kind).hit = true
  · simp only [reaches_cons h, hhit, true_and, if_true, trials, Trial.upToMiss]
    split <;> rfl
  · simp only [reaches_cons h, hhit, false_and, if_false, trials, Trial.upToMiss, Bool.false_eq_true]

theorem kindsAhead_congr (h : g.significant p = g.significant q) : g.kindsAhead p = g.kindsAhead q := by
  rw [kindsAhead, ← ahead_significant, h, ahead_significant, kindsAhead]

theorem reaches_congr (h : g.significant p = g.significant q) (pin : Pin) (index : Nat) (kinds : List Kind) :
    g.reaches pin index p kinds = g.reaches pin index q kinds := by
  unfold reaches
  rw [kindsAhead_congr h]

theorem tried_congr (h : g.significant p = g.significant q) (pin : Pin) (index : Nat) (kinds : List Kind) :
    g.tried pin index p kinds = g.tried pin index q kinds := by
  unfold tried
  simp only [reaches_congr h, trials_congr h]

theorem tried_prefix (g : Setup) (pin : Pin) (index p : Nat) (kinds : List Kind) :
    g.tried pin index p kinds <+: g.trials p kinds := by
  unfold tried
  split
  · exact List.prefix_refl _
  · exact Trial.upToMiss_prefix _

end Setup

/-! ## Runs of trials -/

/-- The attempts with those of trials recorded. -/
def Attempts.recordTrials (a : Attempts) (isExpected : Bool) (ts : List Trial) : Attempts :=
  ts.foldl (fun a t => a.push isExpected ⟨t.position, .token t.kind⟩) a

namespace Session

variable {g : Setup} {silent : Bool} {pin : Pin} {index : Nat} {kind : Kind} {kinds : List Kind}
  {ts us : List Trial} {s s' t : Session}

/-- From `s` to `s'` kinds have been tried. Each is recorded if tests are, but maybe the first. -/
structure Tries (g : Setup) (silent : Bool) (s : Session) (ts : List Trial) (s' : Session) : Prop where
  position : g.significant s'.position = g.significant (Trial.behind s.position ts)
  lookahead : s'.lookahead = s.lookahead
  quiet : s'.quiet = s.quiet
  aborted : s'.aborted = s.aborted
  attempts : silent = false →
    s'.attempts = if s.records g then s.attempts.recordTrials s.lookahead.positive ts else s.attempts

namespace Tries

theorem refl (s : Session) : Tries g silent s [] s :=
  ⟨rfl, rfl, rfl, rfl, fun _ => by split <;> rfl⟩

theorem isAborted (h : Tries g silent s ts s') : s'.isAborted = s.isAborted := by
  rw [Session.isAborted, h.aborted, Session.isAborted]

theorem records (h : Tries g silent s ts s') : s'.records g = s.records g := by
  rw [Session.records, h.quiet, h.lookahead, Session.records]

theorem trans (h : Tries g silent s ts s') (h' : Tries g silent s' us t) :
    Tries g silent s (ts ++ us) t where
  position := by rw [h'.position, Setup.significant_behind h.position, Trial.behind_append]
  lookahead := h'.lookahead.trans h.lookahead
  quiet := h'.quiet.trans h.quiet
  aborted := h'.aborted.trans h.aborted
  attempts hsilent := by
    rw [h'.attempts hsilent, h.records, h.lookahead, h.attempts hsilent]
    split
    · rw [Attempts.recordTrials, Attempts.recordTrials, Attempts.recordTrials, List.foldl_append]
    · rfl

/-- What tries nothing goes no further than to the next significant token. -/
theorem of_seeks (h : Seeks g s s') (hattempts : s'.attempts = s.attempts) : Tries g silent s [] s' where
  position := by rw [h.position, significant_significant]; rfl
  lookahead := h.lookahead
  quiet := h.quiet
  aborted := h.aborted
  attempts _ := by rw [hattempts]; split <;> rfl

end Tries

theorem take_eq (hs : s.isAborted = false) (kind : Kind) : s.take g kind =
    ((g.trial s.position kind).hit, { s with position := (g.trial s.position kind).next }) := by
  have hpeek : s.peek g kind = ((g.trial s.position kind).hit, s.toSignificant g) := by
    unfold peek peekAny
    rw [hs, if_neg Bool.false_ne_true]
    show ((g.source.kind? (g.significant s.position)).any [kind].contains, s.toSignificant g) =
      (g.source.kind? (g.significant s.position) == some kind, s.toSignificant g)
    cases g.source.kind? (g.significant s.position) with
    | none => rfl
    | some k => exact congrArg (·, s.toSignificant g) (by simp [Bool.beq_eq_decide_eq])
  unfold take Trial.next
  rw [hpeek]
  cases (g.trial s.position kind).hit <;> rfl

theorem tries_take (hs : s.isAborted = false) (kind : Kind) :
    Tries g true s [g.trial s.position kind] (s.take g kind).2 := by
  rw [take_eq hs]
  exact ⟨rfl, rfl, rfl, rfl, fun h => by cases h⟩

theorem consume_eq (hs : s.isAborted = false) (kind : Kind) : s.consume g kind =
    ((g.trial s.position kind).hit,
      { s.expect g (.token kind) with position := (g.trial s.position kind).next }) := by
  have hseeks := Seeks.expect g (.token kind) s
  have htrial : g.trial (s.expect g (.token kind)).position kind = g.trial s.position kind := by
    simp only [Setup.trial, hseeks.position, significant_significant]
  unfold consume
  rw [hs, if_neg Bool.false_ne_true, take_eq (hseeks.isAborted.trans hs), htrial]

theorem tries_consume (hs : s.isAborted = false) (kind : Kind) :
    Tries g false s [g.trial s.position kind] (s.consume g kind).2 := by
  have hseeks := Seeks.expect g (.token kind) s
  rw [consume_eq hs]
  exact ⟨rfl, hseeks.lookahead, hseeks.quiet, hseeks.aborted, fun _ => attempts_expect g (.token kind) s⟩

/-! ### Reports -/

namespace Tries

/-- What is done to the markers and to the innermost frame tries nothing. -/
theorem of_same (hposition : s'.position = s.position) (hlookahead : s'.lookahead = s.lookahead)
    (hquiet : s'.quiet = s.quiet) (haborted : s'.aborted = s.aborted) (hattempts : s'.attempts = s.attempts) :
    Tries g silent s [] s' where
  position := congrArg g.significant hposition
  lookahead := hlookahead
  quiet := hquiet
  aborted := haborted
  attempts _ := by rw [hattempts]; split <;> rfl

theorem toSignificant (g : Setup) (s : Session) : Tries g silent s [] (s.toSignificant g) :=
  .of_seeks (.toSignificant g s) rfl

theorem insertError (g : Setup) (error : SyntaxError) (s : Session) :
    Tries g silent s [] (s.insertError g error) := by
  have hopen : Tries g silent s [] (s.openMarker g).2 :=
    (toSignificant g s).trans (.of_same rfl rfl rfl rfl rfl)
  refine hopen.trans ?_
  unfold Session.insertError Session.commit
  dsimp only
  split <;> exact .of_same rfl rfl rfl rfl rfl

theorem reportInFrame (g : Setup) (site : Nat) (s : Session) :
    Tries g silent s [] (s.reportInFrame g site false) := by
  have hreport : Tries g silent s [] (s.report g site false true).2 := by
    unfold Session.report
    split
    · exact refl s
    · simp only [Bool.not_true, Bool.false_and, Bool.false_eq_true, if_false]
      have hnote (e : Event) : Tries g silent s [] ((s.toSignificant g).note e) :=
        (toSignificant g s).trans (.of_same rfl rfl rfl rfl rfl)
      exact ((hnote _).trans (insertError g _ _)).trans (toSignificant g _)
  unfold Session.reportInFrame
  split
  · next hr =>
    rw [hr] at hreport
    exact hreport.trans (.of_same rfl rfl rfl rfl rfl)
  · next hr =>
    rw [hr] at hreport
    exact hreport

theorem reportHere (g : Setup) (s : Session) : Tries g silent s [] (s.reportHere g) := by
  have hseek : Tries g silent s [] (s.toSignificant g) := toSignificant g s
  unfold Session.reportHere
  dsimp only
  split
  · exact hseek.trans (.of_same rfl rfl rfl rfl rfl)
  · split
    · exact hseek.trans (reportInFrame g _ _)
    · exact hseek

end Tries

/-! ## Sequences -/

/-- One kind of a sequence is tried, and a failure may be reported. -/
def tryOne (g : Setup) (silent reports : Bool) (kind : Kind) (s : Session) : Bool × Session :=
  let one := if silent then s.take g kind else s.consume g kind
  (one.1, if !one.1 && reports then one.2.reportHere g else one.2)

theorem consumeRest_cons {result pinned pinned' : Bool}
    (hpin : (if 0 < index && pin == .after index then result else pinned) = pinned')
    (hgoes : (result || pinned') = true) :
    s.consumeRest g silent pin index result pinned (kind :: kinds) =
      (s.tryOne g (silent && index == 0) (pin == .report || pinned') kind).2.consumeRest g silent pin (index + 1)
        (result && (s.tryOne g (silent && index == 0) (pin == .report || pinned') kind).1) pinned' kinds := by
  simp only [consumeRest, hpin, hgoes, if_true]
  rfl

theorem tryOne_tries (hs : s.isAborted = false) (silent first reports : Bool) (kind : Kind) :
    (s.tryOne g (silent && first) reports kind).1 = (g.trial s.position kind).hit ∧
      Tries g silent s [g.trial s.position kind] (s.tryOne g (silent && first) reports kind).2 := by
  unfold tryOne
  have hone : (if silent && first then s.take g kind else s.consume g kind).1 =
        (g.trial s.position kind).hit ∧
      Tries g silent s [g.trial s.position kind]
        (if silent && first then s.take g kind else s.consume g kind).2 := by
    split
    · next hsilent =>
      rw [(Bool.and_eq_true_iff.1 hsilent).1]
      exact ⟨by rw [take_eq hs], tries_take hs kind⟩
    · have htries := tries_consume (g := g) hs kind
      exact ⟨by rw [consume_eq hs], { htries with attempts := fun _ => htries.attempts rfl }⟩
  generalize (if silent && first then s.take g kind else s.consume g kind) = one at hone
  refine ⟨hone.1, ?_⟩
  dsimp only
  split
  · exact hone.2.trans (.reportHere g one.2)
  · exact hone.2

theorem log_tryOne (first : Bool) (kind : Kind) (s : Session) : (s.tryOne g first false kind).2.log = s.log := by
  unfold tryOne
  simp only [Bool.and_false, Bool.false_eq_true, if_false]
  exact (calm_consumeOne first kind s).log

/-- Behind the pin every kind is tried. -/
theorem consumeRest_pinned (hs : s.isAborted = false) (silent : Bool) {result : Bool} (kinds : List Kind)
    (hindex : ∀ n, pin = .after n → n ≤ index ∧ (n = index → result = true)) :
    (s.consumeRest g silent pin index result true kinds).1 = true ∧
      Tries g silent s (g.trials s.position kinds) (s.consumeRest g silent pin index result true kinds).2 := by
  induction kinds generalizing index result s with
  | nil => exact ⟨rfl, .refl s⟩
  | cons kind kinds ih =>
    have hpin : (if 0 < index && pin == .after index then result else true) = true := by
      split
      · next h => exact (hindex index (eq_of_beq (Bool.and_eq_true_iff.1 h).2)).2 rfl
      · rfl
    obtain ⟨-, hone⟩ := tryOne_tries (g := g) hs silent (index == 0) (pin == .report || true) kind
    rw [consumeRest_cons hpin (Bool.or_true result)]
    obtain ⟨hanswer, hrest⟩ := ih (hone.isAborted.trans hs) fun n hn =>
      have hle := (hindex n hn).1
      ⟨Nat.le_succ_of_le hle, fun heq => absurd (heq ▸ hle) (Nat.not_succ_le_self index)⟩
    rw [Setup.trials_congr hone.position] at hrest
    exact ⟨hanswer, hone.trans hrest⟩

/-- What a sequence tries that has not been pinned, and whether it succeeds. -/
theorem consumeRest_tries (hs : s.isAborted = false) (silent : Bool) (pin : Pin) (kinds : List Kind)
    (hindex : ∀ n, pin = .after n → 0 < n → index ≤ n) :
    ((s.consumeRest g silent pin index true false kinds).1 = true ↔
      kinds <+: g.kindsAhead s.position ∨ g.reaches pin index s.position kinds) ∧
    Tries g silent s (g.tried pin index s.position kinds)
      (s.consumeRest g silent pin index true false kinds).2 ∧
    (pin ≠ .report → ¬g.reaches pin index s.position kinds →
      (s.consumeRest g silent pin index true false kinds).2.log = s.log) := by
  induction kinds generalizing index s with
  | nil =>
    have htried : g.tried pin index s.position [] = [] := List.prefix_nil.1 (g.tried_prefix ..)
    rw [htried]
    exact ⟨by simp [consumeRest], .refl s, fun _ _ => rfl⟩
  | cons kind kinds ih =>
    by_cases hat : 0 < index ∧ pin = .after index
    · -- the sequence gets pinned here
      obtain ⟨hpos, rfl⟩ := hat
      have hpin (pinned : Bool) :
          (if 0 < index && Pin.after index == .after index then true else pinned) = true := by simp [hpos]
      have hreaches : g.reaches (.after index) index s.position (kind :: kinds) := Setup.reaches_of_pin hpos
      have hpinned := consumeRest_pinned (g := g) hs silent (kind :: kinds)
        fun n (hn : Pin.after index = .after n) =>
          ⟨Nat.le_of_eq (Pin.after.inj hn).symm, fun _ => Eq.refl true⟩
      rw [consumeRest_cons (hpin true) rfl, ← consumeRest_cons (hpin false) rfl] at hpinned
      rw [Setup.tried, if_pos hreaches]
      exact ⟨iff_of_true hpinned.1 (.inr hreaches), hpinned.2, fun _ hnot => absurd hreaches hnot⟩
    · have hpin : (if 0 < index && pin == .after index then true else false) = false := by
        simpa using hat
      obtain ⟨hhit, hone⟩ := tryOne_tries (g := g) hs silent (index == 0) (pin == .report || false) kind
      rw [consumeRest_cons hpin rfl, Setup.tried_cons hat, Setup.reaches_cons hat, ← Setup.hit_trial_iff, hhit]
      have hlog (hpin : pin ≠ .report) :
          (s.tryOne g (silent && index == 0) (pin == .report || false) kind).2.log = s.log := by
        rw [beq_eq_false_iff_ne.2 hpin]
        exact log_tryOne ..
      generalize s.tryOne g (silent && index == 0) (pin == .report || false) kind = one at *
      cases hok : (g.trial s.position kind).hit with
      | false =>
        rw [Bool.and_false, consumeRest_failed]
        exact ⟨by simp, by simpa using hone, fun hpin _ => hlog hpin⟩
      | true =>
        have hlater (n : Nat) (hn : pin = .after n) (hpos : 0 < n) : index + 1 ≤ n := by
          refine Nat.lt_of_le_of_ne (hindex n hn hpos) ?_
          rintro rfl
          exact hat ⟨hpos, hn⟩
        obtain ⟨hanswer, hrest, hlogs⟩ := ih (hone.isAborted.trans hs) hlater
        have hposition : g.significant one.2.position = g.significant (g.trial s.position kind).next :=
          hone.position
        rw [Setup.kindsAhead_congr hposition, Setup.reaches_congr hposition] at hanswer
        rw [Setup.tried_congr hposition] at hrest
        rw [Setup.reaches_congr hposition] at hlogs
        refine ⟨by simpa using hanswer, hone.trans hrest, fun hpin hnot => ?_⟩
        exact (hlogs hpin fun h => hnot ⟨rfl, h⟩).trans (hlog hpin)

theorem Tries.offerIfPositive (g : Setup) (text : String) (s : Session) :
    Tries g silent s [] (s.offerIfPositive g text) := by
  unfold Session.offerIfPositive Session.offer
  split
  · split
    · exact refl s
    · exact (toSignificant g s).trans (of_same rfl rfl rfl rfl rfl)
  · exact refl s

theorem Tries.completion (h : Tries g silent s ts s') (c : Option Completion) :
    Tries g silent s ts { s' with completion := c } := { h with }

/-- A sequence may be offered for completion before its kinds are tried. -/
theorem consumeKinds_spec (hs : s.isAborted = false) (silent : Bool) (pin : Pin) (kinds : List Kind) :
    ((s.consumeKinds g silent pin kinds).1 = true ↔
      kinds <+: g.kindsAhead s.position ∨ g.reaches pin 0 s.position kinds) ∧
    Tries g silent s (g.tried pin 0 s.position kinds) (s.consumeKinds g silent pin kinds).2 ∧
    (pin ≠ .report → ¬g.reaches pin 0 s.position kinds →
      (s.consumeKinds g silent pin kinds).2.log = s.log) := by
  unfold consumeKinds
  dsimp only
  have hlog := (Calm.offerIfPositive g s (" ".intercalate (kinds.map g.language.nameOf))).log
  have hoffer : Tries g silent s [] _ := .offerIfPositive g (" ".intercalate (kinds.map g.language.nameOf)) s
  generalize s.offerIfPositive g (" ".intercalate (kinds.map g.language.nameOf)) = t at *
  have hnone : Tries g silent s [] { t with completion := none } := hoffer.completion none
  have hposition : g.significant t.position = g.significant s.position := hoffer.position
  obtain ⟨hanswer, htries, hlogs⟩ := consumeRest_tries (g := g) (hnone.isAborted.trans hs) silent pin kinds
    fun n _ _ => Nat.zero_le n
  rw [Setup.kindsAhead_congr hposition, Setup.reaches_congr hposition] at hanswer
  rw [Setup.tried_congr hposition] at htries
  rw [Setup.reaches_congr hposition] at hlogs
  exact ⟨hanswer, (hnone.trans htries).completion t.completion,
    fun hpin hnot => (hlogs hpin hnot).trans hlog⟩

/-- What has been tried has taken a significant token for each success. -/
theorem Tries.ahead (h : Tries g silent s ts s') (hts : ts <+: g.trials s.position kinds) :
    g.ahead s'.position = (g.ahead s.position).drop (ts.countP (·.hit)) := by
  rw [← Setup.ahead_behind hts, ← Setup.ahead_significant, h.position, Setup.ahead_significant]

/-- The other forms of a sequence try the same, but give everything back if it fails. -/
theorem tryKinds_spec (hs : s.isAborted = false) (hlog : s.log.Sound) (silent : Bool) (pin : Pin)
    (kinds : List Kind) :
    (s.tryKinds g silent pin kinds).1 = (s.consumeKinds g false pin kinds).1 ∧
    ((s.tryKinds g silent pin kinds).1 = true → g.significant (s.tryKinds g silent pin kinds).2.position =
      g.significant (s.consumeKinds g false pin kinds).2.position) ∧
    ((s.tryKinds g silent pin kinds).1 = false →
      (s.tryKinds g silent pin kinds).2.position = g.significant s.position ∧
      (s.tryKinds g silent pin kinds).2.log.committedNodes = s.log.committedNodes) := by
  have hopen : g.significant (s.openMarker g).2.position = g.significant s.position :=
    significant_significant g s.position
  obtain ⟨hanswer, htries, -⟩ := consumeKinds_spec (g := g) hs false pin kinds
  obtain ⟨hanswer', htries', -⟩ :=
    consumeKinds_spec (g := g) (s := (s.openMarker g).2) hs silent pin kinds
  have hwork : Work (fun _ => true) g none (s.openMarker g).2
      ((s.openMarker g).2.consumeKinds g silent pin kinds).2 :=
    related_consumeKinds silent (fun _ _ => Work.calm) (fun _ _ _ => .trans) Work.reportHere pin kinds _
  rw [Setup.kindsAhead_congr hopen, Setup.reaches_congr hopen, ← hanswer] at hanswer'
  rw [Setup.tried_congr hopen] at htries'
  have hposition := htries'.position.trans ((Setup.significant_behind hopen _).trans htries.position.symm)
  have hsame := Bool.eq_iff_iff.2 hanswer'
  have hback := givesBack_rollback hlog (hwork.continues (hlog.openAt _))
  unfold tryKinds
  dsimp only
  split
  · next t heq =>
    rw [heq] at hposition hsame
    exact ⟨hsame, fun _ => hposition, fun h => absurd h.symm Bool.false_ne_true⟩
  · next t heq =>
    rw [heq] at hsame hback
    exact ⟨hsame, fun h => absurd h Bool.false_ne_true, fun _ =>
      ⟨hback.position, hback.nodes.trans (MarkerLog.committedNodes_openAt hlog _)⟩⟩

/-- A sequence that is never pinned succeeds if its kinds come next, and one with a pin if those before the
pin do. -/
theorem consumeKinds_tries (hs : s.isAborted = false) (hlog : s.log.Reachable) (pin : Pin)
    (kinds : List Kind) :
    let first (n : Nat) : Prop := kinds.take n <+: g.kindsAhead s.position
    let s' := (s.consumeKinds g false pin kinds).2
    (pin = .none ∨ pin = .report →
      ((s.consumeKinds g false pin kinds).1 = true ↔ kinds <+: g.kindsAhead s.position) ∧
      ∀ j < kinds.length, first j → ¬first (j + 1) →
        Tries g false s ((g.trials s.position kinds).take (j + 1)) s' ∧
        g.ahead s'.position = (g.ahead s.position).drop j) ∧
    (∀ i, pin = .after i → 0 < i → i < kinds.length →
      ((s.consumeKinds g false pin kinds).1 = true ↔ first i) ∧
      (first i → Tries g false s (g.trials s.position kinds) s' ∧
        g.ahead s'.position = (g.ahead s.position).drop ((g.trials s.position kinds).countP (·.hit)))) ∧
    (s'.log ≠ s.log → pin = .report ∨ ∃ i, pin = .after i ∧ 0 < i ∧ i < kinds.length ∧ first i) ∧
    ∀ silent,
      (s.tryKinds g silent pin kinds).1 = (s.consumeKinds g false pin kinds).1 ∧
      ((s.tryKinds g silent pin kinds).1 = true →
        g.significant (s.tryKinds g silent pin kinds).2.position = g.significant s'.position) ∧
      ((s.tryKinds g silent pin kinds).1 = false →
        (s.tryKinds g silent pin kinds).2.position = g.significant s.position ∧
        (s.tryKinds g silent pin kinds).2.log.committedNodes = s.log.committedNodes) := by
  intro first s'
  obtain ⟨hanswer, htries, hlogs⟩ := consumeKinds_spec (g := g) hs false pin kinds
  refine ⟨?_, ?_, ?_, fun silent => tryKinds_spec hs hlog.sound silent pin kinds⟩
  · intro hpin
    have hnot : ¬g.reaches pin 0 s.position kinds := by
      rcases hpin with rfl | rfl <;> exact id
    refine ⟨hanswer.trans (or_iff_left hnot), fun j hj hfirst hmiss => ?_⟩
    have hlength : (g.trials s.position kinds).length = kinds.length := by
      rw [← List.length_map (·.kind), Setup.map_kind_trials]
    obtain ⟨htake, hcount⟩ := Trial.upToMiss_of_take (hlength ▸ hj) ((Setup.hits_iff_prefix j).2 hfirst)
      fun h => hmiss ((Setup.hits_iff_prefix (j + 1)).1 h)
    have hahead := htries.ahead (g.tried_prefix ..)
    rw [Setup.tried, if_neg hnot, hcount] at hahead
    rw [Setup.tried, if_neg hnot, htake] at htries
    exact ⟨htries, hahead⟩
  · rintro i rfl hpos hlt
    have hreaches : g.reaches (.after i) 0 s.position kinds ↔ first i := by
      simp [Setup.reaches, first, hpos, hlt]
    refine ⟨hanswer.trans ⟨fun h => ?_, fun h => .inr (hreaches.2 h)⟩, fun h => ?_⟩
    · exact h.elim (fun h => (List.take_prefix i kinds).trans h) hreaches.1
    · have hahead := htries.ahead (g.tried_prefix ..)
      rw [Setup.tried, if_pos (hreaches.2 h)] at htries hahead
      exact ⟨htries, hahead⟩
  · intro hne
    by_contra hno
    rw [not_or] at hno
    refine hne (hlogs hno.1 fun hreaches => hno.2 ?_)
    cases pin with
    | none => exact hreaches.elim
    | report => exact hreaches.elim
    | after i => exact ⟨i, rfl, hreaches.1, by simpa using hreaches.2.2.1, hreaches.2.2.2⟩

/-- A sequence that is pinned by its second kind. That is not there, and those behind it are. -/
theorem consumeKinds_tries_passingOver :
    let a : Kind := ⟨2⟩
    let b : Kind := ⟨3⟩
    let missing : Kind := ⟨4⟩
    let blank : Kind := ⟨5⟩
    let g : Setup :=
      { source := ⟨"a  b", [⟨a, 0, 1⟩, ⟨blank, 1, 2⟩, ⟨blank, 2, 3⟩, ⟨b, 3, 4⟩]⟩
        language := { nameOf := fun _ => "", isTrivia := fun k => k == blank } }
    let s : Session := {}
    s.isAborted = false ∧ s.log.Reachable ∧ [a] <+: g.kindsAhead 0 ∧
      (s.consumeKinds g false (.after 1) [a, missing, b]).1 = true ∧
      g.trials 0 [a, missing, b] = [⟨a, 0, true⟩, ⟨missing, 3, false⟩, ⟨b, 3, true⟩] ∧
      (s.consumeKinds g false (.after 1) [a, missing, b]).2.attempts.expected =
        #[⟨0, .token a⟩, ⟨3, .token missing⟩, ⟨3, .token b⟩] ∧
      g.ahead (s.consumeKinds g false (.after 1) [a, missing, b]).2.position = [] := by
  intro a b missing blank g s
  have hreachable : s.log.Reachable := ⟨[], rfl⟩
  have hfirst : [a] <+: g.kindsAhead 0 := by decide
  obtain ⟨-, hpinned, -⟩ := consumeKinds_tries (g := g) (s := s) rfl hreachable (.after 1) [a, missing, b]
  obtain ⟨hanswer, htries⟩ := hpinned 1 rfl (by decide) (by decide)
  obtain ⟨htries, hahead⟩ := htries hfirst
  refine ⟨rfl, hreachable, hfirst, hanswer.2 hfirst, by decide, ?_, ?_⟩
  · rw [htries.attempts rfl]
    decide
  · rw [hahead]
    decide

end Session

end Descent
