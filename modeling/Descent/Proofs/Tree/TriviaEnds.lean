import Descent.Proofs.Session.ForwardRuns
import Descent.Proofs.Tree.Chunked
import Descent.Proofs.Tree.Crossing

/-!
# Trivia at the ends of nodes

Trivia at either end of a node stay outside, so no node ends in trivia, and none begins with trivia, but for one
case: a node that covers trivia only and crosses a node that was begun inside it and goes on behind it may get
the trivia in front of that node (`Session.IsForward.trimmed_toTree`).

While the brackets are read, the tokens in front of the trimmed start of an open node are in the tree already
(`MarkerLog.Begins`), and the last child of the innermost open node is no trivia (`Assembly.EndsWell`).
-/

namespace Descent

/-! ## What trimming leaves -/

section
variable {isTrivia : Nat → Bool}

theorem isTrivia_of_lt_trimFront {start length i : Nat} (hge : start ≤ i)
    (hlt : i < trimFront isTrivia start length) : isTrivia i = true := by
  by_contra hi
  have := (trimFront_lt_iff start length i (Bool.eq_false_iff.2 hi)).1 hlt
  omega

theorem trimFront_significant (start length : Nat)
    (h : trimFront isTrivia start length < start + length) :
    isTrivia (trimFront isTrivia start length) = false := by
  induction length generalizing start with
  | zero => exact absurd h (Nat.lt_irrefl _)
  | succ length ih =>
    rw [trimFront] at h ⊢
    split at h
    · next ht =>
      rw [if_pos ht]
      exact ih (start + 1) (by omega)
    · next ht =>
      rw [if_neg ht]
      exact Bool.eq_false_iff.2 ht

theorem trimBack_le (start length : Nat) : trimBack isTrivia start length ≤ start + length := by
  induction length with
  | zero => exact Nat.le_refl _
  | succ length ih =>
    rw [trimBack]
    split
    · omega
    · exact Nat.le_refl _

theorem trimBack_significant (start length : Nat) (h : start < trimBack isTrivia start length) :
    isTrivia (trimBack isTrivia start length - 1) = false := by
  induction length with
  | zero => exact absurd h (Nat.lt_irrefl _)
  | succ length ih =>
    rw [trimBack] at h ⊢
    split at h
    · next ht =>
      rw [if_pos ht]
      exact ih h
    · next ht =>
      rw [if_neg ht]
      exact Bool.eq_false_iff.2 ht

end

namespace MarkerInfo

variable {info : MarkerInfo} (isTrivia : Nat → Bool)

theorem trimmed_snd_significant (h : (info.trimmed isTrivia).1 < (info.trimmed isTrivia).2) :
    isTrivia ((info.trimmed isTrivia).2 - 1) = false :=
  trimBack_significant _ _ h

variable (h : info.start ≤ info.stop)
include h

theorem trimmed_fst_le : (info.trimmed isTrivia).1 ≤ info.stop := by
  have hle : trimFront isTrivia info.start (info.stop - info.start) ≤ _ := trimFront_le ..
  rw [trimmed]
  omega

theorem trimmed_snd_le : (info.trimmed isTrivia).2 ≤ info.stop := by
  have hfst := trimmed_fst_le isTrivia h
  have hle : (info.trimmed isTrivia).2 ≤ _ := trimBack_le ..
  have hmax : max info.start info.stop = info.stop := Nat.max_eq_right h
  rw [trimmed] at hfst
  rw [hmax] at hle
  omega

/-- A marker covers trivia only, or its first significant token is where it starts when it is trimmed. -/
theorem trimmed_fst_cases :
    (info.trimmed isTrivia).1 = info.stop ∧
        (∀ i, info.start ≤ i → i < info.stop → isTrivia i = true) ∨
      info.start ≤ (info.trimmed isTrivia).1 ∧ (info.trimmed isTrivia).1 < info.stop ∧
        isTrivia (info.trimmed isTrivia).1 = false := by
  have hle := trimmed_fst_le isTrivia h
  have hge : info.start ≤ (info.trimmed isTrivia).1 := le_trimFront ..
  rcases Nat.lt_or_eq_of_le hle with hlt | heq
  · refine .inr ⟨hge, hlt, trimFront_significant _ _ ?_⟩
    rw [trimmed] at hlt
    omega
  · refine .inl ⟨heq, fun i hi hstop => ?_⟩
    exact isTrivia_of_lt_trimFront hi (heq ▸ hstop : i < (info.trimmed isTrivia).1)

end MarkerInfo

namespace Setup

variable {g : Setup} {n n' : Nat} {t : Tree}

theorem isTrivia_leaf {i : Nat} {x : Token} (h : g.source.tokens[i]? = some x) :
    (Tree.leaf x).isTrivia g.language = g.isTriviaAt i :=
  (isTriviaAt_eq h).symm

/-- The first of some tokens is the one at the first position. -/
theorem isTrivia_head? (h : t ∈ ((g.source.between n n').map Tree.leaf).head?) :
    n < n' ∧ t.isTrivia g.language = g.isTriviaAt n := by
  rw [List.head?_map, Source.between, List.head?_take, Option.mem_def, Option.map_eq_some_iff] at h
  obtain ⟨x, hx, rfl⟩ := h
  split at hx
  · cases hx
  · rw [List.head?_drop] at hx
    exact ⟨by omega, isTrivia_leaf hx⟩

/-- The last of some tokens is the one at the last position. -/
theorem isTrivia_getLast? (hn' : n' ≤ g.source.size)
    (h : t ∈ ((g.source.between n n').map Tree.leaf).getLast?) :
    n < n' ∧ t.isTrivia g.language = g.isTriviaAt (n' - 1) := by
  rw [List.getLast?_map, Option.mem_def, Option.map_eq_some_iff] at h
  obtain ⟨x, hx, rfl⟩ := h
  have hlt : n < n' := by
    by_contra hle
    rw [Source.between, Nat.sub_eq_zero_of_le (Nat.le_of_not_lt hle)] at hx
    cases hx
  refine ⟨hlt, isTrivia_leaf ?_⟩
  rw [List.getLast?_eq_getElem?, Source.length_between hn', Source.between, List.getElem?_take,
    if_pos (by omega), List.getElem?_drop] at hx
  rw [← hx]
  congr 1
  omega

end Setup

/-! ## Nodes under construction -/

namespace Assembly

variable {a : Assembly} {p : Pending} {ps : List Pending}

theorem pending_grow (hps : a.pending = p :: ps) (ts : List Tree) (n : Nat) :
    (a.grow ts n).pending = { p with children := ts.reverse ++ p.children } :: ps := by
  obtain ⟨pending, base, next⟩ := a
  obtain rfl : pending = p :: ps := hps
  rfl

theorem pending_grow_nil (hps : a.pending = []) (ts : List Tree) (n : Nat) :
    (a.grow ts n).pending = [] := by
  obtain ⟨pending, base, next⟩ := a
  obtain rfl : pending = [] := hps
  rfl

theorem closeOne_eq_grow (hps : a.pending = p :: ps) :
    a.closeOne = Assembly.grow { a with pending := ps } [p.toTree] a.next := by
  obtain ⟨pending, base, next⟩ := a
  obtain rfl : pending = p :: ps := hps
  cases ps <;> rfl

theorem closeOne_eq_self (hps : a.pending = []) : a.closeOne = a := by
  obtain ⟨pending, base, next⟩ := a
  obtain rfl : pending = [] := hps
  rfl

/-- The last child of the innermost open node is no trivia. -/
def EndsWell (language : Language) (a : Assembly) : Prop :=
  ∀ p ps, a.pending = p :: ps → ∀ t ∈ p.children.head?, t.isTrivia language = false

theorem endsWell_grow {language : Language} {ts : List Tree} (h : ts = [] → a.EndsWell language)
    (hts : ∀ t ∈ ts.getLast?, t.isTrivia language = false) (n : Nat) :
    (a.grow ts n).EndsWell language := by
  intro p ps hps t ht
  cases hpending : a.pending with
  | nil =>
    rw [pending_grow_nil hpending] at hps
    cases hps
  | cons q qs =>
    rw [pending_grow hpending] at hps
    obtain ⟨rfl, rfl⟩ := List.cons.inj hps
    rw [List.head?_append, List.head?_reverse, Option.mem_def] at ht
    cases hlast : ts.getLast? with
    | none => exact h (List.getLast?_eq_none_iff.1 hlast) q qs hpending t (by simpa [hlast] using ht)
    | some u =>
      obtain rfl : u = t := by simpa [hlast] using ht
      exact hts u hlast

theorem EndsWell.closeOne {language : Language} (h : a.EndsWell language) :
    a.closeOne.EndsWell language := by
  cases hps : a.pending with
  | nil => rwa [closeOne_eq_self hps]
  | cons p ps =>
    rw [closeOne_eq_grow hps]
    refine endsWell_grow (fun hnil => by cases hnil) (fun t ht => ?_) _
    obtain rfl := Option.some.inj ht
    rfl

end Assembly

namespace MarkerLog

/-- The marker covers trivia only, more trivia come behind it, and a node that was begun inside it goes on
there. -/
structure Outlasted (log : MarkerLog) (root : Kind) (isTrivia : Nat → Bool) (m : Marker) : Prop where
  blank : ∀ i, log.start m ≤ i → i < log.stop m → isTrivia i = true
  behind : isTrivia (log.stop m) = true
  outlasts : ∃ y, log.Cuts root m y ∧ log.stop m < log.stop y

/-- The node at a place does not end in trivia, and begins with trivia only if its marker is outlasted. -/
structure Trimmed (log : MarkerLog) (root : Kind) (g : Setup) (m : Marker) (p : Place) : Prop where
  last : ∀ t ∈ p.tree.children.getLast?, t.isTrivia g.language = false
  first : ∀ t ∈ p.tree.children.head?, t.isTrivia g.language = true →
    log.Outlasted root g.isTriviaAt m

/-- An open node does not begin with trivia unless its marker is outlasted, and the tokens before its trimmed
start are in the tree, which has the first `n`. -/
structure BeginsWell (log : MarkerLog) (root : Kind) (g : Setup) (n : Nat) (p : Pending) : Prop where
  first : ∀ t ∈ p.children.getLast?, t.isTrivia g.language = true →
    log.Outlasted root g.isTriviaAt p.marker
  reached : ∀ info, log.info? p.marker = some info → (info.trimmed g.isTriviaAt).1 ≤ n

variable {log : MarkerLog} {root : Kind} {g : Setup} {a : Assembly} {m : Marker} {p : Pending}
  {ps : List Pending} {ts : List Tree} {n n' : Nat}

theorem BeginsWell.grow (h : log.BeginsWell root g n p) (hle : n ≤ n')
    (hts : p.children = [] → ∀ t ∈ ts.head?, t.isTrivia g.language = true →
      log.Outlasted root g.isTriviaAt p.marker) :
    log.BeginsWell root g n' { p with children := ts.reverse ++ p.children } where
  first t ht := by
    cases hp : p.children with
    | nil => exact hts hp t (by simpa [hp] using ht)
    | cons u us => exact h.first t (by simpa [hp] using ht)
  reached info hi := Nat.le_trans (h.reached info hi) hle

/-- All open nodes begin well. -/
def Begins (log : MarkerLog) (root : Kind) (g : Setup) (a : Assembly) : Prop :=
  ∀ p ∈ a.pending, log.BeginsWell root g a.next p

namespace Begins

theorem grow (h : log.Begins root g a) (hle : a.next ≤ n)
    (hts : ∀ p ps, a.pending = p :: ps → p.children = [] → ∀ t ∈ ts.head?,
      t.isTrivia g.language = true → log.Outlasted root g.isTriviaAt p.marker) :
    log.Begins root g (a.grow ts n) := by
  intro x hx
  cases hps : a.pending with
  | nil =>
    rw [Assembly.pending_grow_nil hps] at hx
    cases hx
  | cons p ps =>
    rw [Assembly.pending_grow hps] at hx
    rcases List.mem_cons.1 hx with rfl | hx
    · exact (h p (by simp [hps])).grow hle (hts p ps hps)
    · have hold := h x (by simp [hps, hx])
      exact ⟨hold.first, fun info hi => Nat.le_trans (hold.reached info hi) hle⟩

theorem closeOne (h : log.Begins root g a) : log.Begins root g a.closeOne := by
  cases hps : a.pending with
  | nil => rwa [Assembly.closeOne_eq_self hps]
  | cons p ps =>
    rw [Assembly.closeOne_eq_grow hps]
    have hinner : log.Begins root g { a with pending := ps } := fun x hx => h x (by simp [hps, hx])
    refine hinner.grow (Nat.le_refl _) fun _ _ _ _ t ht htriv => ?_
    obtain rfl := Option.some.inj ht
    cases htriv

end Begins

theorem begins_close (h : log.Begins root g a) (hends : a.EndsWell g.language) (k : Nat) :
    log.Begins root g (a.close k) ∧ (a.close k).EndsWell g.language := by
  induction k generalizing a with
  | zero => exact ⟨h, hends⟩
  | succ k ih => exact ih h.closeOne hends.closeOne

/-- The nodes that the end of a node closes are trimmed. -/
theorem closesWell_trimmed (h : log.Begins root g a) (hends : a.EndsWell g.language) :
    log.ClosesWell root g.source g.isTriviaAt (log.Trimmed root g) m a := by
  intro k p ps n₀ path ms hps _ _ _
  obtain ⟨hbegins, hends⟩ := begins_close h hends k
  refine ⟨fun t ht => hends p ps hps t ?_, fun t ht => (hbegins p (by simp [hps])).first t ?_⟩
  · simpa [Pending.toTree, Tree.children] using ht
  · simpa [Pending.toTree, Tree.children] using ht

/-! ## Reading the brackets -/

namespace Reading

variable {good : Marker → Place → Prop} {before after : List Entry} {e : Entry} {info : MarkerInfo}
  (hsound : log.Sound) (hascending : (log.brackets.map log.position).Pairwise (· ≤ ·))
  (hsize : ∀ m, log.isCommitted m = true → log.stop m ≤ g.source.size)

section
include hsound

/-- An open node is committed, and its end is still to come. -/
theorem commit_mem (hsplit : log.brackets = before ++ after)
    (h : log.Reading root g.source g.isTriviaAt good before after a) {x : Marker}
    (hx : x ∈ a.pending.map (·.marker)) : log.isCommitted x = true ∧ .commit x ∈ after := by
  have hstart : .start x ∈ log.brackets := hsplit ▸ List.mem_append_left _ (h.unclosed.start_mem hx)
  have hcommitted : log.isCommitted x = true := isCommitted_of_shapes (List.mem_filter.1 hstart).2
  have hcommit := (hsound.before_brackets hcommitted).mem.2
  rw [hsplit] at hcommit
  exact ⟨hcommitted, (List.mem_append.1 hcommit).resolve_left (h.unclosed.waiting x hx).1⟩

include hsize

/-- An open node that would get trivia for its first child covers trivia only, all of which is in the
tree. -/
theorem blank_of_isTriviaAt (hsplit : log.brackets = before ++ after)
    (h : log.Reading root g.source g.isTriviaAt good before after a) (hbegins : log.Begins root g a)
    (hps : a.pending = p :: ps) (hnil : p.children = []) (htriv : g.isTriviaAt a.next = true) :
    (∀ i, log.start p.marker ≤ i → i < log.stop p.marker → g.isTriviaAt i = true) ∧
      log.stop p.marker ≤ a.next := by
  have hmem : p.marker ∈ a.pending.map (·.marker) := by simp [hps]
  obtain ⟨hcommitted, -⟩ := h.commit_mem hsound hsplit hmem
  obtain ⟨info, kind, hi, -, hle, -⟩ := exists_info hsound hcommitted
  have hreached := (hbegins p (by simp [hps])).reached info hi
  have hbound := hsize p.marker hcommitted
  have hstop : log.stop p.marker = info.stop := by simp [stop, hi]
  have hfrom : log.start p.marker = info.start := by simp [MarkerLog.start, hi]
  rw [hstop] at hbound
  rw [hstop, hfrom]
  rcases MarkerInfo.trimmed_fst_cases g.isTriviaAt hle with ⟨heq, hblank⟩ | ⟨hge, hlt, hs⟩
  · exact ⟨hblank, heq ▸ hreached⟩
  · -- else its first significant token would be the next one
    have hpile := h.pile
    rw [hps] at hpile
    generalize (starts before).filter (log.rootMarker? root ≠ some ·) = ms at hpile
    cases hpile with
    | @node _ _ _ _ _ n₀ _ _ hp hin =>
      have hlength := hin.length
      rw [hnil, List.reverse_nil, Tree.leavesAll, List.length_nil, Nat.add_zero] at hlength
      have halign := hp.start.iff (info.trimmed g.isTriviaAt).1 (by omega) hs
      have hnext : a.next = (info.trimmed g.isTriviaAt).1 := by omega
      rw [hnext, hs] at htriv
      cases htriv

include hascending

/-- Trivia become the first child of a node where another one starts that outlasts it. -/
theorem outlasted_of_start (hsplit : log.brackets = before ++ .start m :: after)
    (h : log.Reading root g.source g.isTriviaAt good before (.start m :: after) a)
    (hbegins : log.Begins root g a) (hi : log.info? m = some info) (hps : a.pending = p :: ps)
    (hnil : p.children = []) (htriv : g.isTriviaAt a.next = true)
    (hlt : a.next < (info.trimmed g.isTriviaAt).1) : log.Outlasted root g.isTriviaAt p.marker := by
  obtain ⟨hblank, hreached⟩ := h.blank_of_isTriviaAt hsound hsize hsplit hbegins hps hnil htriv
  have hmem : p.marker ∈ a.pending.map (·.marker) := by simp [hps]
  obtain ⟨-, hcommit⟩ := h.commit_mem hsound hsplit hmem
  have hcommit : .commit p.marker ∈ after := by simpa using hcommit
  have hcommitted : log.isCommitted m = true :=
    isCommitted_of_shapes (List.mem_filter.1 (hsplit ▸ by simp : .start m ∈ log.brackets)).2
  obtain ⟨info', kind, hi', -, hle, -⟩ := exists_info hsound hcommitted
  obtain rfl := Option.some.inj (hi'.symm.trans hi)
  have htrimmed := MarkerInfo.trimmed_fst_le g.isTriviaAt hle
  have hstop : log.stop m = info'.stop := by simp [stop, hi]
  have houtlasts : log.stop p.marker < log.stop m := by omega
  refine ⟨hblank, isTrivia_of_lt_trimFront ?_ (Nat.lt_of_le_of_lt hreached hlt), m,
    ⟨(h.unclosed.waiting _ hmem).2, ?_, ?_, ?_⟩, houtlasts⟩
  · have hposition := position_le hascending hsplit hcommit
    simpa [position, MarkerLog.start, hi] using hposition
  · rw [hsplit]
    exact before_append.2 (.inr (.inl ⟨h.unclosed.start_mem hmem, List.mem_cons_self⟩))
  · rw [hsplit]
    exact before_append.2 (.inr (.inr (before_cons.2 (.inl ⟨rfl, hcommit⟩))))
  · have hne : Entry.commit p.marker ≠ .commit m := fun heq => by
      rw [Entry.commit.inj heq] at houtlasts
      omega
    have hends := (hsound.before_brackets hcommitted).mem.2
    have hcommit' : .commit p.marker ∈ log.brackets := by simp [hsplit, hcommit]
    refine (before_or_before hcommit' hends hne).resolve_right fun hbefore => ?_
    have hle' : log.stop m ≤ log.stop p.marker := position_le_of_before hascending hbefore
    omega

theorem begins_start (hsplit : log.brackets = before ++ .start m :: after)
    (h : log.Reading root g.source g.isTriviaAt good before (.start m :: after) a)
    (hbegins : log.Begins root g a) (hends : a.EndsWell g.language) :
    let b := log.assemble g.source g.isTriviaAt (log.rootMarker? root) a (.start m)
    log.Begins root g b ∧ b.EndsWell g.language := by
  have hcommitted : log.isCommitted m = true :=
    isCommitted_of_shapes (List.mem_filter.1 (hsplit ▸ by simp : .start m ∈ log.brackets)).2
  by_cases hroot : log.rootMarker? root = some m
  · rw [hroot, (assemble_merged m a).1]
    exact ⟨hbegins, hends⟩
  · obtain ⟨info, kind, hi, hs, hle, -⟩ := exists_info hsound hcommitted
    obtain ⟨q, hq, -⟩ := h.aligned
    have htrimmed := MarkerInfo.trimmed_fst_le g.isTriviaAt hle
    have hbound : info.stop ≤ g.source.size := by simpa [stop, hi] using hsize m hcommitted
    let n := max a.next (min (info.trimmed g.isTriviaAt).1 g.source.size)
    have hgrow : log.Begins root g (a.grow ((g.source.between a.next n).map .leaf) n) := by
      refine hbegins.grow (Nat.le_max_left ..) fun p ps hps hnil t ht htriv => ?_
      obtain ⟨hlt, htriv'⟩ := Setup.isTrivia_head? ht
      exact h.outlasted_of_start hsound hascending hsize hsplit hbegins hi hps hnil
        (htriv'.symm.trans htriv) (by omega)
    rw [assemble_start hi hs hroot, a.emit_eq_grow g.source _ hq.le]
    refine ⟨fun x hx => ?_, fun x xs hx t ht => ?_⟩
    · rcases List.mem_cons.1 hx with rfl | hx
      · refine ⟨fun t ht => absurd ht (by simp [pendingNode]), fun info' hi' => ?_⟩
        obtain rfl := Option.some.inj (hi.symm.trans hi')
        show (info.trimmed g.isTriviaAt).1 ≤ n
        omega
      · exact hgrow x hx
    · obtain ⟨rfl, -⟩ := List.cons.inj hx
      cases ht

/-- Up to the end of a node no node gets trivia for its first child, and none for its last one. -/
theorem begins_emit (hsplit : log.brackets = before ++ .commit m :: after)
    (h : log.Reading root g.source g.isTriviaAt good before (.commit m :: after) a)
    (hbegins : log.Begins root g a) (hends : a.EndsWell g.language) (hi : log.info? m = some info)
    (hm : m ∈ a.pending.map (·.marker)) :
    let b := a.emit g.source (info.trimmed g.isTriviaAt).2
    log.Begins root g b ∧ b.EndsWell g.language := by
  obtain ⟨hcommitted, -⟩ := h.commit_mem hsound hsplit hm
  obtain ⟨info', kind, hi', -, hle, -⟩ := exists_info hsound hcommitted
  obtain rfl := Option.some.inj (hi'.symm.trans hi)
  obtain ⟨q, hq, -⟩ := h.aligned
  have htrimmed := MarkerInfo.trimmed_snd_le g.isTriviaAt hle
  have hstop : log.stop m = info'.stop := by simp [stop, hi]
  have hbound := hsize m hcommitted
  rw [a.emit_eq_grow g.source _ hq.le]
  refine ⟨hbegins.grow (Nat.le_max_left ..) fun p ps hps hnil t ht htriv => ?_,
    Assembly.endsWell_grow (fun _ => hends) (fun t ht => ?_) _⟩
  · -- the innermost node would have ended before the one that closes it
    obtain ⟨hlt, htriv'⟩ := Setup.isTrivia_head? ht
    obtain ⟨-, hreached⟩ :=
      h.blank_of_isTriviaAt hsound hsize hsplit hbegins hps hnil (htriv'.symm.trans htriv)
    obtain ⟨above, below, hmarkers⟩ := List.append_of_mem hm
    have hcuts := h.cuts_of_above hsound hsplit hmarkers (h.unclosed.waiting m hm).2
    have hlast : log.stop m ≤ log.stop p.marker := by
      rw [hps, List.map_cons] at hmarkers
      cases above with
      | nil =>
        obtain ⟨heq, -⟩ := List.cons.inj hmarkers
        rw [heq]
      | cons y above =>
        obtain ⟨heq, -⟩ := List.cons.inj hmarkers
        exact (hcuts p.marker (heq ▸ List.mem_cons_self)).stop_le hascending
    omega
  · obtain ⟨p, hp, rfl⟩ := List.mem_map.1 hm
    have hreached := (hbegins p hp).reached info' hi
    have hnext := hq.le
    obtain ⟨hlt, htriv⟩ := Setup.isTrivia_getLast? (by omega) ht
    have hn : max a.next (min (info'.trimmed g.isTriviaAt).2 g.source.size) =
        (info'.trimmed g.isTriviaAt).2 := by omega
    rw [htriv, hn]
    exact MarkerInfo.trimmed_snd_significant _ (by omega)

theorem begins_commit (hsplit : log.brackets = before ++ .commit m :: after)
    (h : log.Reading root g.source g.isTriviaAt good before (.commit m :: after) a)
    (hbegins : log.Begins root g a) (hends : a.EndsWell g.language) :
    let b := log.assemble g.source g.isTriviaAt (log.rootMarker? root) a (.commit m)
    log.Begins root g b ∧ b.EndsWell g.language := by
  have hcommitted : log.isCommitted m = true :=
    isCommitted_of_shapes (List.mem_filter.1 (hsplit ▸ by simp : .commit m ∈ log.brackets)).2
  obtain ⟨info, kind, hi, hs, -⟩ := exists_info hsound hcommitted
  rcases assemble_commit_cases hi hs g.source g.isTriviaAt (log.rootMarker? root) a with
    ⟨hskip, -⟩ | ⟨-, above, below, hmarkers, hclose⟩
  · rw [hskip]
    exact ⟨hbegins, hends⟩
  · obtain ⟨hbegins', hends'⟩ :=
      h.begins_emit hsound hascending hsize hsplit hbegins hends hi (by simp [hmarkers])
    rw [hclose]
    exact begins_close hbegins' hends' _

end

end Reading

/-- The brackets `before` are read, and the nodes so far are trimmed, the open ones at their beginning. -/
structure TrimmedReading (log : MarkerLog) (root : Kind) (g : Setup) (before after : List Entry)
    (a : Assembly) : Prop where
  reading : log.Reading root g.source g.isTriviaAt (log.Trimmed root g) before after a
  begins : log.Begins root g a
  ends : a.EndsWell g.language

/-- Where the positions of a log ascend within the tokens, the nodes below the root are trimmed. -/
theorem trimmed_innerPlaces (hsound : log.Sound)
    (hascending : (log.brackets.map log.position).Pairwise (· ≤ ·))
    (hsize : ∀ m, log.isCommitted m = true → log.stop m ≤ g.source.size) (root : Kind) :
    List.Forall₂ (log.Trimmed root g) (log.innerNodes root)
      (log.toTree g.source g.language root).innerPlaces := by
  have h : log.TrimmedReading root g log.brackets [] (log.brackets.foldl
      (log.assemble g.source g.isTriviaAt (log.rootMarker? root)) {}) := by
    refine log.read_brackets ⟨.begin .., fun p hp => ?_, fun p ps hps => ?_⟩ ?_ ?_
    · cases hp
    · cases hps
    · rintro before after m a hsplit ⟨h, hbegins, hends⟩
      obtain ⟨hbegins', hends'⟩ := h.begins_start hsound hascending hsize hsplit hbegins hends
      exact ⟨h.start hsound hascending hsplit, hbegins', hends'⟩
    · rintro before after m a hsplit ⟨h, hbegins, hends⟩
      obtain ⟨hbegins', hends'⟩ := h.begins_commit hsound hascending hsize hsplit hbegins hends
      refine ⟨h.commit hsound hascending hsplit fun info hi hm _ => ?_, hbegins', hends'⟩
      obtain ⟨hbegins, hends⟩ := h.begins_emit hsound hascending hsize hsplit hbegins hends hi hm
      exact closesWell_trimmed hbegins hends
  exact Reading.forall₂_innerPlaces hsound h.reading

end MarkerLog

namespace Session

/-- After a forward run no node below the root ends in trivia, and one begins with trivia only if its marker
covers trivia only and a node that was begun inside it goes on behind it. -/
theorem IsForward.trimmed_toTree {source : Source} {steps : List MarkerStep}
    (h : IsForward source.size steps {}) (language : Language) (root : Kind) :
    let log := (runSteps steps {}).log
    List.Forall₂ (log.Trimmed root { source, language }) (log.innerNodes root)
      (log.toTree source language root).innerPlaces := by
  intro log
  have hsound : log.Sound := MarkerLog.Sound.empty.runSteps steps
  obtain ⟨hascends, hsize⟩ :=
    h.ascends MarkerLog.Sound.empty (List.pairwise_singleton ..) (Nat.zero_le _)
  refine log.trimmed_innerPlaces (g := { source, language }) hsound hascends.pairwise_brackets
    (fun m hm => Nat.le_trans (hascends.stop_le ?_) hsize) root
  have hmem : .commit m ∈ log.history m := by simp [hsound.isCommitted_iff.1 hm]
  exact (MarkerLog.mem_history.1 hmem).1

/-- A word between blanks. -/
def blankWordBlank : Source :=
  { text := " a ", tokens := [⟨⟨2⟩, ⟨0, 1⟩⟩, ⟨⟨3⟩, ⟨1, 2⟩⟩, ⟨⟨2⟩, ⟨2, 3⟩⟩] }

theorem trimmed_toTree_blankWordBlank :
    let steps := [.openAt 0, .seek 1, .openAt 1, .seek 2, .rollback ⟨1⟩, .wrap ⟨0⟩, .seek 3,
      .commit ⟨0⟩ ⟨22⟩ none, .commit ⟨2⟩ ⟨21⟩ none]
    let language := (LanguageTable.addTrivia {} ⟨2⟩).toBareLanguage
    let log := (runSteps steps {}).log
    IsForward blankWordBlank.size steps {} ∧
      List.Forall₂ (log.Trimmed ⟨20⟩ { source := blankWordBlank, language }) [⟨2⟩, ⟨0⟩]
        (log.toTree blankWordBlank language ⟨20⟩).innerPlaces :=
  ⟨by decide, IsForward.trimmed_toTree (by decide) _ _⟩

/-- Two markers are opened in front of a blank, and the first one is committed right there. The blank is then
put in front of the second node, which is still open, and so into the first one, which it begins. -/
theorem not_trimmed_blank_in_front :
    let steps := [.openAt 0, .openAt 0, .commit ⟨0⟩ ⟨21⟩ none, .seek 2, .commit ⟨1⟩ ⟨23⟩ none]
    let language := (LanguageTable.addTrivia {} ⟨2⟩).toBareLanguage
    let tree := (runSteps steps {}).log.toTree blankWordBlank language ⟨20⟩
    IsForward blankWordBlank.size steps {} ∧
      ∃ p ∈ tree.innerPlaces, ∃ t ∈ p.tree.children.head?, t.isTrivia language = true := by
  refine ⟨by decide, ⟨[0], 0, .node ⟨21⟩ ⟨0, 1⟩ none
    [.leaf ⟨⟨2⟩, ⟨0, 1⟩⟩, .node ⟨23⟩ ⟨1, 1⟩ none []]⟩, ?_, _, rfl, rfl⟩
  exact List.mem_of_getElem? (i := 0) rfl

end Session

end Descent
