import Descent.Proofs.MarkerLog.ErrorStarts
import Descent.Proofs.MarkerLog.Nesting

/-!
# What comes in beside the nodes that are there

A log `Gains` over an older one if all nodes of the older one are still committed, unchanged and in their
order, and what else is committed are chunks and perhaps one error. Opening, wrapping, committing and
dropping of other markers keeps to that. If in the end the node that was committed last is renewed, with
another end, the nodes are still kept (`MarkerLog.Keeps`), each in its place.
-/

namespace Descent

/-- The entry for the marker in the place of another one. -/
def Entry.rename (place : Marker → Marker) : Entry → Entry
  | start m => start (place m)
  | commit m => commit (place m)
  | drop m prior => drop (place m) prior

theorem Entry.rename_id (e : Entry) : e.rename id = e := by cases e <;> rfl

/-- The second marker has the place of the first one. -/
def Marker.inPlace (m y : Marker) : Marker → Marker := fun x => if x = m then y else x

@[simp] theorem Marker.inPlace_self (m y : Marker) : Marker.inPlace m y m = y := if_pos rfl

theorem Marker.inPlace_of_ne {m x : Marker} (h : x ≠ m) (y : Marker) : Marker.inPlace m y x = x :=
  if_neg h

/-- The entries of all other markers stay as they are. -/
theorem map_rename_inPlace {m y : Marker} {es : List Entry} (h : ∀ e ∈ es, e.marker ≠ m) :
    es.map (Entry.rename (m.inPlace y)) = es := by
  have hsame (e : Entry) (he : e ∈ es) : e.rename (m.inPlace y) = e := by
    have hne := Marker.inPlace_of_ne (h e he) y
    cases e with
    | start x | commit x | drop x prior =>
      rw [Entry.rename, show Marker.inPlace m y x = x from hne]
  rw [List.map_congr_left hsame, List.map_id']

namespace MarkerLog

variable {old log log' : MarkerLog} {m x : Marker} {error? : Option Marker}

/-! ## The same nodes -/

/-- Whether the same nodes are committed in the same order. -/
def sameNodes (log log' : MarkerLog) : Bool :=
  log'.brackets == log.brackets && log.brackets.all fun e => log'.info? e.marker == log.info? e.marker

theorem brackets_eq_of_sameNodes (h : log.sameNodes log' = true) : log'.brackets = log.brackets := by
  simpa using (Bool.and_eq_true_iff.1 h).1

theorem start_mem_brackets (hs : log.Sound) (hx : log.isCommitted x = true) :
    .start x ∈ log.brackets :=
  List.mem_filter.2
    ⟨List.mem_reverse.2 (hs.start_mem_of_committed (isCommitted_iff_stage?.1 hx)), hx⟩

theorem isCommitted_of_start_mem (h : .start x ∈ log.brackets) : log.isCommitted x = true :=
  isCommitted_of_shapes (List.mem_filter.1 h).2

theorem info?_of_sameNodes (hs : log.Sound) (h : log.sameNodes log' = true)
    (hx : log.isCommitted x = true) : log'.info? x = log.info? x := by
  have hall := List.all_eq_true.1 (Bool.and_eq_true_iff.1 h).2
  exact beq_iff_eq.1 (hall _ (start_mem_brackets hs hx))

theorem sameNodes_refl (log : MarkerLog) : log.sameNodes log = true := by simp [sameNodes]

theorem sameNodes_trans {log₁ : MarkerLog} (h : log.sameNodes log₁ = true)
    (h' : log₁.sameNodes log' = true) : log.sameNodes log' = true := by
  simp only [sameNodes, Bool.and_eq_true, beq_iff_eq, List.all_eq_true] at h h' ⊢
  exact ⟨h'.1.trans h.1, fun e he => (h'.2 e (h.1 ▸ he)).trans (h.2 e he)⟩

theorem isCommitted_congr (h : log'.info? x = log.info? x) :
    log'.isCommitted x = log.isCommitted x := by
  rw [isCommitted, isCommitted, stage?, stage?, h]

theorem kind?_congr (h : log'.info? x = log.info? x) : log'.kind? x = log.kind? x := by
  rw [kind?, kind?, h]

/-! ## Gains -/

/-- The node `x` is a chunk, or it is the error that came in. -/
def IsGain (log : MarkerLog) (error? : Option Marker) (x : Marker) : Prop :=
  log.kind? x = some .chunk ∨ error? = some x ∧ log.kind? x = some .error

/-- The nodes of `old` are in `log` as they were, with chunks and at most one error besides. -/
structure Gains (old : MarkerLog) (error? : Option Marker) (log : MarkerLog) : Prop where
  sound : log.Sound
  order : List.Sublist old.brackets log.brackets
  nodes : ∀ x, old.isCommitted x = true → log.info? x = old.info? x
  gained : ∀ x, log.isCommitted x = true → old.isCommitted x = true ∨ log.IsGain error? x

/-- What is known of the marker makes it a node or none, and of what kind. -/
theorem IsGain.congr (h : log.IsGain error? x) (hx : log'.info? x = log.info? x) :
    log'.IsGain error? x := by
  rw [IsGain, kind?_congr hx]
  exact h

namespace Gains

theorem refl (h : old.Sound) : Gains old none old :=
  ⟨h, .refl _, fun _ _ => rfl, fun _ hx => .inl hx⟩

theorem isCommitted (h : Gains old error? log) (hx : old.isCommitted x = true) :
    log.isCommitted x = true :=
  (isCommitted_congr (h.nodes x hx)).trans hx

/-- It does not matter what becomes of other markers. -/
theorem same (h : Gains old error? log) (hs : log'.Sound) (hsame : log.sameNodes log' = true) :
    Gains old error? log' := by
  have hbrackets := brackets_eq_of_sameNodes hsame
  refine ⟨hs, hbrackets ▸ h.order, fun x hx => ?_, fun x hx => ?_⟩
  · exact (info?_of_sameNodes h.sound hsame (h.isCommitted hx)).trans (h.nodes x hx)
  · have hmem := start_mem_brackets hs hx
    rw [hbrackets] at hmem
    have hcommitted := isCommitted_of_start_mem hmem
    exact (h.gained x hcommitted).imp_right
      (·.congr (info?_of_sameNodes h.sound hsame hcommitted))

theorem fresh_ne (h : Gains old error? log) (hx : old.isCommitted x = true) : log.fresh ≠ x := by
  rintro rfl
  obtain ⟨info, hi, -⟩ := isCommitted_iff.1 (h.isCommitted hx)
  exact absurd (lt_size_of_info? hi) (Nat.lt_irrefl _)

/-- A marker that is opened is none of the nodes. -/
theorem isCommitted_fresh (h : Gains old error? log) : old.isCommitted log.fresh = false :=
  Bool.eq_false_iff.2 fun hx => h.fresh_ne hx rfl

/-- Where entries are only added, and only one marker changes, which is none of the nodes, the nodes are
as they were. -/
theorem change {error?' : Option Marker} (h : Gains old error? log) (hc : log.Continues log')
    (hm : old.isCommitted m = false) (hother : ∀ x, m ≠ x → log'.info? x = log.info? x)
    (hgain : log'.isCommitted m = true → log'.IsGain error?' m)
    (herror : ∀ x, m ≠ x → log.IsGain error? x → log.IsGain error?' x) :
    Gains old error?' log' := by
  have hne (x : Marker) (hx : old.isCommitted x = true) : m ≠ x := by
    rintro rfl
    rw [hm] at hx
    cases hx
  have hkept (x : Marker) (hx : old.isCommitted x = true) : log'.isCommitted x = true :=
    (isCommitted_congr (hother x (hne x hx))).trans (h.isCommitted hx)
  refine ⟨hc.sound, ?_, fun x hx => (hother x (hne x hx)).trans (h.nodes x hx), fun x hx => ?_⟩
  · -- the brackets of `old` are among the entries, and they still shape the tree
    have hshapes (e : Entry) (he : e ∈ old.brackets) : log'.shapes e = true := by
      have hold := (List.mem_filter.1 he).2
      cases e with
      | start x | commit x => exact hkept x hold
      | drop x prior => cases hold
    have hentries : List.Sublist old.brackets log'.entries.reverse :=
      h.order.trans (List.filter_sublist.trans hc.entries.reverse)
    have hfilter := hentries.filter log'.shapes
    rwa [List.filter_eq_self.2 hshapes] at hfilter
  · by_cases hx' : m = x
    · subst hx'
      exact .inr (hgain hx)
    · have hsame := hother x hx'
      rw [isCommitted_congr hsame] at hx
      exact (h.gained x hx).imp_right fun hx => (herror x hx' hx).congr hsame

theorem openAt (h : Gains old error? log) (p : Nat) : Gains old error? (log.openAt p).2 := by
  refine h.change (.openAt h.sound p) h.isCommitted_fresh (fun x hx => info?_openAt_of_ne hx p)
    (fun hc => ?_) fun _ _ => id
  simp [MarkerLog.isCommitted, stage?, info?, MarkerLog.openAt, fresh] at hc

theorem wrap (h : Gains old error? log) (x : Marker) : Gains old error? (log.wrap x).2 := by
  refine h.change (.wrap h.sound x) h.isCommitted_fresh (fun y hy => info?_wrap_of_ne hy x)
    (fun hc => ?_) fun _ _ => id
  simp [MarkerLog.isCommitted, stage?, info?, MarkerLog.wrap, fresh] at hc

theorem drop (h : Gains old error? log) (hm : old.isCommitted m = false) :
    Gains old error? (log.drop m) := by
  refine h.change (.drop h.sound m) hm (fun x hx => info?_drop_of_ne hx) (fun hc => ?_) fun _ _ => id
  rw [isCommitted_drop_self] at hc
  cases hc

/-- A marker that could be committed is committed as what it was to be. -/
theorem commit_cases (log : MarkerLog) (m : Marker) (kind : Kind) (error : Option SyntaxError)
    (p : Nat) : (log.commit m kind error p).info? m = log.info? m ∨
      (log.commit m kind error p).kind? m = some kind := by
  by_cases hs : log.stage? m = some .opened
  · obtain ⟨info, hi, ho⟩ := Option.map_eq_some_iff.1 hs
    exact .inr (by rw [kind?, info?_commit_self hi ho]; rfl)
  · exact .inl (by rw [MarkerLog.commit, if_neg hs])

/-- What is committed, if anything is, has to be a gain. -/
theorem commit {error'? : Option Marker} (h : Gains old error? log) (hm : old.isCommitted m = false)
    (kind : Kind) (error : Option SyntaxError) (p : Nat)
    (hmono : ∀ x, log.IsGain error? x → log.IsGain error'? x)
    (hkind : (log.commit m kind error p).kind? m = some kind →
      (log.commit m kind error p).IsGain error'? m) :
    Gains old error'? (log.commit m kind error p) := by
  refine h.change (.commit h.sound ..) hm (fun x hx => info?_commit_of_ne hx ..) (fun hc => ?_) fun x _ => hmono x
  rcases commit_cases log m kind error p with hsame | hnew
  · have hbefore : log.isCommitted m = true := (isCommitted_congr hsame).symm.trans hc
    rcases h.gained m hbefore with hold | hgain
    · rw [hm] at hold
      cases hold
    · exact (hmono m hgain).congr hsame
  · exact hkind hnew

/-- Chunks may be committed at will. -/
theorem commitChunk (h : Gains old error? log) (hm : old.isCommitted m = false) (p : Nat) :
    Gains old error? (log.commit m .chunk none p) :=
  h.commit hm .chunk none p (fun _ => id) .inl

/-- One error may be committed. -/
theorem commitError (h : Gains old none log) (hm : old.isCommitted m = false)
    (error : Option SyntaxError) (p : Nat) :
    Gains old (some m) (log.commit m .error error p) :=
  h.commit hm .error error p (fun _ hx => hx.imp_right fun hx => nomatch hx.1) fun hkind => .inr ⟨rfl, hkind⟩

end Gains

/-! ## Keeping nodes in their places -/

/-- The nodes of `old` are in `log`, the node `x` at `place x`, with chunks and at most one error besides.
If a node was widened, it ends at the position now, or where it starts if it starts behind it. -/
structure Keeps (old : MarkerLog) (place : Marker → Marker) (widened? error? : Option Marker)
    (position : Nat) (log : MarkerLog) : Prop where
  order : List.Sublist (old.brackets.map (Entry.rename place)) log.brackets
  same : ∀ x, old.isCommitted x = true → widened? ≠ some x → log.info? (place x) = old.info? x
  wider : ∀ x info, old.isCommitted x = true → widened? = some x → old.info? x = some info →
    log.info? (place x) = some { info with stop := max position info.start }
  gained : ∀ y, log.isCommitted y = true →
    (∃ x, old.isCommitted x = true ∧ place x = y) ∨ log.IsGain error? y

theorem Gains.keeps (h : Gains old error? log) (position : Nat) :
    Keeps old id none error? position log where
  order := by
    rw [show Entry.rename id = id from funext Entry.rename_id, List.map_id]
    exact h.order
  same x hx _ := h.nodes x hx
  wider x info _ hx := nomatch hx
  gained y hy := (h.gained y hy).imp_left fun hold => ⟨y, hold, rfl⟩

/-- Puts a node in the place of another one, from the same start up to a position. -/
def renew (log : MarkerLog) (m : Marker) (kind : Kind) (error : Option SyntaxError) (p : Nat) :
    MarkerLog :=
  ((log.wrap m).2.commit log.fresh kind error p).drop m

section
variable {info : MarkerInfo} {kind : Kind}

/-- The new node is like the old one but for its end. -/
theorem info?_renew_fresh (hi : log.info? m = some info) (hkind : info.kind = some kind)
    (hs : info.stage = .committed) (p : Nat) :
    (log.renew m kind info.error p).info? log.fresh =
      some { info with stop := max p info.start } := by
  have hlt := lt_size_of_info? hi
  have hne : m ≠ log.fresh := fun he => Nat.ne_of_lt hlt (congrArg Marker.number he)
  have hstart : log.start m = info.start := by rw [start, hi]; rfl
  have hwrapped : (log.wrap m).2.info? log.fresh =
      some { start := log.start m, stop := log.start m } := by
    simp [MarkerLog.wrap, info?, fresh]
  rw [renew, info?_drop_of_ne hne, info?_commit_self hwrapped rfl, hstart, ← hkind, ← hs]

theorem info?_renew_of_ne (hx : log.fresh ≠ x) (hm : m ≠ x) (error : Option SyntaxError) (p : Nat) :
    (log.renew m kind error p).info? x = log.info? x := by
  rw [renew, info?_drop_of_ne hm, info?_commit_of_ne hx, info?_wrap_of_ne hx]

/-- But for the old node's own entries, those before the new node was committed are all there. -/
theorem sublist_entries_renew {later older : List Entry} (h : log.Sound)
    (hes : log.entries = later ++ .start m :: older) (kind : Kind) (error : Option SyntaxError)
    (p : Nat) : List.Sublist (Entry.commit log.fresh :: (later ++ .start log.fresh :: older))
      (log.renew m kind error p).entries := by
  have hopened : (log.wrap m).2.stage? log.fresh = some .opened := by
    simp [MarkerLog.wrap, stage?, info?, fresh]
  have hcommit : ((log.wrap m).2.commit log.fresh kind error p).entries =
      .commit log.fresh :: (later ++ .start m :: .start log.fresh :: older) := by
    rw [MarkerLog.commit, if_pos hopened, h.entries_wrap hes]
  refine List.Sublist.trans ?_ (suffix_entries_drop _ m).sublist
  rw [hcommit]
  exact (((List.Sublist.refl _).append (List.sublist_cons_self ..))).cons_cons _

/-- There are two entries of a node. -/
theorem Sound.eq_of_marker (h : log.Sound) (hm : log.isCommitted m = true) {e : Entry}
    (he : e ∈ log.entries) (hem : e.marker = m) : e = .commit m ∨ e = .start m := by
  have hown := mem_history.2 ⟨he, hem⟩
  rw [h.isCommitted_iff.1 hm] at hown
  exact List.mem_pair.1 hown

/-- What was a node is one after the renewal, in its place. -/
theorem isCommitted_renew (hi : log.info? m = some info) (hkind : info.kind = some kind)
    (hs : info.stage = .committed) (hx : log.isCommitted x = true) (p : Nat) :
    (log.renew m kind info.error p).isCommitted (m.inPlace log.fresh x) = true := by
  by_cases hxm : x = m
  · subst hxm
    rw [Marker.inPlace_self]
    exact isCommitted_iff.2 ⟨_, info?_renew_fresh hi hkind hs p, hs⟩
  · obtain ⟨info', hi', -⟩ := isCommitted_iff.1 hx
    have hfresh : log.fresh ≠ x := by
      rintro rfl
      exact absurd (lt_size_of_info? hi') (Nat.lt_irrefl _)
    rw [Marker.inPlace_of_ne hxm, isCommitted_congr (info?_renew_of_ne hfresh (Ne.symm hxm) _ _)]
    exact hx

/-- The entries before the commitment of a node are kept in their order when its start is renamed. -/
theorem sublist_rename_before {es : List Entry} {later older : List Entry} (h : log.Sound)
    (hm : log.isCommitted m = true) (hentries : log.entries = later ++ .start m :: older)
    (hes : List.Sublist (es ++ [.commit m]) log.brackets) (y : Marker) :
    List.Sublist (es.map (Entry.rename (m.inPlace y)))
      (older.reverse ++ .start y :: later.reverse) := by
  obtain ⟨hlater, holder⟩ := h.notMem_of_entries hentries
  have hother (l : List Entry) (hl : ∀ e ∈ l, e ∈ log.entries) (hstart : .start m ∉ l) :
      (l.filter (· != .commit m)).map (Entry.rename (m.inPlace y)) = l.filter (· != .commit m) := by
    refine map_rename_inPlace fun e he hem => ?_
    obtain ⟨hel, hcommit⟩ := List.mem_filter.1 he
    rcases h.eq_of_marker hm (hl e hel) hem with rfl | rfl
    · simp at hcommit
    · exact hstart hel
  have hlast : es.filter (· != .commit m) = es := by
    refine List.filter_eq_self.2 fun e he => bne_iff_ne.2 ?_
    rintro rfl
    have hnodup := hes.nodup h.nodup_brackets
    exact (List.nodup_append.1 hnodup).2.2 _ he _ (List.mem_singleton_self _) rfl
  have hreverse : log.entries.reverse = older.reverse ++ .start m :: later.reverse := by
    rw [hentries]
    simp
  have hsub := ((List.sublist_append_left es [.commit m]).trans
    (hes.trans List.filter_sublist)).filter (· != .commit m)
  rw [hlast, hreverse, List.filter_append, List.filter_cons_of_pos (by simp)] at hsub
  have hmap := hsub.map (Entry.rename (m.inPlace y))
  rw [List.map_append, List.map_cons,
    hother older.reverse (fun e he => by simp [hentries, List.mem_reverse.1 he]) (by simpa using holder),
    hother later.reverse (fun e he => by simp [hentries, List.mem_reverse.1 he]) (by simpa using hlater),
    Entry.rename, Marker.inPlace_self] at hmap
  exact hmap.trans (List.filter_sublist.append (List.filter_sublist.cons_cons _))

/-- The brackets keep their order where the node that was committed last is renewed. -/
theorem brackets_renew {es : List Entry} (h : log.Sound) (hi : log.info? m = some info)
    (hkind : info.kind = some kind) (hs : info.stage = .committed)
    (hes : List.Sublist (es ++ [.commit m]) log.brackets) (p : Nat) :
    List.Sublist ((es ++ [Entry.commit m]).map (Entry.rename (m.inPlace log.fresh)))
      (log.renew m kind info.error p).brackets := by
  have hm : log.isCommitted m = true := isCommitted_iff.2 ⟨info, hi, hs⟩
  obtain ⟨later, older, hentries⟩ :=
    List.append_of_mem (h.start_mem_of_committed (isCommitted_iff_stage?.1 hm))
  have hall : List.Sublist ((es ++ [Entry.commit m]).map (Entry.rename (m.inPlace log.fresh)))
      (log.renew m kind info.error p).entries.reverse := by
    have hbefore := sublist_rename_before h hm hentries hes log.fresh
    have hsub := (sublist_entries_renew h hentries kind info.error p).reverse
    rw [List.map_append, List.map_singleton, Entry.rename, Marker.inPlace_self]
    refine (hbefore.append (List.Sublist.refl _)).trans (.trans ?_ hsub)
    simp
  -- all of them belong to nodes
  have hshapes (e : Entry) (he : e ∈ (es ++ [Entry.commit m]).map
      (Entry.rename (m.inPlace log.fresh))) : (log.renew m kind info.error p).shapes e = true := by
    obtain ⟨e, hmem, rfl⟩ := List.mem_map.1 he
    have hshape := (List.mem_filter.1 (hes.subset hmem)).2
    cases e with
    | start x | commit x => exact isCommitted_renew hi hkind hs hshape p
    | drop x prior => cases hshape
  have hfilter := hall.filter (log.renew m kind info.error p).shapes
  rwa [List.filter_eq_self.2 hshapes] at hfilter

end

/-- A node that may be widened is the last one to be closed. -/
theorem brackets_of_lastWidenable? (h : log.lastWidenable? = some m) :
    ∃ es, log.brackets = es ++ [.commit m] := by
  have hfind : log.entries.find? log.counts = some (.commit m) := by
    unfold lastWidenable? at h
    split at h
    · cases h
      assumption
    · cases h
  obtain ⟨hcounts, later, older, hentries, hlater⟩ := List.find?_eq_some_iff_append.1 hfind
  have hnone : later.filter log.shapes = [] := by
    refine List.filter_eq_nil_iff.2 fun e he hshape => ?_
    have hcount := hlater e he
    cases e with
    | start x =>
      rw [counts, isCommitted_iff_stage?.1 hshape] at hcount
      cases hcount
    | commit x =>
      rw [counts, show log.isCommitted x = true from hshape] at hcount
      cases hcount
    | drop x prior => cases hshape
  refine ⟨(older.filter log.shapes).reverse, ?_⟩
  rw [brackets, List.filter_reverse, hentries, List.filter_append, hnone, List.nil_append,
    List.filter_cons_of_pos (show log.shapes (.commit m) = true from hcounts), List.reverse_cons]

/-- After the node committed last was renewed, the nodes are still kept. -/
theorem Gains.renew (h : Gains old error? log) {es : List Entry} {info : MarkerInfo} {kind : Kind}
    (hlast : old.brackets = es ++ [.commit m]) (hi : log.info? m = some info)
    (hkind : info.kind = some kind) (p : Nat) :
    Keeps old (m.inPlace log.fresh) (some m) error? p
      (log.renew m kind info.error p) := by
  have hold : old.isCommitted m = true := by
    have hmem : .commit m ∈ old.brackets := by simp [hlast]
    exact isCommitted_of_shapes (List.mem_filter.1 hmem).2
  have hs : info.stage = .committed := stage_of_isCommitted (h.isCommitted hold) hi
  refine ⟨hlast ▸ brackets_renew h.sound hi hkind hs (hlast ▸ h.order) p, fun x hx hne => ?_,
    fun x info' hx hw hi' => ?_, fun y hy => ?_⟩
  · have hne' : x ≠ m := fun he => hne (congrArg some he.symm)
    rw [Marker.inPlace_of_ne hne', info?_renew_of_ne (h.fresh_ne hx) (Ne.symm hne')]
    exact h.nodes x hx
  · obtain rfl : m = x := Option.some.inj hw
    obtain rfl : info = info' := by
      rw [← h.nodes m hx, hi] at hi'
      exact Option.some.inj hi'
    rw [Marker.inPlace_self, info?_renew_fresh hi hkind hs]
  · by_cases hfresh : log.fresh = y
    · exact .inl ⟨m, hold, by rw [Marker.inPlace_self, hfresh]⟩
    · have hne : m ≠ y := by
        rintro rfl
        rw [MarkerLog.renew, isCommitted_drop_self] at hy
        cases hy
      have hsame : (log.renew m kind info.error p).info? y = log.info? y :=
        info?_renew_of_ne hfresh hne info.error p
      rw [isCommitted_congr hsame] at hy
      rcases h.gained y hy with hy | hy
      · exact .inl ⟨y, hy, Marker.inPlace_of_ne (Ne.symm hne) _⟩
      · exact .inr (hy.congr hsame)

end MarkerLog

end Descent
