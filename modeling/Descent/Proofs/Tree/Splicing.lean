import Descent.Proofs.MarkerLog.LastNodes
import Descent.Proofs.Source.Significant
import Descent.Proofs.Tree.Shape

/-!
# Dropping a node

Dropping a committed marker takes its node out of the tree of a well-nested log and leaves what is inside. But
for trivia and spans the tree is the one from before with the children of the node in its place
(`MarkerLog.shapes_toTree_drop`).

Where a node is gone its ends no longer part the trivia around it, so the two trees have their trivia in
different places. What they have in common is that they are drawn from brackets (`Drawing`): a drawing in which
a node is replaced by its children is one of the brackets without those of the node (`Drawing.splice`), and two
drawings of the same brackets have the same shape (`Drawing.shapesAll_eq`).
-/

namespace Descent

/-! ## Replacing a node by its children -/

namespace Tree

mutual

/-- The tree with the node at a path replaced by its children. -/
def splice : List Nat → Tree → List Tree
  | [], t => t.children
  | _ :: _, leaf t => [leaf t]
  | k :: path, node kind span error ts => [node kind span error (spliceAll k path ts)]

/-- The trees with the node at a path in tree `k` replaced by its children. -/
def spliceAll (k : Nat) (path : List Nat) : List Tree → List Tree
  | [] => []
  | t :: ts =>
    match k with
    | 0 => t.splice path ++ ts
    | k + 1 => t :: spliceAll k path ts

end

theorem spliceAll_append (k : Nat) (path : List Nat) (ts us : List Tree) :
    spliceAll (ts.length + k) path (ts ++ us) = ts ++ spliceAll k path us := by
  induction ts with
  | nil => rw [List.length_nil, Nat.zero_add, List.nil_append, List.nil_append]
  | cons t ts ih =>
    rw [List.length_cons, Nat.add_right_comm, List.cons_append, spliceAll, ih, List.cons_append]

end Tree

/-! ## Brackets without those of a marker -/

section
variable {es inside rest : List Entry} {m x : Marker}

theorem BalancedBrackets.start_mem_of_mem (h : BalancedBrackets es) {e : Entry} (he : e ∈ es) :
    .start e.marker ∈ es := by
  induction h with
  | nil => cases he
  | node x _ _ hi hr =>
    simp only [List.mem_cons, List.mem_append] at he ⊢
    rcases he with rfl | he | rfl | he
    · exact .inl rfl
    · exact .inr (.inl (hi he))
    · exact .inl rfl
    · exact .inr (.inr (.inr (hr he)))

/-- The brackets of other markers than `m`. -/
def without (m : Marker) (es : List Entry) : List Entry := es.filter fun e => decide (e.marker ≠ m)

theorem BalancedBrackets.without_eq_self (h : BalancedBrackets es) (hm : .start m ∉ es) :
    without m es = es := by
  refine List.filter_eq_self.2 fun e he => decide_eq_true ?_
  rintro rfl
  exact hm (h.start_mem_of_mem he)

theorem without_node_self :
    without m (.start m :: (inside ++ .commit m :: rest)) = without m inside ++ without m rest := by
  simp [without, Entry.marker]

theorem without_node (hx : x ≠ m) :
    without m (.start x :: (inside ++ .commit x :: rest)) =
      .start x :: (without m inside ++ .commit x :: without m rest) := by
  simp [without, Entry.marker, hx]

end

/-! ## Drawings -/

theorem Aligned.congr {source : Source} {isTrivia : Nat → Bool} {n p q : Nat}
    (h : Aligned source isTrivia n q) (h' : Aligned source isTrivia p q) :
    Aligned source isTrivia n p :=
  ⟨h.le, fun i hi htriv => (h.iff i hi htriv).trans (h'.iff i hi htriv).symm⟩

namespace Drawing

variable {log log' : MarkerLog} {source : Source} {isTrivia : Nat → Bool} {es fs inside rest : List Entry}
  {n n₀ n₁ n' : Nat} {ts us : List Tree} {m : Marker}

/-- A drawing depends on its own markers only. -/
theorem congr (h : Drawing log source isTrivia n es n' ts)
    (hsame : ∀ x, .start x ∈ es → log'.info? x = log.info? x) :
    Drawing log' source isTrivia n es n' ts := by
  induction h with
  | tokens hle => exact .tokens hle
  | @node m inside rest _ _ _ _ _ _ _ _ span hle hkind herror hstart _ hstop _ hi hr =>
    have hm : log'.info? m = log.info? m := hsame m List.mem_cons_self
    refine .node span hle ?_ ?_ ?_ (hi fun x hx => hsame x ?_) ?_ (hr fun x hx => hsame x ?_)
    · rwa [MarkerLog.kind?, hm]
    · rwa [MarkerLog.error?, hm]
    · rwa [MarkerLog.start, hm]
    · simp [hx]
    · rwa [MarkerLog.stop, hm]
    · simp [hx]

/-- The brackets without those of a marker that has none are drawn as before. -/
theorem without_of_notMem (h : Drawing log source isTrivia n es n' ts) (hm : .start m ∉ es)
    (hsame : ∀ x ≠ m, log'.info? x = log.info? x) :
    Drawing log' source isTrivia n (without m es) n' ts := by
  rw [h.balanced.without_eq_self hm]
  refine h.congr fun x hx => hsame x ?_
  rintro rfl
  exact hm hx

/-! ### The node of a marker -/

/-- The trees have as many nodes as there are markers started. -/
theorem length_starts (h : Drawing log source isTrivia n es n' ts) (path : List Nat) (first i : Nat) :
    (starts es).length = (Tree.placesAll path first i ts).length := by
  induction h generalizing path first i with
  | tokens => rw [Tree.placesAll_map_leaf]; rfl
  | node _ _ _ _ _ _ _ _ hi hr =>
    rw [starts_cons_start, starts_append, starts_cons_commit, Tree.placesAll_append,
      Tree.placesAll_map_leaf, List.nil_append, Tree.placesAll, Tree.places, List.cons_append,
      List.length_cons, List.length_append, List.length_cons, List.length_append, hi, hr]

/-- The markers of a node and of what is behind it, each with its place. -/
theorem zip_node (h : Drawing log source isTrivia n inside n' ts) (m : Marker) (rest : List Entry)
    (l : List Token) (kind : Kind) (span : Span) (error : Option SyntaxError) (us : List Tree)
    (path : List Nat) (first i : Nat) : ∃ first₀ first₁,
    (starts (.start m :: (inside ++ .commit m :: rest))).zip
        (Tree.placesAll path first i (l.map .leaf ++ .node kind span error ts :: us)) =
      (m, ⟨path ++ [i + l.length], first₀, .node kind span error ts⟩) ::
        ((starts inside).zip (Tree.placesAll (path ++ [i + l.length]) first₀ 0 ts) ++
          (starts rest).zip (Tree.placesAll path first₁ (i + l.length + 1) us)) := by
  let first₀ := first + (Tree.leavesAll (l.map Tree.leaf)).length
  refine ⟨first₀, first₀ + (Tree.node kind span error ts).leaves.length, ?_⟩
  rw [starts_cons_start, starts_append, starts_cons_commit, Tree.placesAll_append,
    Tree.placesAll_map_leaf, List.nil_append, Tree.placesAll, Tree.places, List.cons_append,
    List.zip_cons_cons, List.zip_append (h.length_starts ..), List.length_map]

/-- Replacing the node of a marker by its children gives a drawing of the brackets without those of the
marker. -/
theorem splice (h : Drawing log source isTrivia n es n' ts) (hm : .start m ∈ es) (hd : es.Nodup)
    (hsame : ∀ x ≠ m, log'.info? x = log.info? x) :
    ∃ k below,
      (∀ path first i, ∃ p, (m, p) ∈ (starts es).zip (Tree.placesAll path first i ts) ∧
        p.path = path ++ (i + k) :: below) ∧
      Drawing log' source isTrivia n (without m es) n' (Tree.spliceAll k below ts) := by
  induction h with
  | tokens => cases hm
  | @node x inside rest n n₀ n₁ n' ts us kind error span hle hkind herror hstart hinside hstop hrest
      ihi ihr =>
    let leaves := (source.between n n₀).map Tree.leaf
    obtain ⟨hx, hd⟩ := List.nodup_cons.1 hd
    obtain ⟨hdi, hdr, hapart⟩ := List.nodup_append.1 hd
    have hdr := (List.nodup_cons.1 hdr).2
    by_cases hxm : x = m
    · subst hxm
      refine ⟨leaves.length, [], fun path first i => ?_, ?_⟩
      · obtain ⟨first₀, first₁, hzip⟩ :=
          hinside.zip_node x rest (source.between n n₀) kind span error us path first i
        rw [hzip]
        exact ⟨_, List.mem_cons_self, by rw [List.length_map]⟩
      · rw [without_node_self, ← Nat.add_zero leaves.length, Tree.spliceAll_append]
        refine ((hinside.without_of_notMem ?_ hsame).append
          (hrest.without_of_notMem ?_ hsame)).widen hle
        · exact fun hmem => hx (List.mem_append_left _ hmem)
        · exact fun hmem => hx (List.mem_append_right _ (List.mem_cons_of_mem _ hmem))
    · have hkind' : log'.kind? x = some kind := by rwa [MarkerLog.kind?, hsame x hxm]
      have herror' : log'.error? x = error := by rwa [MarkerLog.error?, hsame x hxm]
      have hstart' : Aligned source isTrivia n₀ (log'.start x) := by
        rwa [MarkerLog.start, hsame x hxm]
      have hstop' : Aligned source isTrivia n₁ (log'.stop x) := by rwa [MarkerLog.stop, hsame x hxm]
      rw [without_node hxm]
      have hm : .start m ∈ inside ∨ .start m ∈ rest := by simpa [Ne.symm hxm] using hm
      rcases hm with hm | hm
      · obtain ⟨k, below, hplace, hdraw⟩ := ihi hm hdi
        have hnot : .start m ∉ rest := fun hmem =>
          hapart _ hm _ (List.mem_cons_of_mem _ hmem) rfl
        refine ⟨leaves.length, k :: below, fun path first i => ?_, ?_⟩
        · obtain ⟨first₀, first₁, hzip⟩ :=
            hinside.zip_node x rest (source.between n n₀) kind span error us path first i
          obtain ⟨p, hp, hpath⟩ := hplace (path ++ [i + (source.between n n₀).length]) first₀ 0
          rw [hzip]
          exact ⟨p, List.mem_cons_of_mem _ (List.mem_append_left _ hp), by simp [hpath, leaves]⟩
        · rw [← Nat.add_zero leaves.length, Tree.spliceAll_append]
          exact .node span hle hkind' herror' hstart' hdraw hstop'
            (hrest.without_of_notMem hnot hsame)
      · obtain ⟨k, below, hplace, hdraw⟩ := ihr hm hdr
        have hnot : .start m ∉ inside := fun hmem =>
          hapart _ hmem _ (List.mem_cons_of_mem _ hm) rfl
        refine ⟨leaves.length + (k + 1), below, fun path first i => ?_, ?_⟩
        · obtain ⟨first₀, first₁, hzip⟩ :=
            hinside.zip_node x rest (source.between n n₀) kind span error us path first i
          obtain ⟨p, hp, hpath⟩ := hplace path first₁ (i + (source.between n n₀).length + 1)
          rw [hzip]
          refine ⟨p, List.mem_cons_of_mem _ (List.mem_append_right _ hp), ?_⟩
          rw [hpath, List.length_map]
          congr 2
          omega
        · rw [Tree.spliceAll_append]
          exact .node span hle hkind' herror' hstart' (hinside.without_of_notMem hnot hsame)
            hstop' hdraw

/-! ### The shape of a drawing -/

/-- Between positions that are the same but for trivia there are the same tokens but for trivia. -/
theorem shapesAll_between {g : Setup} {p p' : Nat} (hn : Aligned g.source g.isTriviaAt n p)
    (hn' : Aligned g.source g.isTriviaAt n' p') (hle : n ≤ n') (hle' : p ≤ p') :
    Tree.shapesAll g.language g.source ((g.source.between n n').map .leaf) =
      Tree.shapesAll g.language g.source ((g.source.between p p').map .leaf) := by
  have hsplit := (g.tokensBefore_of_le hle').symm.trans (Setup.tokensBefore_between hn hn' hle)
  have hwords (l : List Token) : l.filterMap (g.source.glimpse g.language) =
      (l.filter g.language.isSignificant).filterMap (g.source.glimpse g.language) := by
    rw [List.filterMap_filter]
    refine List.filterMap_congr fun t _ => ?_
    by_cases ht : g.language.isTrivia t.kind <;> simp [Source.glimpse, Language.isSignificant, ht]
  rw [Tree.shapesAll_map_leaf, Tree.shapesAll_map_leaf, hwords, ← List.append_cancel_left hsplit, ← hwords]

/-- Brackets are drawn in one way only, but for trivia and spans. -/
theorem shapesAll_eq {g : Setup} {p p' : Nat} (h : Drawing log g.source g.isTriviaAt n es n' ts)
    (h' : Drawing log g.source g.isTriviaAt p es p' us) (hd : es.Nodup)
    (hn : Aligned g.source g.isTriviaAt n p) (hn' : Aligned g.source g.isTriviaAt n' p') :
    Tree.shapesAll g.language g.source ts = Tree.shapesAll g.language g.source us := by
  induction h generalizing p p' us with
  | tokens hle =>
    cases h' with
    | tokens hle' => exact shapesAll_between hn hn' hle hle'
  | @node m inside rest n n₀ n₁ n' ts us kind error span hle hkind herror hstart hinside hstop hrest
      ihi ihr =>
    obtain ⟨-, hd⟩ := List.nodup_cons.1 hd
    obtain ⟨hdi, hdr, hapart⟩ := List.nodup_append.1 hd
    obtain ⟨hcommit, hdr⟩ := List.nodup_cons.1 hdr
    have hcommit' : .commit m ∉ inside := fun hmem => hapart _ hmem _ List.mem_cons_self rfl
    generalize hes : Entry.start m :: (inside ++ .commit m :: rest) = es at h'
    cases h' with
    | tokens => cases hes
    | @node m' inside' rest' _ p₀ p₁ _ ts' us' kind' error' span' hle' hkind' herror' hstart' hinside'
        hstop' hrest' =>
      obtain ⟨hm, hes⟩ := List.cons.inj hes
      obtain rfl := Entry.start.inj hm
      obtain ⟨rfl, -, rfl⟩ := (List.append_cons_inj_of_notMem hcommit' hcommit).1 hes
      obtain rfl : kind = kind' := Option.some.inj (hkind.symm.trans hkind')
      obtain rfl : error = error' := herror.symm.trans herror'
      have hn₀ := hstart.congr hstart'
      have hn₁ := hstop.congr hstop'
      simp only [Tree.shapesAll_append, Tree.shapesAll, Tree.shapes, shapesAll_between hn hn₀ hle hle',
        ihi hinside' hdi hn₀ hn₁, ihr hrest' hdr hn₁ hn']

end Drawing

/-! ## Trees of well-nested logs -/

namespace MarkerLog

variable {log : MarkerLog} {source : Source} {isTrivia : Nat → Bool} {merged : Option Marker} {m : Marker}

theorem rootMarker?_eq_none {root : Kind}
    (h : ∀ x, log.isCommitted x = true → log.kind? x ≠ some root) : log.rootMarker? root = none := by
  rw [rootMarker?_eq, Option.filter_eq_none_iff]
  intro x hx
  have hmem := mem_brackets_of_firstCommitted? hx
  have hkind := h x (isCommitted_of_shapes (List.mem_filter.1 hmem).2)
  simpa using hkind

theorem position_drop (log : MarkerLog) (m : Marker) (e : Entry) :
    (log.drop m).position e = log.position e := by
  have hinfo (x : Marker) : (log.drop m).start x = log.start x ∧ (log.drop m).stop x = log.stop x := by
    unfold start stop
    cases hi : log.info? x with
    | none =>
      have hsize : (log.drop m).info? x = none :=
        info?_eq_none_iff.2 (by simpa using info?_eq_none_iff.1 hi)
      rw [hsize]
      exact ⟨rfl, rfl⟩
    | some info =>
      obtain ⟨stage, hs⟩ := info?_drop hi m
      rw [hs]
      exact ⟨rfl, rfl⟩
  cases e with
  | start x => exact (hinfo x).1
  | commit x => exact (hinfo x).2
  | drop x prior => rfl

/-- Dropping a committed marker of a well-nested log replaces its node by the children of the node, in order,
and changes nothing else, but for trivia and spans. -/
theorem shapes_toTree_drop (hlog : log.Reachable) (h : log.WellNested) (hm : log.isCommitted m = true)
    {root : Kind} (hroot : ∀ x, log.isCommitted x = true → log.kind? x ≠ some root) (source : Source)
    (language : Language) :
    ∃ p, (m, p) ∈ (log.innerNodes root).zip (log.toTree source language root).innerPlaces ∧
      Fits log source (fun i => language.isTrivia? (source.kind? i)) m p ∧
      ((log.drop m).toTree source language root).shapes language source =
        Tree.shapesAll language source ((log.toTree source language root).splice p.path) := by
  have hsound := hlog.sound
  have hnone := rootMarker?_eq_none hroot
  have hdraw {log : MarkerLog} (hsound : log.Sound) (h : log.WellNested)
      (hroot : log.rootMarker? root = none) :=
    drawing_toTree hsound h source language root h.balanced (List.Sublist.refl _)
      (by simp [hroot]) rfl
  have hinner : log.innerNodes root = starts log.brackets := by simp [innerNodes, hnone]
  have hmem : .start m ∈ log.brackets :=
    mem_starts.1 (hinner ▸ (mem_innerNodes hsound).2 ⟨hm, by simp [hnone]⟩)
  have hd := hsound.nodup_brackets
  obtain ⟨k, below, hplace, hspliced⟩ := (hdraw hsound h hnone).splice
    hmem hd fun x hx => info?_drop_of_ne (Ne.symm hx)
  obtain ⟨p, hp, hpath⟩ := hplace [] 0 0
  rw [← hinner] at hp
  -- the log is well-nested without the node too
  have hbrackets : (log.drop m).brackets = without m log.brackets := brackets_drop_eq_filter hm
  have hsub : (log.drop m).brackets.Sublist log.brackets := hbrackets ▸ List.filter_sublist
  have h' : (log.drop m).WellNested := by
    refine ⟨hbrackets ▸ hspliced.balanced, ?_⟩
    rw [funext (position_drop log m)]
    exact h.ascending.sublist (hsub.map _)
  have hnone' : (log.drop m).rootMarker? root = none := by
    refine rootMarker?_eq_none fun x hx => ?_
    have hxm : m ≠ x := by
      rintro rfl
      rw [isCommitted_drop_self] at hx
      cases hx
    rw [isCommitted, stage?_drop_of_ne hxm] at hx
    rw [kind?, info?_drop_of_ne hxm]
    exact hroot x hx
  have hdrop := hdraw (hsound.drop m) h' hnone'
  rw [hbrackets] at hdrop
  have hshapes := Drawing.shapesAll_eq (g := { source, language }) hdrop hspliced
    (hd.sublist List.filter_sublist) ⟨Nat.zero_le _, fun _ _ _ => Iff.rfl⟩
    ⟨Nat.le_refl _, fun _ _ _ => Iff.rfl⟩
  obtain ⟨ps, hfst, hsnd, hfits, -⟩ := outline_toTree hlog h source language root
  refine ⟨p, hp, hfits (m, p) ?_, ?_⟩
  · have hp : (m, p) ∈ (log.innerNodes root).zip (log.toTree source language root).innerPlaces := hp
    rw [← hfst, ← hsnd, List.zip_map'] at hp
    simpa using hp
  · have hnode (log : MarkerLog) : log.toTree source language root = .node root ⟨0, source.endOffset⟩
        none (log.toTree source language root).children := rfl
    rw [hpath, List.nil_append, Nat.zero_add, hnode (log.drop m), hnode log, Tree.splice, Tree.shapes,
      Tree.shapesAll_singleton, Tree.shapes]
    exact congrArg (fun ss => [Shape.node root none ss]) hshapes

/-- Two nodes, the inner one with trivia at both ends. -/
def nodeInNode : MarkerLog :=
  (Session.runSteps
    [.openAt 0, .seek 1, .openAt 1, .seek 4, .commit ⟨1⟩ ⟨22⟩ none, .seek 5, .commit ⟨0⟩ ⟨21⟩ none]
    {}).log

theorem shapes_toTree_drop_nodeInNode :
    let source : Source :=
      { text := "a b c"
        tokens := [⟨⟨3⟩, ⟨0, 1⟩⟩, ⟨⟨1⟩, ⟨1, 2⟩⟩, ⟨⟨3⟩, ⟨2, 3⟩⟩, ⟨⟨1⟩, ⟨3, 4⟩⟩, ⟨⟨3⟩, ⟨4, 5⟩⟩] }
    let language := (LanguageTable.addTrivia {} ⟨1⟩).toBareLanguage
    nodeInNode.WellNested ∧
      ∃ p, (⟨1⟩, p) ∈ (nodeInNode.innerNodes ⟨20⟩).zip
          (nodeInNode.toTree source language ⟨20⟩).innerPlaces ∧
        ((nodeInNode.drop ⟨1⟩).toTree source language ⟨20⟩).shapes language source =
          Tree.shapesAll language source ((nodeInNode.toTree source language ⟨20⟩).splice p.path) := by
  intro source language
  have hbrackets : nodeInNode.brackets = [.start ⟨0⟩, .start ⟨1⟩, .commit ⟨1⟩, .commit ⟨0⟩] := by decide
  have h : nodeInNode.WellNested := ⟨hbrackets ▸ .node ⟨0⟩ (.node ⟨1⟩ .nil .nil) .nil, by decide⟩
  have hroot (x : Marker) (hx : nodeInNode.isCommitted x = true) : nodeInNode.kind? x ≠ some ⟨20⟩ := by
    have hall : ∀ n < 2, nodeInNode.kind? ⟨n⟩ ≠ some ⟨20⟩ := by decide
    obtain ⟨info, hi, -⟩ := isCommitted_iff.1 hx
    exact hall x.number (lt_size_of_info? hi)
  obtain ⟨p, hp, -, hshapes⟩ := shapes_toTree_drop (m := ⟨1⟩) ⟨_, rfl⟩ h (by decide) hroot source language
  exact ⟨h, p, hp, hshapes⟩

end MarkerLog

end Descent
