import Descent.Proofs.MarkerLog.LastNodes
import Descent.Proofs.Session.KeptChildren
import Descent.Proofs.Source.Matching

/-!
# Sections that add no node of their own

A section that keeps a single child leaves the nodes as they are, as far as can be seen in the source
(`Setup.footprints`): its marker takes the place of the child, with the kind of the child, and covers the
same significant tokens (`Session.leave_keeps_child`). What is inside of the child is not touched.
-/

namespace Descent

/-- What can be seen of a node in the source: its kind, its error and the significant tokens it covers. -/
def Setup.footprint (g : Setup) (info : MarkerInfo) :
    Option Kind × Option SyntaxError × List Nat :=
  (info.kind, info.error, g.significantIn info.start info.stop)

/-- What can be seen of all nodes, in the order of their starts. -/
def Setup.footprints (g : Setup) (log : MarkerLog) :
    List (Option Kind × Option SyntaxError × List Nat) :=
  log.committedNodes.map g.footprint

namespace MarkerLog

variable {g : Setup} {log log' : MarkerLog} {m y : Marker} {before inside : List Entry} {kind : Kind}
  {p : Nat}

/-- The nodes that start among some entries. -/
def nodesIn (log : MarkerLog) (es : List Entry) : List MarkerInfo :=
  es.filterMap fun
    | .start m => log.info? m
    | _ => none

theorem nodesIn_append (log : MarkerLog) (es fs : List Entry) :
    log.nodesIn (es ++ fs) = log.nodesIn es ++ log.nodesIn fs :=
  List.filterMap_append

theorem nodesIn_bracketed {info : MarkerInfo} (hi : log.info? m = some info) (es : List Entry) :
    log.nodesIn (bracketed m es) = info :: log.nodesIn es := by
  have hfirst : log.nodesIn [.start m] = [info] := by simp [nodesIn, hi]
  have hlast : log.nodesIn [.commit m] = [] := rfl
  have hsplit : bracketed m es = [.start m] ++ es ++ [.commit m] := rfl
  rw [hsplit, nodesIn_append, nodesIn_append, hfirst, hlast, List.append_nil]
  rfl

theorem nodesIn_congr {es : List Entry} (h : ∀ x, .start x ∈ es → log'.info? x = log.info? x) :
    log'.nodesIn es = log.nodesIn es := by
  refine List.filterMap_congr fun e he => ?_
  cases e with
  | start x => exact h x he
  | commit x | drop x prior => rfl

/-- Where a marker takes the place of a node that covers the same significant tokens, nothing is to be
seen of it. -/
theorem footprints_takeOver (h : log.Sound) (hm : log.stage? m = some .opened)
    (hsince : log.bracketsSince m = bracketed y inside)
    (hbefore : log.brackets = before ++ bracketed y inside) (hkind : log.kind? y = some kind)
    (herror : log.error? y = none) (hp : log.start m ≤ p)
    (hcovers : g.significantIn (log.start m) p = g.significantIn (log.start y) (log.stop y)) :
    g.footprints (log.takeOver m y kind p) = g.footprints log := by
  have hnode {x : Marker} (hx : .start x ∈ log.brackets) : log.isCommitted x = true :=
    isCommitted_of_start_mem hx
  have hy : log.isCommitted y = true := hnode (by simp [hbefore, bracketed])
  obtain ⟨info, hi, hcommitted⟩ := isCommitted_iff.1 hy
  have hfoot : g.footprint info =
      (some kind, none, g.significantIn (log.start m) p) := by
    rw [hcovers, Setup.footprint]
    simp only [kind?, error?, MarkerLog.start, stop, hi, Option.bind_some, Option.map_some,
      Option.getD_some, if_pos hcommitted] at hkind herror ⊢
    rw [hkind, herror]
  have hapart : .start y ∉ before ∧ .start y ∉ inside := by
    have hnodup := h.nodup_brackets
    rw [hbefore, bracketed, List.nodup_append, List.nodup_cons, List.mem_append] at hnodup
    exact ⟨fun hb => hnodup.2.2 _ hb _ List.mem_cons_self rfl, fun hb => hnodup.2.1.1 (.inl hb)⟩
  have hsame {es : List Entry} (hes : es ⊆ log.brackets) (hnot : .start y ∉ es) :
      (log.takeOver m y kind p).nodesIn es = log.nodesIn es := by
    refine nodesIn_congr fun x hx => info?_takeOver_of_ne ?_ ?_
    · exact ne_of_opened_of_isCommitted hm (hnode (hes hx))
    · rintro rfl
      exact hnot hx
  have hfront := hsame (by simp [hbefore]) hapart.1
  have hinside : inside ⊆ log.brackets := fun e he => by simp [hbefore, bracketed, he]
  have hinner := hsame hinside hapart.2
  have hnodes (l : MarkerLog) : g.footprints l = (l.nodesIn l.brackets).map g.footprint := rfl
  rw [hnodes, hnodes, brackets_takeOver hm hy h hsince hbefore, hbefore, nodesIn_append, nodesIn_append,
    nodesIn_bracketed (info?_takeOver_self hm hy hp), nodesIn_bracketed hi, hfront, hinner,
    List.map_append, List.map_append, List.map_cons, List.map_cons, hfoot]
  rfl

end MarkerLog

namespace Session

variable {g : Setup} {s s₁ : Session} {level : Nat} {early kind : Option Kind} {name : Option String}
  {pinned : Bool} {frame : Frame} {frames : List Frame} {m y : Marker} {k : Kind}
  {inside : List Entry}

/-- Between the stop of a node and a position there are trivia only, if the node has all significant tokens
in between. -/
theorem trivia_of_covers {a b p q : Nat} (hab : a ≤ b) (hpa : p ≤ a)
    (hcovers : ∀ i ∈ g.significantIn p q, i ∈ g.significantIn a b) {i : Nat} (hge : b ≤ i) (hlt : i < q) :
    g.isTriviaAt i = true := by
  by_contra hi
  have hmem := hcovers i (Setup.mem_significantIn.2 ⟨by omega, hlt, Bool.eq_false_iff.2 hi⟩)
  have hstop := (Setup.mem_significantIn.1 hmem).2.1
  omega

/-- A single child that covers all significant tokens of a section starts where the section starts. -/
theorem start_of_covers {a b p q : Nat} (hp : g.isTriviaAt p = false) (hpa : p ≤ a) (haq : a ≤ q)
    (hcovers : ∀ i ∈ g.significantIn p q, i ∈ g.significantIn a b) : a = p := by
  by_contra hne
  have hmem := hcovers p (Setup.mem_significantIn.2 ⟨Nat.le_refl p, by omega, hp⟩)
  have hstart := (Setup.mem_significantIn.1 hmem).1
  omega

/-- A section with no other modifier than `collapse` that keeps a child puts its marker in the place of
that. -/
theorem exists_log_shape (m : Marker) (pinned : Bool) (hkind : (frame.kind <|> kind) = some k)
    (hmodifiers : frame.modifiers = { collapse := true }) (hleft : frame.leftNode = none)
    (hkept : s₁.absorbable? g frame k = some y) :
    ∃ q, (s₁.shape g frame frames m kind true pinned).2.log =
        s₁.log.takeOver m y ((s₁.log.kind? y).getD k) q ∧
      (q = s₁.position ∨ q = g.significant s₁.position) := by
  rw [shape_of_not_looksAhead m hkind (Bool.true_or pinned) (by rw [hmodifiers]; rfl)]
  generalize ht : { s₁ with frames }.note (.sectionLeft frame true pinned) = t
  have hlog : t.log = s₁.log := ht ▸ rfl
  have hposition : t.position = s₁.position := ht ▸ rfl
  have hkept : t.absorbable? g frame k = some y := by
    rw [← hkept, ← ht]
    rfl
  have hchild : t.absorbChild g frame k =
      ((s₁.log.kind? y).getD k, (t.note (.childKept y)).drop y) := by
    rw [absorbChild, hmodifiers, ← hlog]
    simp only [if_true, hkept]
  dsimp only
  rw [commitShaped_eq, hchild, placeNode, hmodifiers, hleft]
  simp only [Bool.false_eq_true, if_false]
  rw [← hlog, ← hposition]
  split
  · exact ⟨_, log_commit .., .inr rfl⟩
  · exact ⟨_, log_commit .., .inl rfl⟩

section
variable (hs : s.Regular) (hascends : s.Ascends)
  (hbody : Work (fun _ => true) g none (s.enter g level { collapse := true } early name).2 s₁)
  (hsince : s₁.log.bracketsSince (s.enter g level { collapse := true } early name).1 =
    bracketed y inside)
  (hcovers : ∀ i ∈ g.significantIn (s.enter g level { collapse := true } early name).2.position
    s₁.position, i ∈ g.significantIn (s₁.log.start y) (s₁.log.stop y))
include hs hascends hbody hsince hcovers

/-- What is known of a section and its single child when the section is left. -/
theorem singleChild_spec : s₁.log.Sound ∧
    s₁.log.stage? (s.enter g level { collapse := true } early name).1 = some .opened ∧
    s₁.log.start (s.enter g level { collapse := true } early name).1 = s₁.log.start y ∧
    s₁.log.start y = (s.enter g level { collapse := true } early name).2.position ∧
    s₁.log.start y ≤ s₁.position ∧ s₁.log.stop y ≤ s₁.position ∧
    ∀ i, s₁.log.stop y ≤ i → i < s₁.position → g.isTriviaAt i = true := by
  have hentering : (s.entering g).log.Sound := (Regular.entering hs).log
  obtain ⟨f, -, -, -, hin⟩ := Work.exists_frame rfl hbody
  have hopen := continues_openMarker hentering g
  have hcontinues := hin.continues hopen.sound
  have hsound : s₁.log.Sound := hcontinues.sound
  have hopened : s₁.log.stage? (s.enter g level { collapse := true } early name).1 = some .opened :=
    hin.opened_openMarker hentering
  have hascends₁ : s₁.Ascends := (hin.ascends hopen.sound
    (ascends_openMarker (ascends_entering hs hascends) hentering g)).1
  have hposition := position_enter g level { collapse := true } early name s
  have hstart : s₁.log.start (s.enter g level { collapse := true } early name).1 =
      (s.enter g level { collapse := true } early name).2.position := by
    rw [hposition, ← start_openMarker]
    exact hcontinues.start_eq hopen.sound List.mem_cons_self
  have hmem : .start y ∈ s₁.log.bracketsSince (s.enter g level { collapse := true } early name).1 := by
    rw [hsince]
    exact List.mem_cons_self
  have hy : s₁.log.isCommitted y = true := (List.mem_filter.1 hmem).2
  have hfrom := hascends₁.start_le_start hsound hopened hmem
  have hto := hascends₁.start_le (hsound.start_mem_of_committed (MarkerLog.isCommitted_iff_stage?.1 hy))
  have hstop := hascends₁.stop_le (hsound.commit_mem_of_committed (MarkerLog.isCommitted_iff_stage?.1 hy))
  rw [hstart] at hfrom
  have hsignificant : g.isTriviaAt (s.enter g level { collapse := true } early name).2.position = false := by
    rw [hposition]
    exact (g.significant_spec _).1
  have hsame := start_of_covers hsignificant hfrom hto hcovers
  refine ⟨hsound, hopened, hstart.trans hsame.symm, hsame, hto, hstop, fun i => ?_⟩
  exact trivia_of_covers (hascends₁.start_le_stop hsound hy) hfrom hcovers

end

/-- A section with `collapse` that succeeds adds no node to a single child that fits and covers all
significant tokens of the section: what can be seen of the nodes is the same as before it was left. Its
marker takes the place of the child, and no other node changes. -/
theorem leave_keeps_child {run : Runner} {hook : HookRunner} {rounds : Nat} (hs : s.Regular)
    (hascends : s.Ascends)
    (hbody : BalancedRun (fun _ => true) g (s.enter g level { collapse := true } early name).2 s₁)
    (hframes : s₁.frames = frame :: frames) (hkind : (frame.kind <|> kind) = some k)
    (hsince : s₁.log.bracketsSince (s.enter g level { collapse := true } early name).1 =
      bracketed y inside)
    (herror : s₁.log.error? y = none)
    (hfits : (s₁.log.kind? y).any (g.language.standsFor · k) = true)
    (hcovers : ∀ i ∈ g.significantIn (s.enter g level { collapse := true } early name).2.position
      s₁.position, i ∈ g.significantIn (s₁.log.start y) (s₁.log.stop y)) :
    ∃ s₂, s₁.leave g run hook (rounds + 1) level (s.enter g level { collapse := true } early name).1
        kind true pinned none = some s₂ ∧
      g.footprints s₂.log = g.footprints s₁.log ∧
      (∃ before, s₁.log.brackets = before ++ bracketed y inside ∧ s₂.log.brackets =
        before ++ bracketed (s.enter g level { collapse := true } early name).1 inside) ∧
      ∀ x, x ≠ y → s₁.log.isCommitted x = true → s₂.log.info? x = s₁.log.info? x := by
  have hbody := hbody.work (Work.hooksOpen_enter hs.hooks)
  obtain ⟨hsound, hopened, hstarts, hstart, hto, hstop, htrivia⟩ :=
    singleChild_spec hs hascends hbody hsince hcovers
  obtain ⟨before, hbefore⟩ := MarkerLog.exists_before hsound hopened
  rw [hsince] at hbefore
  have hy : s₁.log.isCommitted y = true :=
    MarkerLog.isCommitted_of_start_mem (by rw [hbefore]; simp [bracketed])
  obtain ⟨ky, hky, -⟩ := (Option.any_eq_true _ _).1 hfits
  obtain ⟨f, fs, hfs, hf, hshape⟩ := Work.exists_shape rfl hbody kind true pinned
  obtain ⟨rfl, rfl⟩ := List.cons.inj (hframes.symm.trans hfs)
  have hposition : frame.position =
      (s.enter g level { collapse := true } early name).2.position :=
    hf.position.trans (position_enteredFrame g level { collapse := true } early name s)
  have hkept : s₁.absorbable? g frame k = some y := by
    refine absorbable?_eq_some_iff.2 ⟨?_, hfits, hstart.trans hposition.symm, hstop, htrivia⟩
    exact MarkerLog.lastCommitted?_of_bracketed hbefore
  obtain ⟨q, hlog, hq⟩ := exists_log_shape (s.enter g level { collapse := true } early name).1 pinned
    hkind hf.modifiers hf.leftNode hkept
  rw [hky, Option.getD_some] at hlog
  have hend : s₁.log.start y ≤ q ∧
      g.significantIn (s₁.log.start y) q = g.significantIn (s₁.log.start y) (s₁.log.stop y) := by
    have hto' := Setup.significantIn_of_trivia (p := s₁.log.start y) hstop htrivia
    rcases hq with rfl | rfl
    · exact ⟨hto, hto'⟩
    · refine ⟨Nat.le_trans hto (g.le_significant _), ?_⟩
      rw [← hto', Setup.significantIn_congr (significant_significant g _)]
  have hbrackets : (s₁.shape g frame frames (s.enter g level { collapse := true } early name).1 kind
      true pinned).2.log.brackets =
        before ++ bracketed (s.enter g level { collapse := true } early name).1 inside := by
    rw [hlog]
    exact MarkerLog.brackets_takeOver hopened hy hsound hsince hbefore
  obtain ⟨u, hleave, hu, -⟩ := exists_leave_calm run hook rounds hframes hf.level rfl
    (Work.hooks_lt_of_work hs.hooks hshape) fun _ => by
      rw [MarkerLog.lastCommitted?_of_bracketed hbrackets]
      rfl
  refine ⟨u.closeLevel, hleave, ?_, ⟨before, hbefore, ?_⟩, fun x hx hc => ?_⟩
  · show g.footprints u.log = _
    rw [hu.log, hlog]
    refine MarkerLog.footprints_takeOver hsound hopened hsince hbefore hky herror ?_ ?_
    · rw [hstarts]
      exact hend.1
    · rw [hstarts]
      exact hend.2
  · show u.log.brackets = _
    rw [hu.log, hbrackets]
  · show u.log.info? x = _
    rw [hu.log, hlog]
    exact MarkerLog.info?_takeOver_of_ne (MarkerLog.ne_of_opened_of_isCommitted hopened hc) hx

open Grammar (eval runRef)

theorem leave_keeps_child_name :
    ∃ s₁ s₂, runRef (naming {}) (eval (naming {}) 6) (.named "name") 2
        (keeping (naming {}) ⟨24⟩ (start default none)).2 = some (true, s₁) ∧
      s₁.log.bracketsSince (keeping (naming {}) ⟨24⟩ (start default none)).1 = bracketed ⟨1⟩ [] ∧
      s₁.log.committedNodes.length = 1 ∧
      s₁.leave (naming {}) (fun _ _ _ => none) (fun _ _ _ => none) 1 1
        (keeping (naming {}) ⟨24⟩ (start default none)).1 none true false none = some s₂ ∧
      (naming {}).footprints s₂.log = (naming {}).footprints s₁.log := by
  have hrun : ∃ s₁, runRef (naming {}) (eval (naming {}) 6) (.named "name") 2
        (keeping (naming {}) ⟨24⟩ (start default none)).2 = some (true, s₁) ∧
      (∃ frame, s₁.frames = [frame] ∧ frame.kind = some ⟨24⟩) ∧
      s₁.log.bracketsSince (keeping (naming {}) ⟨24⟩ (start default none)).1 = bracketed ⟨1⟩ [] ∧
      s₁.log.committedNodes.length = 1 ∧ s₁.log.error? ⟨1⟩ = none ∧ s₁.log.kind? ⟨1⟩ = some ⟨24⟩ ∧
      s₁.position = 1 ∧ s₁.log.start ⟨1⟩ = 0 ∧ s₁.log.stop ⟨1⟩ = 1 :=
    ⟨_, rfl, ⟨_, rfl, rfl⟩, rfl, rfl, rfl, rfl, rfl, rfl, rfl⟩
  obtain ⟨s₁, hs₁, ⟨frame, hframes, hkind⟩, hsince, hlength, herror, hfits, hposition, hstart, hstop⟩ :=
    hrun
  have hg : (naming {}).grammar.Balanced fun _ => true := by decide
  have hascends : (start default none).Ascends := List.pairwise_singleton ..
  obtain ⟨s₂, hleave, hsame, -, -⟩ := @leave_keeps_child (naming {}) (start default none) s₁ 1
    (some ⟨24⟩) none none false frame [] ⟨1⟩ ⟨24⟩ [] (fun _ _ _ => none) (fun _ _ _ => none) 0
    (.start default none) hascends (Grammar.balanced hg 6 _ _ _ _ _ hs₁) hframes
    (by rw [hkind]; rfl) hsince herror (by rw [hfits]; rfl)
    (by rw [hposition, hstart, hstop]; exact fun _ hi => hi)
  exact ⟨s₁, s₂, hs₁, hsince, hlength, hleave, hsame⟩

end Session

end Descent
