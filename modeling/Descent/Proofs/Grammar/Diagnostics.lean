import Descent.Proofs.Grammar.LeadsTo
import Descent.Proofs.Tree.Errors
import Descent.Proofs.Tree.Tiling
import Mathlib.Data.List.Nodup

/-!
# The diagnostics of a parse

The diagnostics of a parse are those of the errors in the input, in source order, and behind them that
of the fatal error if there is one (`Session.diagnostics_parse_eq`). There is one for every marker that
is committed with an error in the end, since only the root has no node of its own, and it is no error.

That the codes of the two parts are of different families comes from what is put into the log: nothing
but errors in the input, at nodes of kind ERROR (`MarkerLog.ErrorsInInput`), which all marker steps keep.
-/

namespace Descent

/-! ## The errors in a log -/

/-- If a marker has an error, it is an error in the input, and the kind is ERROR. -/
def MarkerInfo.ErrorInInput (info : MarkerInfo) : Prop :=
  ∀ e, info.error = some e → info.kind = some .error ∧ e.code.isSyntaxError = true

namespace MarkerLog

variable {log log' : MarkerLog} {m : Marker} {info : MarkerInfo}

/-- All errors of the log are errors in the input, at markers of kind ERROR. -/
def ErrorsInInput (log : MarkerLog) : Prop := ∀ m info, log.info? m = some info → info.ErrorInInput

/-- It does not matter at which stage a marker is. -/
theorem ErrorsInInput.of_stages (h : log.ErrorsInInput)
    (hsize : log'.markers.size = log.markers.size)
    (hi : ∀ m info, log.info? m = some info → ∃ stage, log'.info? m = some { info with stage }) :
    log'.ErrorsInInput := by
  intro m info' hm'
  have hlt := lt_size_of_info? hm'
  rw [hsize] at hlt
  have hm : log.info? m = some log.markers[m.number] := Array.getElem?_eq_getElem hlt
  obtain ⟨stage, hs⟩ := hi m _ hm
  obtain rfl := Option.some.inj (hs.symm.trans hm')
  have herror : log.markers[m.number].ErrorInInput := h m _ hm
  exact herror

/-- A new marker has no error. -/
theorem ErrorsInInput.push (h : log.ErrorsInInput) (hinfo : info.error = none) (es : List Entry) :
    ErrorsInInput ⟨log.markers.push info, es⟩ := by
  intro m info' hm'
  simp only [info?, Array.getElem?_push] at hm'
  split at hm'
  · cases hm'
    intro e he
    rw [hinfo] at he
    cases he
  · exact h m info' hm'

/-- A marker is committed with an error in the input or without one. -/
theorem ErrorsInInput.commit (h : log.ErrorsInInput) (m : Marker) {kind : Kind}
    {error : Option SyntaxError} (position : Nat)
    (herror : ∀ e, error = some e → kind = .error ∧ e.code.isSyntaxError = true) :
    (log.commit m kind error position).ErrorsInInput := by
  unfold MarkerLog.commit
  split
  · intro x info' hx
    simp only [info?, Array.getElem?_modify] at hx
    split at hx
    · obtain ⟨info, -, rfl⟩ := Option.map_eq_some_iff.1 hx
      intro e he
      obtain ⟨rfl, hcode⟩ := herror e he
      exact ⟨rfl, hcode⟩
    · exact h x info' hx
  · exact h

/-- The committed markers with an error, in the order of their starts. -/
def errorMarkers (log : MarkerLog) : List Marker :=
  (starts log.brackets).filter fun m => (log.error? m).isSome

theorem nodup_errorMarkers (hsound : log.Sound) : log.errorMarkers.Nodup := by
  refine (hsound.nodup_brackets.filterMap ?_).filter _
  intro e e' m he he'
  cases e <;> cases e' <;> simp_all

theorem mem_errorMarkers (hsound : log.Sound) : m ∈ log.errorMarkers ↔ log.IsError m := by
  have hstart : log.isCommitted m = true → .start m ∈ log.entries := fun hm =>
    hsound.start_mem_of_committed (isCommitted_iff_stage?.1 hm)
  simp only [errorMarkers, List.mem_filter, mem_starts, brackets, List.mem_reverse, shapes, IsError]
  constructor
  · rintro ⟨⟨-, hm⟩, herror⟩
    exact ⟨hm, herror⟩
  · rintro ⟨hm, herror⟩
    exact ⟨⟨hstart hm, hm⟩, herror⟩

/-- The marker that stands for the root has no error, unless the root is of kind ERROR. -/
theorem ErrorsInInput.error?_rootMarker? (h : log.ErrorsInInput) {root : Kind} (hroot : root ≠ .error)
    (hm : log.rootMarker? root = some m) : log.error? m = none := by
  refine Option.eq_none_iff_forall_ne_some.2 fun e he => hroot ?_
  obtain ⟨info, hi, he⟩ := Option.bind_eq_some_iff.1 he
  rw [rootMarker?_eq, Option.filter_eq_some_iff] at hm
  have hkind := eq_of_beq hm.2
  simp only [kind?, hi, Option.bind_some] at hkind
  split at hkind
  · exact Option.some.inj (hkind.symm.trans (h m info hi e he).1)
  · cases hkind

/-- So the errors of the tree are those of all committed markers. -/
theorem ErrorsInInput.errors_toTree (h : log.ErrorsInInput) {root : Kind} (hroot : root ≠ .error)
    (source : Source) (language : Language) :
    (log.toTree source language root).errors = log.errorMarkers.filterMap log.error? := by
  rw [MarkerLog.errors_toTree, innerNodes, errorMarkers, List.filterMap_filter, List.filterMap_filter]
  refine List.filterMap_congr fun m _ => ?_
  cases he : log.error? m with
  | none => simp
  | some e =>
    have hne : log.rootMarker? root ≠ some m := fun hm => by
      rw [h.error?_rootMarker? hroot hm] at he
      cases he
    simp [hne]

end MarkerLog

namespace Session

/-- Marker steps bring in no errors but those in the input. -/
theorem LeadsTo.errorsInInput {s s' : Session} (h : s.LeadsTo s') (hs : s.log.ErrorsInInput) :
    s'.log.ErrorsInInput := by
  induction h with
  | still h => exact h ▸ hs
  | trans _ _ ih ih' => exact ih' (ih hs)
  | step step s h =>
    cases step with
    | seek p => exact hs
    | openAt p => exact hs.push rfl _
    | drop m => exact hs.of_stages (MarkerLog.size_drop ..) fun x info hi => MarkerLog.info?_drop hi m
    | wrap m =>
      rw [MarkerStep.run, log_wrap]
      exact hs.push rfl _
    | rollback m =>
      rcases s.log_rollback m with he | ⟨p, he⟩
      · rw [MarkerStep.run, he]
        exact hs
      · rw [MarkerStep.run, ← (MarkerLog.rollback_eq_some_iff.1 he).2.2]
        exact hs.of_stages (MarkerLog.size_unwind ..) fun x info hi =>
          MarkerLog.info?_unwind hi s.log.entries m
    | commit m kind error =>
      rw [MarkerStep.run, log_commit]
      refine hs.commit m s.position fun e he => ?_
      subst he
      obtain ⟨rfl, hcode | ⟨x, hx⟩⟩ := h
      · exact ⟨rfl, hcode⟩
      · obtain ⟨info, hi, he⟩ := Option.bind_eq_some_iff.1 hx
        exact ⟨rfl, (hs x info hi e he).2⟩

end Session

/-! ## The diagnostics -/

/-- The nodes with the errors of markers have diagnostics with these errors. -/
theorem Tree.diagnostics_of_errors {log : MarkerLog} {ms : List Marker} {ns : List Tree}
    (hms : ∀ m ∈ ms, (log.error? m).isSome = true)
    (h : ns.filterMap Tree.error? = ms.filterMap log.error?) :
    List.Forall₂ (fun m d => ∃ e span, log.error? m = some e ∧ d = e.diagnostic span) ms
      (ns.filterMap Tree.diagnostic?) := by
  induction ns generalizing ms with
  | nil =>
    cases ms with
    | nil => exact .nil
    | cons m ms =>
      obtain ⟨e, he⟩ := Option.isSome_iff_exists.1 (hms m (List.mem_cons_self ..))
      rw [List.filterMap_cons_some he] at h
      cases h
  | cons n ns ih =>
    cases hn : n.error? with
    | none =>
      rw [List.filterMap_cons_none hn] at h
      rw [List.filterMap_cons_none (by rw [Tree.diagnostic?, hn]; rfl)]
      exact ih hms h
    | some e =>
      rw [List.filterMap_cons_some hn] at h
      rw [List.filterMap_cons_some (b := e.diagnostic n.span) (by rw [Tree.diagnostic?, hn]; rfl)]
      cases ms with
      | nil => cases h
      | cons m ms =>
        obtain ⟨hm, hms⟩ := List.forall_mem_cons.1 hms
        obtain ⟨e', he'⟩ := Option.isSome_iff_exists.1 hm
        rw [List.filterMap_cons_some he'] at h
        obtain ⟨rfl, hrest⟩ := List.cons.inj h
        exact .cons ⟨e, n.span, he', rfl⟩ (ih hms hrest)

/-- One place is not behind another one. -/
def Diagnostic.NotBehind (d d' : Diagnostic) : Prop :=
  ∃ span span', d.primary? = some span ∧ d'.primary? = some span' ∧ span.start ≤ span'.start

/-- The diagnostics of a tiled tree come in source order. -/
theorem Tree.Tiled.pairwise_diagnostics {t : Tree} (h : t.Tiled)
    (hleaves : ∀ token ∈ t.leaves, token.span.start ≤ token.span.stop) :
    t.diagnostics.Pairwise Diagnostic.NotBehind := by
  rw [Tree.diagnostics, List.pairwise_filterMap]
  refine (h.sorted hleaves).pairwise.imp fun {n n'} hle d hd d' hd' => ?_
  obtain ⟨e, -, rfl⟩ := Option.map_eq_some_iff.1 hd
  obtain ⟨e', -, rfl⟩ := Option.map_eq_some_iff.1 hd'
  exact ⟨n.span, n'.span, rfl, rfl, hle⟩

namespace Session

/-- If the root is not of kind ERROR, the diagnostics of a parse are, in this order,

* one with the code of an error in the input for every marker that is committed with an error in the
  end, which has the error of the marker and comes from a node of the tree, in the order in which these
  markers start and their nodes are listed from the root, and from left to right in the source;
* one with the code of a defect for the fatal error, if there is one. -/
theorem diagnostics_parse_eq {g : Setup} (hsource : g.source.Contiguous)
    (hordered : g.source.Ordered) {limits : Limits} {caret : Option Nat} {fuel : Nat} {root : Kind}
    {rule : RuleRef} {o : Output} (hroot : root ≠ .error)
    (h : (start limits caret).parse g fuel root rule = some o) :
    let log := o.session.log
    ∃ errors defects, o.diagnostics = errors ++ defects ∧
      (log.errorMarkers.Nodup ∧ (∀ m, m ∈ log.errorMarkers ↔ log.IsError m) ∧
        List.Forall₂ (fun m d => ∃ e span, log.error? m = some e ∧ d = e.diagnostic span)
          log.errorMarkers errors) ∧
      errors = o.tree.nodes.filterMap Tree.diagnostic? ∧
      (∀ d ∈ errors, d.code.isSyntaxError = true) ∧
      errors.Pairwise Diagnostic.NotBehind ∧
      (defects = [] ∧ o.fatal = none ∨
        ∃ d e, defects = [d] ∧ o.fatal = some e ∧ d.code = e.code ∧ d.code.isFatal = true) := by
  intro log
  have hsound : log.Sound := (reachable_parse h).sound
  have hinput : log.ErrorsInInput := (leadsTo_parse h).errorsInInput fun m info hi => by cases hi
  simp only [parse, Option.bind_eq_bind, Option.bind_eq_some_iff, Option.some.injEq] at h
  obtain ⟨-, -, last, -, rfl⟩ := h
  have hleaves : ∀ token ∈ (log.toTree g.source g.language root).leaves,
      token.span.start ≤ token.span.stop := fun token ht => by
    rw [MarkerLog.leaves_toTree] at ht
    exact hordered token ht
  have herrors : (log.toTree g.source g.language root).errors = log.errorMarkers.filterMap log.error? :=
    hinput.errors_toTree hroot g.source g.language
  have hmatch := Tree.diagnostics_of_errors (fun m hm => (List.mem_filter.1 hm).2) herrors
  refine ⟨_, _, rfl, ⟨MarkerLog.nodup_errorMarkers hsound, fun m => MarkerLog.mem_errorMarkers hsound,
    hmatch⟩, rfl, fun d hd => ?_, ?_, ?_⟩
  · obtain ⟨n, hn, hd⟩ := List.mem_filterMap.1 hd
    obtain ⟨e, he, rfl⟩ := Option.map_eq_some_iff.1 hd
    have hmem : e ∈ log.errorMarkers.filterMap log.error? :=
      herrors ▸ List.mem_filterMap.2 ⟨n, hn, he⟩
    obtain ⟨m, -, hm⟩ := List.mem_filterMap.1 hmem
    obtain ⟨info, hi, he⟩ := Option.bind_eq_some_iff.1 hm
    exact (hinput m info hi e he).2
  · exact (MarkerLog.tiled_toTree hsource log g.language root).2.pairwise_diagnostics hleaves
  · cases haborted : last.aborted with
    | none => exact .inl ⟨by simp, by simp [output, haborted]⟩
    | some a =>
      exact .inr ⟨_, a.error, by simp; rfl, by simp [output, haborted], rfl, a.error.code_isFatal⟩

/-- An error in front of a name, and a repetition that does not go on behind it. -/
def stalling : Setup where
  source := { text := "ab", tokens := [⟨⟨3⟩, ⟨0, 1⟩⟩, ⟨⟨3⟩, ⟨1, 2⟩⟩] }
  language := (LanguageTable.toBareLanguage {})
  grammar := [("names",
    .seq (.reporting (.prim (.consume ⟨6⟩))) <| .seq (.prim (.consume ⟨3⟩)) <|
    .seq (.prim (.remember "here")) (.prim (.guardProgress "names" "here")))]

theorem diagnostics_parse_stalling :
    stalling.source.Contiguous ∧ stalling.source.Ordered ∧ (⟨20⟩ : Kind) ≠ .error ∧
      ∃ o, (start {} none).parse stalling 12 ⟨20⟩ (.named "names") = some o ∧
        o.diagnostics.map (·.code) = [.expected, .stalled] ∧
        ∃ errors defects, o.diagnostics = errors ++ defects ∧
          errors.Pairwise Diagnostic.NotBehind := by
  have hsource : stalling.source.Contiguous := .cons rfl (.cons rfl (.nil _))
  have hordered : stalling.source.Ordered := by
    unfold Source.Ordered
    decide
  have hroot : (⟨20⟩ : Kind) ≠ .error := by decide
  have hrun : ((start {} none).parse stalling 12 ⟨20⟩ (.named "names")).map
      (fun o => o.diagnostics.map (·.code)) = some [.expected, .stalled] := by decide +kernel
  obtain ⟨o, ho, hcodes⟩ := Option.map_eq_some_iff.1 hrun
  obtain ⟨errors, defects, heq, -, -, -, hpairwise, -⟩ :=
    diagnostics_parse_eq hsource hordered hroot ho
  exact ⟨hsource, hordered, hroot, o, ho, hcodes, errors, defects, heq, hpairwise⟩

end Session

end Descent
