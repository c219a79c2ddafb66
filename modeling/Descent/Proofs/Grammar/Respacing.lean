import Descent.Proofs.Grammar.Inside
import Descent.Proofs.Grammar.Mirror
import Descent.Proofs.Session.RootSection
import Descent.Proofs.Tree.Shape

/-!
# Trivia does not influence a parse

Where a grammar looks for no literals, it makes no difference to a parse which trivia there are, as
long as they are between the same tokens: the trees have the same shape, and the diagnostics say the
same (`Session.alike_parse`). Both sources stretch the one that has a single piece of trivia
wherever they have some, and the parse of each is mirrored by the parse of that one.

Whether there is trivia between two tokens does make a difference
(`Session.not_alike_parse_tight`). An error that was reported ahead, on input that has been given
back since, is reported once more when a section is entered in front of it. Trivia is not skipped to
find out: where an error is at the next token, a section that is entered behind the token before is
in front of it if there is trivia between, and is not if there is none. The end of a section is
compared with the place of its errors in the same way.
-/

namespace Descent

/-- What a diagnostic says, apart from where. -/
def Diagnostic.wording (d : Diagnostic) : Code × String × List String :=
  (d.code, d.message, d.labels.map (·.message))

theorem Tree.wording_diagnostics (t : Tree) :
    t.diagnostics.map (·.wording) = t.errors.map fun e => (e.code, e.message, [e.label]) := by
  rw [diagnostics, errors, List.map_filterMap, List.map_filterMap]
  refine congrArg (t.nodes.filterMap ·) (funext fun n => ?_)
  rw [diagnostic?]
  cases n.error? <;> rfl

namespace MarkerLog

theorem innerNodes_move (f : Nat → Nat) (log : MarkerLog) (root : Kind) :
    (log.move f).innerNodes root = log.innerNodes root := by
  have hshapes : (log.move f).shapes = log.shapes := by
    funext e
    cases e <;> simp [shapes]
  rw [innerNodes, innerNodes, brackets, brackets, rootMarker?_move, hshapes]
  rfl

theorem errors_toTree_move (f : Nat → Nat) (log : MarkerLog) (source b : Source)
    (language : Language) (root : Kind) :
    ((log.move f).toTree b language root).errors = (log.toTree source language root).errors := by
  rw [errors_toTree, errors_toTree, innerNodes_move]
  exact congrArg ((log.innerNodes root).filterMap ·) (funext fun m => error?_move log m)

end MarkerLog

/-- Two parses have produced the same, apart from trivia and spans. -/
structure Output.Alike (language : Language) (a b : Source) (x y : Output) : Prop where
  shapes : y.tree.shapes language b = x.tree.shapes language a
  isOk : y.isOk = x.isOk
  wording : x.isOk = true → y.diagnostics.map (·.wording) = x.diagnostics.map (·.wording)

/-- Two parses that have produced the same as a third one have produced the same. -/
theorem Output.Alike.of_common {language : Language} {a b c : Source} {x y z : Output}
    (hx : Output.Alike language c a z x) (hy : Output.Alike language c b z y) :
    Output.Alike language a b x y where
  shapes := hy.shapes.trans hx.shapes.symm
  isOk := hy.isOk.trans hx.isOk.symm
  wording h := by
    have hz := hx.isOk.symm.trans h
    exact (hy.wording hz).trans (hx.wording hz).symm

theorem Output.Alike.rel_of_common {language : Language} {a b c : Source} {x y z : Option Output}
    (hx : Option.Rel (Output.Alike language c a) z x)
    (hy : Option.Rel (Output.Alike language c b) z y) :
    Option.Rel (Output.Alike language a b) x y := by
  cases hx with
  | none =>
    cases hy
    exact .none
  | some hx =>
    cases hy with
    | some hy => exact .some (hx.of_common hy)

namespace Session

open Grammar (eval runRef runHook)

variable {g : Setup} {b : Source} {f : Nat → Nat} {s t : Session}

theorem Mirrors.output (hb : Stretches f (g.source.glimpses g.language) (b.glimpses g.language))
    (h : s.Mirrors b f t) (root : Kind) :
    Output.Alike g.language g.source b (s.output g root) (t.output (g.on b) root) := by
  have hisOk : (t.output (g.on b) root).isOk = (s.output g root).isOk := by
    have haborted : t.aborted.isSome = s.aborted.isSome := h.isAborted
    unfold Output.isOk Session.output
    rw [Option.isNone_map, Option.isNone_map, ← Option.not_isSome, ← Option.not_isSome, haborted]
  have hwording (g : Setup) (s : Session) (hs : (s.output g root).isOk = true) :
      (s.output g root).diagnostics.map (·.wording) =
        (s.log.toTree g.source g.language root).errors.map
          fun e => (e.code, e.message, [e.label]) := by
    have hnone : s.aborted = none := by simpa [Output.isOk, Session.output] using hs
    simp [Session.output, hnone, Tree.wording_diagnostics]
  refine ⟨?_, hisOk, fun hs => ?_⟩
  · show (t.log.toTree b g.language root).shapes g.language b = _
    rw [h.log]
    exact MarkerLog.shapes_toTree hb s.log root
  · rw [hwording g s hs, hwording (g.on b) t (hisOk.trans hs), h.log]
    exact congrArg (List.map _) (MarkerLog.errors_toTree_move f s.log g.source b g.language root)

theorem mirrors_start (limits : Limits) (hzero : f 0 = 0) :
    (start limits none).Mirrors b f (start limits none) where
  position := hzero.symm
  log := by simp [start, MarkerLog.move]
  frames := rfl
  lookahead := rfl
  attempts := by simp [start, Attempts.ofCapacity, Attempts.move]
  completion := ⟨rfl, rfl⟩
  hooks := rfl
  literalFree := fun _ h => nomatch h
  level := rfl
  quiet := rfl
  isAborted := rfl

/-- The parse of a stretched source mirrors the parse of the source. -/
theorem mirrors_parse (hb : Stretches f (g.source.glimpses g.language) (b.glimpses g.language))
    (hg : g.grammar.LiteralFree) (limits : Limits) (fuel : Nat) (root : Kind) (rule : RuleRef) :
    Option.Rel (Output.Alike g.language g.source b)
      ((start limits none).parse g fuel root rule)
      ((start limits none).parse (g.on b) fuel root rule) := by
  have hrun := Grammar.mirrors_runRef hb hg (Grammar.mirrors_eval hb hg fuel)
  have hhook := Grammar.mirrors_runHook (Grammar.mirrors_eval hb hg fuel)
  have hstart := (mirrors_start limits hb.zero).note (b := b) (.parseStarted g.source.size)
    (.parseStarted b.size)
  obtain ⟨m, s, t, hs, ht, h⟩ := (hstart.enter hb 0 { collapse := true } none none).exists_eq
  have hs : enterRoot g limits none = (m, s) := hs
  have ht : enterRoot (g.on b) limits none = (m, t) := ht
  rw [parse_eq, parse_eq, hs, ht]
  refine rel_bind (hrun rule 1 s t h) ?_
  rintro ⟨_, s⟩ ⟨result, t⟩ ⟨rfl, h⟩
  refine rel_bind (h.leave hb hhook hrun ..) fun s t h => ?_
  exact .some (h.output hb root)

/-- Without literals a parse does not depend on which trivia there are, as long as they are between
the same tokens: with the same fuel it ends for both sources or for neither, the trees have the same
shape, and unless there is a fatal error the diagnostics say the same. -/
theorem alike_parse {a b : Source} (hg : g.grammar.LiteralFree)
    (h : a.outline g.language = b.outline g.language) (limits : Limits) (fuel : Nat) (root : Kind)
    (rule : RuleRef) :
    Option.Rel (Output.Alike g.language a b)
      ((start limits none).parse (g.on a) fuel root rule)
      ((start limits none).parse (g.on b) fuel root rule) := by
  -- both sources stretch the one that has what is left of `a` when its runs of trivia are squeezed
  let c := a.squeezed g.language
  have hc : c.glimpses g.language = a.outline g.language := a.glimpses_squeezed g.language
  obtain ⟨f, hf⟩ := exists_stretches_squeeze (a.glimpses g.language)
  obtain ⟨f', hf'⟩ := exists_stretches_squeeze (b.glimpses g.language)
  have hca : Stretches f (c.glimpses g.language) (a.glimpses g.language) := hc ▸ hf
  have hcb : Stretches f' (c.glimpses g.language) (b.glimpses g.language) := (hc.trans h) ▸ hf'
  have ha := mirrors_parse (g := g.on c) hca hg limits fuel root rule
  have hb := mirrors_parse (g := g.on c) hcb hg limits fuel root rule
  exact Output.Alike.rel_of_common ha hb

/-- A statement that is skipped up to its end, with a blank. -/
def spaced : Setup where
  source := { text := "a b;", tokens :=
    [⟨⟨3⟩, ⟨0, 1⟩⟩, ⟨⟨2⟩, ⟨1, 2⟩⟩, ⟨⟨3⟩, ⟨2, 3⟩⟩, ⟨⟨10⟩, ⟨3, 4⟩⟩] }
  language := ((({} : LanguageTable).addTrivia ⟨2⟩).addTrivia ⟨4⟩).toBareLanguage
  grammar := [
    ("statement",
      .seq (.prim (.enter "statement" {} (some ⟨21⟩) none 0)) <|
      .seq (.prim (.consume ⟨3⟩)) <|
      .seq (.leave "statement" none (.prim (.consume ⟨6⟩)) (.const true) (some (.named "inside"))
        0) <|
      .prim (.consume ⟨10⟩)),
    ("inside", .not (.prim (.peek ⟨10⟩)))]

/-- The same with a comment after the blank. -/
def commented : Source where
  text := "a #b;"
  tokens :=
    [⟨⟨3⟩, ⟨0, 1⟩⟩, ⟨⟨2⟩, ⟨1, 2⟩⟩, ⟨⟨4⟩, ⟨2, 3⟩⟩, ⟨⟨3⟩, ⟨3, 4⟩⟩, ⟨⟨10⟩, ⟨4, 5⟩⟩]

theorem alike_parse_spaced :
    spaced.grammar.LiteralFree ∧
      spaced.source.outline spaced.language = commented.outline spaced.language ∧
      ∃ x y, (start {} none).parse (spaced.on spaced.source) 12 ⟨20⟩ (.named "statement") = some x ∧
        (start {} none).parse (spaced.on commented) 12 ⟨20⟩ (.named "statement") = some y ∧
        x.isOk = true ∧ x.diagnostics.length = 1 ∧
        Output.Alike spaced.language spaced.source commented x y := by
  have hg : spaced.grammar.LiteralFree := by decide
  have houtline : spaced.source.outline spaced.language = commented.outline spaced.language := by
    decide +kernel
  have hrun : ((start {} none).parse (spaced.on spaced.source) 12 ⟨20⟩ (.named "statement")).map
      (fun o => (o.isOk, o.diagnostics.length)) = some (true, 1) := by decide +kernel
  obtain ⟨x, hx, hout⟩ := Option.map_eq_some_iff.1 hrun
  obtain ⟨hok, hlength⟩ := Prod.mk.inj hout
  have h := alike_parse hg houtline {} 12 ⟨20⟩ (.named "statement")
  rw [hx] at h
  cases hy : (start {} none).parse (spaced.on commented) 12 ⟨20⟩ (.named "statement") with
  | none =>
    rw [hy] at h
    cases h
  | some y =>
    rw [hy] at h
    cases h with
    | some h => exact ⟨hg, houtline, x, y, hx, rfl, hok, hlength, h⟩

/-- Two names are looked for ahead, without a blank in front of the section behind the first one. -/
def tight : Setup where
  source := { text := "a;", tokens := [⟨⟨3⟩, ⟨0, 1⟩⟩, ⟨⟨10⟩, ⟨1, 2⟩⟩] }
  language := (({} : LanguageTable).addTrivia ⟨2⟩).toBareLanguage
  grammar := [("statement",
    .seq (.prim (.trySequence .report [⟨3⟩, ⟨6⟩])) <|
    .seq (.prim (.consume ⟨3⟩)) <|
    .seq (.prim (.enter "end" {} (some ⟨21⟩) none 0)) <|
    .seq (.prim (.consume ⟨10⟩)) <|
    .leave "end" none (.const true) (.const false) none 0)]

/-- The same with a blank. -/
def loose : Source where
  text := "a ;"
  tokens := [⟨⟨3⟩, ⟨0, 1⟩⟩, ⟨⟨2⟩, ⟨1, 2⟩⟩, ⟨⟨10⟩, ⟨2, 3⟩⟩]

/-- A blank in front of a section brings back an error that was given back. -/
theorem not_alike_parse_tight :
    tight.grammar.Balanced (fun _ => true) ∧ tight.grammar.LiteralFree ∧
      tight.source.words tight.language = loose.words tight.language ∧
      ∃ x y, (start {} none).parse tight 12 ⟨20⟩ (.named "statement") = some x ∧
        (start {} none).parse (tight.on loose) 12 ⟨20⟩ (.named "statement") = some y ∧
        x.fatal = none ∧ y.fatal = none ∧ x.diagnostics.map (·.wording) = [] ∧
        y.diagnostics.map (·.wording) = [(.expected, "expected: '#6'", ["found ';'"])] := by
  have hrun : ((start {} none).parse tight 12 ⟨20⟩ (.named "statement")).map
      (fun o => (o.fatal, o.diagnostics.map (·.wording))) = some (none, []) := by decide +kernel
  have hrun' : ((start {} none).parse (tight.on loose) 12 ⟨20⟩ (.named "statement")).map
      (fun o => (o.fatal, o.diagnostics.map (·.wording))) =
        some (none, [(.expected, "expected: '#6'", ["found ';'"])]) := by decide +kernel
  obtain ⟨x, hx, hout⟩ := Option.map_eq_some_iff.1 hrun
  obtain ⟨y, hy, hout'⟩ := Option.map_eq_some_iff.1 hrun'
  obtain ⟨hfatal, hwording⟩ := Prod.mk.inj hout
  obtain ⟨hfatal', hwording'⟩ := Prod.mk.inj hout'
  exact ⟨by decide, by decide, by decide +kernel, x, y, hx, hy, hfatal, hfatal', hwording,
    hwording'⟩

end Session

end Descent
