import Descent.Proofs.Grammar.Begun
import Descent.Proofs.Grammar.Descending
import Descent.Proofs.Grammar.MoreFuel

/-!
# The recursion ceiling

In a grammar that descends rules may call each other, and themselves, without end. The recursion ceiling
stops them: a parse comes to its end, no guarded body is run above the ceiling, and the first call above
it is what the parse fails with, unless another fatal error was raised before. After a fatal error no
guarded body is run at all (`Session.guarding_of_descends`).
-/

namespace Descent

open Grammar (eval runRef EndsBefore)

namespace Session

variable {g : Setup} {s t : Session} {level fuel : Nat} {name : String} {body : Expr} {o : Output}

/-! ## Guarded rules -/

/-- A guarded rule is called at the level in `t`, in a parse that has the output. -/
structure Guarding (g : Setup) (o : Output) (name : String) (level : Nat) (t : Session) : Prop where
  /-- Its body is run up to the ceiling, as long as there was no fatal error. -/
  runs : (t.guardLevel g level name).1 = true ↔
    level ≤ g.limits.recursionCeiling ∧ ∀ error, .aborted error ∉ t.trace
  /-- If there was none, the parse fails with a call above the ceiling. -/
  tooDeep : g.limits.recursionCeiling < level → (∀ error, .aborted error ∉ t.trace) →
    o.fatal = some (.tooDeep g.limits.recursionCeiling name (g.source.start (g.significant t.position)))
  /-- If there was one, the parse fails with it. -/
  before : ∀ error, .aborted error ∈ t.trace → o.fatal = some error

/-- Whether there was a fatal error can be read off the trace. -/
theorem Closes.aborted_eq_none_iff (h : Closes s.aborted s.trace) :
    s.aborted = none ↔ ∀ error, .aborted error ∉ s.trace := by
  cases ha : s.aborted with
  | none =>
    rw [ha] at h
    exact iff_of_true rfl h
  | some a =>
    rw [ha] at h
    obtain ⟨later, earlier, htrace, -, -⟩ := h
    exact iff_of_false nofun fun hno => hno a.error (by simp [htrace])

/-- The first fatal error is the one that is stored. -/
theorem Closes.exists_aborted (h : Closes s.aborted s.trace) {error : Fatal}
    (herror : .aborted error ∈ s.trace) : ∃ a, s.aborted = some a ∧ a.error = error := by
  cases ha : s.aborted with
  | none => exact absurd herror (h.aborted_eq_none_iff.1 ha error)
  | some a =>
    rw [ha] at h
    obtain ⟨later, earlier, htrace, hlater, hearlier⟩ := h
    refine ⟨a, rfl, ?_⟩
    rw [htrace, List.mem_append, List.mem_cons] at herror
    obtain hmem | heq | hmem := herror
    · cases hlater _ hmem
    · exact (Event.aborted.inj heq).symm
    · exact absurd hmem (hearlier error)

/-- A guarded rule may run up to the ceiling, unless there is a fatal error. -/
theorem guardLevel_eq_true_iff :
    (t.guardLevel g level name).1 = true ↔
      level ≤ g.limits.recursionCeiling ∧ t.aborted = none := by
  unfold guardLevel
  cases ha : t.aborted with
  | some a => simp [isAborted, ha]
  | none =>
    simp only [isAborted, ha, Option.isSome_none, Bool.false_eq_true, if_false]
    split
    · next hlt => exact iff_of_false Bool.false_ne_true fun h => Nat.not_le_of_lt hlt h.1
    · next hle => exact iff_of_true rfl ⟨Nat.le_of_not_lt hle, trivial⟩

/-- Above the ceiling it raises a fatal error. -/
theorem exists_aborted_guardLevel (name : String) (hlevel : g.limits.recursionCeiling < level)
    (ht : t.aborted = none) : ∃ a, (t.guardLevel g level name).2.aborted = some a ∧
      a.error = .tooDeep g.limits.recursionCeiling name
        (g.source.start (g.significant t.position)) := by
  have hopen : t.isAborted = false := by rw [isAborted, ht]; rfl
  have hopen' : (t.toSignificant g).isAborted = false := hopen
  unfold guardLevel
  simp only [hopen, if_pos hlevel, Bool.false_eq_true, if_false]
  unfold abort
  simp only [hopen', Bool.false_eq_true, if_false]
  exact ⟨_, rfl, rfl⟩

/-! ## Parses -/

theorem fatal_of_parse {root : Kind} {rule : RuleRef} (h : s.parse g fuel root rule = some o) :
    o.fatal = o.session.aborted.map (·.error) := by
  obtain ⟨y, -, h⟩ := Option.bind_eq_some_iff.1 h
  obtain ⟨u, -, h⟩ := Option.bind_eq_some_iff.1 h
  cases h
  rfl

/-- Every call of a guarded rule in a parse is guarded. -/
theorem Begun.guarding {root : Kind} {rule : RuleRef} {limits : Limits} {caret : Option Nat}
    (h : Begun g fuel root rule limits caret (.guarded name body) level t)
    (hparse : (start limits caret).parse g fuel root rule = some o) : Guarding g o name level t := by
  obtain ⟨hacts, fuel', vars, ⟨b, vars', u⟩, heval, hstays⟩ := h.settles hparse
  have hin := hacts.inBounds (inBounds_start g limits caret)
  have hcloses : Closes t.aborted t.trace := hacts.closes fun _ h => nomatch h
  have hfatal {a : Aborted} (ha : u.aborted = some a) : o.fatal = some a.error := by
    rw [fatal_of_parse hparse, hstays a ha]
    rfl
  refine ⟨?_, fun hlevel hno => ?_, fun error herror => ?_⟩
  · rw [guardLevel_eq_true_iff, hcloses.aborted_eq_none_iff]
  · obtain ⟨a, ha, herror⟩ := exists_aborted_guardLevel name hlevel
      (hcloses.aborted_eq_none_iff.2 hno)
    have hfails : (t.guardLevel g level name).1 = false := by
      refine Bool.eq_false_iff.2 fun htrue => ?_
      exact Nat.not_le_of_lt hlevel (guardLevel_eq_true_iff.1 htrue).1
    obtain ⟨fuel', rfl⟩ : ∃ n, fuel' = n + 1 := by
      cases fuel' with
      | zero => cases heval
      | succ n => exact ⟨n, rfl⟩
    simp only [eval] at heval
    generalize t.guardLevel g level name = x at ha hfails heval
    obtain ⟨_, t'⟩ := x
    cases hfails
    cases heval
    rw [← herror]
    exact hfatal ha
  · obtain ⟨a, ha, rfl⟩ := hcloses.exists_aborted herror
    exact hfatal ((Grammar.acts_of_eval hin heval).aborted ha)

/-- The recursion ceiling stops a descending grammar, whatever it calls: every parse comes to its end,
and every call of a guarded rule is guarded. -/
theorem guarding_of_descends (hg : g.Descends) (limits : Limits) (caret : Option Nat) (root : Kind)
    (rule : RuleRef) : ∃ o, ∀ fuel, g.source.size + g.limits.recursionCeiling * g.grammar.depth < fuel →
      (start limits caret).parse g fuel root rule = some o ∧
        ∀ name body level t, Begun g fuel root rule limits caret (.guarded name body) level t →
          Guarding g o name level t := by
  obtain ⟨o, ho⟩ := arrives_parse hg (Nat.lt_succ_self _) limits caret root rule
  refine ⟨o, fun fuel hfuel => ?_⟩
  have hparse := parse_of_le hfuel ho
  exact ⟨hparse, fun name body level t h => h.guarding hparse⟩

/-- Two rules that call each other before anything else. -/
def leftRecursive : Setup where
  source := { text := "ab", tokens := [⟨⟨3⟩, ⟨0, 1⟩⟩, ⟨⟨3⟩, ⟨1, 2⟩⟩] }
  language := (LanguageTable.toBareLanguage {})
  limits := Limits.withRecursionCeiling default 2
  grammar := [("sum", .guarded "sum" (.and (.call (.named "term")) (.prim (.consume ⟨4⟩)))),
    ("term", .guarded "term" (.or (.call (.named "sum")) (.prim (.consume ⟨3⟩))))]

theorem guarding_of_descends_leftRecursive : leftRecursive.Descends ∧
    ∃ o body t, (∀ fuel, 8 < fuel →
        (start {} none).parse leftRecursive fuel ⟨20⟩ (.named "sum") = some o) ∧
      Begun leftRecursive 9 ⟨20⟩ (.named "sum") {} none (.guarded "sum" body) 3 t ∧
      Guarding leftRecursive o "sum" 3 t ∧ o.fatal = some (.tooDeep 2 "sum" 0) := by
  have hg : leftRecursive.Descends := by decide
  obtain ⟨o, ho⟩ := guarding_of_descends hg {} none ⟨20⟩ (.named "sum")
  let s := (enterRoot leftRecursive {} none).2
  have hsum : leftRecursive.grammar.body "sum" =
      .guarded "sum" (.and (.call (.named "term")) (.prim (.consume ⟨4⟩))) := by decide
  have hterm : leftRecursive.grammar.body "term" =
      .guarded "term" (.or (.call (.named "sum")) (.prim (.consume ⟨3⟩))) := by decide
  have hbegun : Begun leftRecursive 9 ⟨20⟩ (.named "sum") {} none
      (.guarded "sum" (.and (.call (.named "term")) (.prim (.consume ⟨4⟩)))) 3 s := by
    refine .inside rfl ?_
    rw [hsum]
    refine .guarded rfl (.first rfl (.called ?_))
    rw [hterm]
    refine .guarded rfl (.first rfl (.called ?_))
    rw [hsum]
    exact .here
  have hbound : leftRecursive.source.size +
      leftRecursive.limits.recursionCeiling * leftRecursive.grammar.depth = 8 := by decide
  rw [hbound] at ho
  obtain ⟨hparse, hguarding⟩ := ho 9 (by decide)
  have hfatal : ((start {} none).parse leftRecursive 9 ⟨20⟩ (.named "sum")).map (·.fatal) =
      some (some (.tooDeep 2 "sum" 0)) := by decide +kernel
  rw [hparse] at hfatal
  exact ⟨hg, o, _, s, fun fuel hfuel => (ho fuel hfuel).1, hbegun, hguarding _ _ _ _ hbegun,
    Option.some.inj hfatal⟩

end Session

end Descent
