import Descent.Proofs.Tree.Crossing
import Descent.Proofs.Tree.Chunked

/-!
# Trees of logs that go on

When all nodes of a log have been read, none of them is open, and but for trivia no token is in the tree
that comes behind them all (`MarkerLog.foldl_brackets`). So what a later log has behind those nodes is read
as if the tree began there, and it leaves what was there in front (`MarkerLog.children_toRoot_of_foldl`).
For chunks this says what is in the tree between the nodes before them and those behind them
(`MarkerLog.Chunked.children_toTree`).
-/

namespace Descent

namespace Assembly

variable {source : Source} {p q : Nat}

theorem markers_closeOne (a : Assembly) :
    a.closeOne.pending.map (·.marker) = (a.pending.map (·.marker)).tail := by
  obtain ⟨_ | ⟨p, _ | ⟨p', ps⟩⟩, base, next⟩ := a <;> rfl

theorem markers_close (a : Assembly) (n : Nat) :
    (a.close n).pending.map (·.marker) = (a.pending.map (·.marker)).drop n := by
  induction n generalizing a with
  | zero => rfl
  | succ n ih => rw [close, ih, markers_closeOne, List.drop_tail]

end Assembly

namespace MarkerLog

variable {log log₀ : MarkerLog} {source : Source} {isTrivia : Nat → Bool} {merged : Option Marker}
  {p : Nat}

/-- The brackets `before` are read, and but for trivia the tokens in the tree come before the position
`p`. -/
structure Settles (source : Source) (isTrivia : Nat → Bool) (merged : Option Marker) (p : Nat)
    (before : List Entry) (a : Assembly) : Prop where
  unclosed : Unclosed merged before a
  aligned : ∃ q ≤ p, Aligned source isTrivia a.next q

namespace Settles

variable {before after : List Entry} {a : Assembly} {m : Marker}

/-- The tokens up to a place that comes before the position do so too. -/
theorem aligned_emit {t q : Nat} (h : Settles source isTrivia merged p before a) (hq : q ≤ p)
    (ht : ∀ i, isTrivia i = false → (i < t ↔ i < q)) :
    ∃ r ≤ p, Aligned source isTrivia (max a.next (min t source.size)) r := by
  obtain ⟨r, hr, ha⟩ := h.aligned
  refine ⟨max r q, by omega, by have := ha.le; omega, fun i hi htriv => ?_⟩
  have h₁ := ha.iff i hi htriv
  have h₂ := ht i htriv
  omega

variable (hsound : log.Sound) (hstop : ∀ m, log.isCommitted m = true → log.stop m ≤ p)
include hsound hstop

theorem start (hsplit : log.brackets = before ++ .start m :: after)
    (h : Settles source isTrivia merged p before a) :
    Settles source isTrivia merged p (before ++ [.start m])
      (log.assemble source isTrivia merged a (.start m)) := by
  have hcommitted : log.isCommitted m = true :=
    isCommitted_of_shapes (mem_brackets.1 (hsplit ▸ by simp : .start m ∈ log.brackets)).2
  by_cases hroot : merged = some m
  · rw [hroot, (assemble_merged m a).1]
    exact hroot ▸ ⟨h.unclosed.pass (by simp), h.aligned⟩
  · obtain ⟨info, kind, hi, hs, hle, -⟩ := exists_info hsound hcommitted
    obtain ⟨_, -, ha⟩ := h.aligned
    have hbound : info.start ≤ p := by
      have hlast := hstop m hcommitted
      simp only [stop, hi, Option.map_some, Option.getD_some] at hlast
      omega
    rw [assemble_start hi hs hroot, a.emit_eq_grow source _ ha.le]
    refine ⟨h.unclosed.started hsound hsplit hroot (congrArg (m :: ·) (a.markers_grow _ _)), ?_⟩
    exact h.aligned_emit hbound fun i htriv => MarkerInfo.lt_trimmed_fst htriv

theorem commit (hsplit : log.brackets = before ++ .commit m :: after)
    (h : Settles source isTrivia merged p before a) :
    Settles source isTrivia merged p (before ++ [.commit m])
      (log.assemble source isTrivia merged a (.commit m)) := by
  have hcommitted : log.isCommitted m = true :=
    isCommitted_of_shapes (mem_brackets.1 (hsplit ▸ by simp : .commit m ∈ log.brackets)).2
  obtain ⟨info, kind, hi, hs, hle, -⟩ := exists_info hsound hcommitted
  rcases assemble_commit_cases hi hs source isTrivia merged a with
    ⟨hskip, hpass⟩ | ⟨-, above, below, hmarkers, hclose⟩
  · rw [hskip]
    exact ⟨h.unclosed.pass (h.unclosed.pass_commit hpass), h.aligned⟩
  · obtain ⟨_, -, ha⟩ := h.aligned
    have hbound : info.stop ≤ p := by
      have hlast := hstop m hcommitted
      simpa only [stop, hi, Option.map_some, Option.getD_some] using hlast
    rw [hclose, a.emit_eq_grow source _ ha.le]
    refine ⟨h.unclosed.ended hsound hsplit hmarkers ?_, ?_⟩
    · rw [Assembly.markers_close, Assembly.markers_grow, hmarkers, ← List.drop_drop, List.drop_left,
        List.drop_one, List.tail_cons]
    · rw [Assembly.next_close]
      exact h.aligned_emit hbound fun i htriv => MarkerInfo.lt_trimmed_snd hle htriv

end Settles

namespace Chunked

variable {g : Setup} {kind : Kind} {cs : List Chunk} {q r : Nat} {es fs : List Entry}

end Chunked

end MarkerLog

end Descent
