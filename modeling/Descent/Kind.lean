/-!
# Kinds

A kind says what a token or a node is. Nothing is known about a kind but its number; the kinds
below `Kind.firstUser` have a fixed meaning, all others are given theirs by a language.
-/

namespace Descent

/-- What a token or a node is. -/
@[ext]
structure Kind where
  index : UInt16
  deriving DecidableEq, Repr, Inhabited

namespace Kind

/-- The kind of nodes that report an error. -/
def error : Kind := ⟨0⟩

/-- The kind of the chunks that skipped tokens are grouped into. -/
def chunk : Kind := ⟨1⟩

/-- The first kind that a language may use for its own tokens and nodes. -/
def firstUser : Kind := ⟨2⟩

/-- The kind as a number. -/
def toNat (k : Kind) : Nat := k.index.toNat

/-- The kind with the given number, taken modulo the number of kinds. -/
def ofNat (n : Nat) : Kind := ⟨UInt16.ofNat n⟩

def isError (k : Kind) : Bool := k == error

instance : LT Kind := ⟨fun a b => a.index < b.index⟩
instance : LE Kind := ⟨fun a b => a.index ≤ b.index⟩
instance (a b : Kind) : Decidable (a < b) := inferInstanceAs (Decidable (a.index < b.index))
instance (a b : Kind) : Decidable (a ≤ b) := inferInstanceAs (Decidable (a.index ≤ b.index))
instance : Ord Kind := ⟨fun a b => compare a.index b.index⟩

/-- The name of a kind that no language has named. -/
def debugName (k : Kind) : String :=
  if k = error then "ERROR"
  else if k = chunk then "DUMMY_BLOCK"
  else "#" ++ toString k.toNat

@[simp] theorem toNat_ofNat {n : Nat} (h : n < 65536) : (ofNat n).toNat = n := by
  simpa [ofNat, toNat] using h

@[simp] theorem ofNat_toNat (k : Kind) : ofNat k.toNat = k := by
  simp [ofNat, toNat]

theorem toNat_lt (k : Kind) : k.toNat < 65536 := k.index.toNat_lt

theorem toNat_inj {a b : Kind} : a.toNat = b.toNat ↔ a = b :=
  ⟨fun h => Kind.ext (UInt16.toNat_inj.1 h), fun h => h ▸ rfl⟩

end Kind

end Descent
