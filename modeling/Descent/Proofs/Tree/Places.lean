import Descent.Tree

/-!
# Places in a tree

Two nodes of a tree may look alike, so a node alone does not say where it is. A `Place` has the way
down to the node and the number of tokens before it as well. The places of the nodes below the top
of a tree are listed in the order in which the nodes begin, outer ones first (`Tree.innerPlaces`).
-/

namespace Descent

/-- A node of a tree and where it is. -/
structure Place where
  /-- The child to go to at each step down from the top. -/
  path : List Nat
  /-- The number of tokens before the node. -/
  first : Nat
  tree : Tree

namespace Place

/-- The number of tokens before the end of the node. -/
def stop (p : Place) : Nat := p.first + p.tree.leaves.length

/-- The node at one place is a proper ancestor of that at the other. -/
def IsAbove (p q : Place) : Prop := p.path <+: q.path ∧ p.path ≠ q.path

end Place

namespace Tree

mutual

/-- The places of a node and of the nodes below it, where the node is at a path and has a number of
tokens before it. -/
def places (path : List Nat) (first : Nat) : Tree → List Place
  | leaf _ => []
  | node k s e ts => ⟨path, first, node k s e ts⟩ :: placesAll path first 0 ts

/-- The places in the children of the node at a path, from child `i` on. -/
def placesAll (path : List Nat) (first i : Nat) : List Tree → List Place
  | [] => []
  | t :: ts =>
    t.places (path ++ [i]) first ++ placesAll path (first + t.leaves.length) (i + 1) ts

end

/-- The places of the nodes below the top of a tree. -/
def innerPlaces (t : Tree) : List Place := placesAll [] 0 0 t.children

variable {path : List Nat} {first i : Nat} {p : Place}

theorem placesAll_append (path : List Nat) (first i : Nat) (ts us : List Tree) :
    placesAll path first i (ts ++ us) = placesAll path first i ts ++
      placesAll path (first + (leavesAll ts).length) (i + ts.length) us := by
  induction ts generalizing first i with
  | nil => simp [placesAll, leavesAll]
  | cons t ts ih =>
    simp only [List.cons_append, placesAll, ih, leavesAll, List.length_append, List.append_assoc,
      List.length_cons]
    rw [Nat.add_assoc, Nat.add_assoc i 1, Nat.add_comm 1]

/-- Tokens are at no place. -/
@[simp] theorem placesAll_map_leaf (path : List Nat) (first i : Nat) (l : List Token) :
    placesAll path first i (l.map leaf) = [] := by
  induction l generalizing first i with
  | nil => rfl
  | cons t l ih => simp [placesAll, places, ih]

mutual

/-- The nodes at the places of a tree are its nodes. -/
theorem map_tree_places (path : List Nat) (first : Nat) :
    ∀ t : Tree, (t.places path first).map (·.tree) = t.nodes
  | leaf _ => rfl
  | node k s e ts => by
    rw [places, nodes, List.map_cons, map_tree_placesAll path first 0 ts]

theorem map_tree_placesAll (path : List Nat) (first i : Nat) :
    ∀ ts : List Tree, (placesAll path first i ts).map (·.tree) = nodesAll ts
  | [] => rfl
  | t :: ts => by
    rw [placesAll, nodesAll, List.map_append, map_tree_places _ first t,
      map_tree_placesAll path _ (i + 1) ts]

end

mutual

/-- Every place in a tree is at or below the path of the tree. -/
theorem prefix_of_mem_places (path : List Nat) (first : Nat) :
    ∀ t : Tree, p ∈ t.places path first → path <+: p.path
  | leaf _, h => by cases h
  | node k s e ts, h => by
    rcases List.mem_cons.1 h with rfl | h
    · exact List.prefix_rfl
    · obtain ⟨j, -, -, hj⟩ := prefix_of_mem_placesAll path first 0 ts h
      exact (List.prefix_append path [j]).trans hj

/-- Every place in the children is at or below the path of one of them. -/
theorem prefix_of_mem_placesAll (path : List Nat) (first i : Nat) :
    ∀ ts : List Tree, p ∈ placesAll path first i ts →
      ∃ j, i ≤ j ∧ j < i + ts.length ∧ path ++ [j] <+: p.path
  | [], h => by cases h
  | t :: ts, h => by
    rw [List.length_cons]
    rcases List.mem_append.1 h with h | h
    · exact ⟨i, Nat.le_refl i, by omega, prefix_of_mem_places (path ++ [i]) first t h⟩
    · obtain ⟨j, hj, hlt, hp⟩ := prefix_of_mem_placesAll path _ (i + 1) ts h
      exact ⟨j, by omega, by omega, hp⟩

end

end Tree

namespace Place

variable {p q : Place} {path : List Nat} {i j : Nat}

/-- What is below the path of a node is below the node. -/
theorem isAbove_of_prefix (hp : p.path = path) (hq : path ++ [j] <+: q.path) : p.IsAbove q := by
  obtain ⟨more, hmore⟩ := hq
  refine ⟨⟨j :: more, by rw [hp, ← hmore, List.append_assoc]; rfl⟩, fun h => ?_⟩
  have := congrArg List.length (h.symm.trans hp ▸ hmore)
  simp at this

/-- No node is above the one it is below, and none above a node that another child leads to. -/
theorem not_isAbove_of_prefix (hp : path ++ [i] <+: p.path) (hq : q.path = path) :
    ¬ p.IsAbove q := by
  rintro ⟨h, -⟩
  have h₁ := hp.length_le
  have h₂ := (hq ▸ h).length_le
  rw [List.length_append, List.length_singleton] at h₁
  omega

theorem not_isAbove_of_ne (hp : path ++ [i] <+: p.path) (hq : path ++ [j] <+: q.path)
    (h : i ≠ j) : ¬ p.IsAbove q := by
  rintro ⟨hpq, -⟩
  have heq : path ++ [i] = path ++ [j] :=
    (List.prefix_of_prefix_length_le (hp.trans hpq) hq (by simp)).eq_of_length (by simp)
  exact h (by simpa using heq)

end Place

end Descent
