import Std.Data.ExtTreeMap

/-!
Keys: pieces of a mesh named by the numbers of their corners.

An edge, a face or a cell is the same piece for every cell that contains it,
although each cell lists its corners in an order of its own.  Sorting the list
removes the difference, so two pieces agree exactly when their keys are equal.
-/

namespace HexMesh

/-- Vertex numbers in ascending order, each as often as it occurs. -/
abbrev Key := List Nat

namespace Key

/-- Put a vertex number in front of the first one that is not smaller. -/
def insert (v : Nat) : Key → Key
  | [] => [v]
  | w :: rest => if v ≤ w then v :: w :: rest else w :: insert v rest

/-- The key of a list of vertex numbers. -/
def ofList (vs : List Nat) : Key := vs.foldr insert []

/-- Every vertex number is below a bound. -/
def below (k : Key) (n : Nat) : Bool := k.all (· < n)

/-! ### What a key remembers

A key remembers the vertex numbers and nothing of their order, which is
`ofList_eq_ofList`. -/

theorem insert_perm (v : Nat) (k : Key) : (insert v k).Perm (v :: k) := by
  induction k with
  | nil => exact .refl _
  | cons w rest ih =>
    rw [insert]
    by_cases h : v ≤ w
    · rw [if_pos h]
    · rw [if_neg h]
      exact (ih.cons w).trans (.swap v w rest)

theorem ofList_perm (vs : List Nat) : (ofList vs).Perm vs := by
  induction vs with
  | nil => exact .refl _
  | cons v rest ih => exact (insert_perm v (ofList rest)).trans (ih.cons v)

theorem pairwise_insert (v : Nat) {k : Key} (h : k.Pairwise (· ≤ ·)) :
    (insert v k).Pairwise (· ≤ ·) := by
  induction k with
  | nil => exact List.pairwise_singleton _ v
  | cons w rest ih =>
    have ⟨hw, hrest⟩ := List.pairwise_cons.mp h
    rw [insert]
    by_cases hv : v ≤ w
    · rw [if_pos hv]
      refine List.pairwise_cons.mpr ⟨fun u hu => ?_, h⟩
      rcases List.mem_cons.mp hu with rfl | hu
      · exact hv
      · exact Nat.le_trans hv (hw u hu)
    · rw [if_neg hv]
      refine List.pairwise_cons.mpr ⟨fun u hu => ?_, ih hrest⟩
      rcases List.mem_cons.mp ((insert_perm v rest).mem_iff.mp hu) with rfl | hu
      · omega
      · exact hw u hu

theorem pairwise_ofList (vs : List Nat) : (ofList vs).Pairwise (· ≤ ·) := by
  induction vs with
  | nil => exact List.Pairwise.nil
  | cons v rest ih => exact pairwise_insert v ih

theorem mem_ofList {v : Nat} {vs : List Nat} : v ∈ ofList vs ↔ v ∈ vs :=
  (ofList_perm vs).mem_iff

theorem length_ofList (vs : List Nat) : (ofList vs).length = vs.length :=
  (ofList_perm vs).length_eq

/-- Two lists have the same key exactly when one is a rearrangement of the other. -/
theorem ofList_eq_ofList {vs ws : List Nat} : ofList vs = ofList ws ↔ vs.Perm ws := by
  constructor
  · intro h
    exact (ofList_perm vs).symm.trans (h ▸ ofList_perm ws)
  · intro h
    have hperm := ((ofList_perm vs).trans h).trans (ofList_perm ws).symm
    exact hperm.eq_of_pairwise (fun _ _ _ _ => Nat.le_antisymm) (pairwise_ofList vs)
      (pairwise_ofList ws)

/-- An ascending list is its own key. -/
theorem ofList_of_pairwise {k : Key} (h : k.Pairwise (· ≤ ·)) : ofList k = k :=
  (ofList_perm k).eq_of_pairwise (fun _ _ _ _ => Nat.le_antisymm) (pairwise_ofList k) h

end Key

/-- A value for each of finitely many keys.  Two maps are equal when they agree on every
key, whatever the order in which they were filled. -/
abbrev KeyMap (α : Type) := Std.ExtTreeMap Key α

namespace KeyMap

variable {α : Type}

/-- The map with the given entries.  Of several entries for one key the last one counts. -/
def ofEntries (entries : List (Key × α)) : KeyMap α :=
  entries.foldl (fun m e => m.insert e.1 e.2) ∅

/-- How often each key occurs in a list. -/
def tally (keys : List Key) : KeyMap Nat :=
  keys.foldl (fun m k => m.insert k (m.getD k 0 + 1)) ∅

end KeyMap

/-- Distinct keys numbered from zero in the order in which they were first met.  `index`
finds the number of a key and `keys` the key of a number. -/
structure Numbering where
  index : KeyMap Nat := ∅
  keys : Array Key := #[]

namespace Numbering

/-- Give a key the next number unless it has one. -/
def record (n : Numbering) (k : Key) : Numbering :=
  if n.index.contains k then n
  else { index := n.index.insert k n.keys.size, keys := n.keys.push k }

/-- The keys of a list in the order of their first occurrence. -/
def ofList (ks : List Key) : Numbering := ks.foldl record {}

/-- The number of a key; zero for a key without one. -/
def number (n : Numbering) (k : Key) : Nat := n.index.getD k 0

end Numbering
end HexMesh
