import HexMesh.Mesh.Refinement
import HexMesh.Number.Binary64
import HexMesh.Proofs.Geometry.Average
import HexMesh.Proofs.Mesh.Cell
import HexMesh.Proofs.Number.Radix
import HexMesh.Proofs.Number.Rational

/-!
The vertices of a refined mesh.

`Mesh.middle` names the vertex in the middle of a piece by the key of the piece.
It is a bijection from the keys with more than one corner to the new vertices, and
every corner of every child is the middle of a piece of its parent.  So two
children share a vertex exactly when the pieces have the same key, whichever cells
they belong to and however these number their corners.
-/

namespace HexMesh
namespace Mesh

open HexMesh.Cube

variable {K : Type} {d : Nat} {m : Mesh K d} {k l : Key}

/-- Some cell of the mesh has a piece with this key. -/
def IsPiece (m : Mesh K d) (k : Key) : Prop :=
  ∃ c ∈ m.cells, ∃ p < latticeCount d, c.latticeKey p = k

/-- The vertex of the refined mesh in the middle of the piece with a given key. -/
def middle (m : Mesh K d) (k : Key) : Nat := m.vertexOfKey m.newKeys k

/-! ## Keys of pieces -/

theorem isPiece_latticeKey {c : Cell d} (hc : c ∈ m.cells) (child v : Corner d) :
    m.IsPiece (c.latticeKey (childPoint child v)) :=
  ⟨c, hc, _, childPoint_lt child v, rfl⟩

theorem IsPiece.pairwise (h : m.IsPiece k) : k.Pairwise (· ≤ ·) := by
  obtain ⟨c, -, p, -, rfl⟩ := h
  exact c.pairwise_key _

theorem IsPiece.lt_size (hm : m.CellsValid) (h : m.IsPiece k) : ∀ v ∈ k, v < m.vertices.size := by
  obtain ⟨c, hc, p, -, rfl⟩ := h
  intro u hu
  obtain ⟨v, -, rfl⟩ := Cell.mem_latticeKey.mp hu
  exact hm c hc _ (c.get_mem v)

theorem IsPiece.singleton_or_length (h : m.IsPiece k) : (∃ v, k = [v]) ∨ 1 < k.length := by
  obtain ⟨c, -, p, -, rfl⟩ := h
  have hne := c.latticeKey_ne_nil p
  match c.latticeKey p, hne with
  | [v], _ => exact Or.inl ⟨v, rfl⟩
  | _ :: _ :: _, _ => exact Or.inr (by simp)

theorem IsPiece.ne_nil (h : m.IsPiece k) : k ≠ [] := by
  obtain ⟨c, -, p, -, rfl⟩ := h
  exact c.latticeKey_ne_nil p

theorem valid_newKeys (m : Mesh K d) : m.newKeys.Valid := Numbering.valid_ofList _

theorem mem_newKeys : k ∈ m.newKeys.keys ↔ m.IsPiece k ∧ 1 < k.length := by
  rw [newKeys, Numbering.mem_keys_ofList, List.mem_flatMap]
  constructor
  · intro h
    obtain ⟨c, hc, hk⟩ := h
    obtain ⟨hk, hlength⟩ := List.mem_filter.mp hk
    obtain ⟨p, hp, rfl⟩ := List.mem_map.mp hk
    exact ⟨⟨c, hc, p, List.mem_range.mp hp, rfl⟩, by simpa using hlength⟩
  · intro h
    obtain ⟨⟨c, hc, p, hp, rfl⟩, hlength⟩ := h
    refine ⟨c, hc, List.mem_filter.mpr ⟨?_, by simpa using hlength⟩⟩
    exact List.mem_map.mpr ⟨p, List.mem_range.mpr hp, rfl⟩

/-! ## Middles -/

@[simp] theorem middle_singleton (m : Mesh K d) (v : Nat) : m.middle [v] = v := rfl

theorem middle_of_length (h : 1 < k.length) :
    m.middle k = m.vertices.size + m.newKeys.number k := by
  match k, h with
  | _ :: _ :: _, _ => rfl

/-- Different pieces have different middles.  The old vertices end where the new ones
begin, so that the middle of a longer piece is no corner. -/
theorem injOn_middle (hm : m.CellsValid) : Set.InjOn m.middle {k | m.IsPiece k} := by
  intro k hk l hl he
  rcases hk.singleton_or_length with ⟨v, rfl⟩ | hklength
  · have hv : v < m.vertices.size := hk.lt_size hm v List.mem_cons_self
    rcases hl.singleton_or_length with ⟨w, rfl⟩ | hllength
    · exact congrArg (fun u => [u]) he
    · rw [middle_singleton, middle_of_length hllength] at he
      omega
  · rcases hl.singleton_or_length with ⟨w, rfl⟩ | hllength
    · have hw : w < m.vertices.size := hl.lt_size hm w List.mem_cons_self
      rw [middle_singleton, middle_of_length hklength] at he
      omega
    · rw [middle_of_length hklength, middle_of_length hllength] at he
      exact m.valid_newKeys.number_inj (mem_newKeys.mpr ⟨hk, hklength⟩)
        (mem_newKeys.mpr ⟨hl, hllength⟩) (Nat.add_left_cancel he)

section Refined

variable [Scalar K]

theorem size_refineOnce (m : Mesh K d) :
    m.refineOnce.vertices.size = m.vertices.size + m.newKeys.keys.size := by
  rw [refineOnce, Array.size_append, Array.size_map]

theorem getElem?_vertices_refineOnce {v : Nat} (hv : v < m.vertices.size) :
    m.refineOnce.vertices[v]? = m.vertices[v]? := by
  rw [refineOnce, Array.getElem?_append_left hv]

theorem middle_lt (hm : m.CellsValid) (hk : m.IsPiece k) :
    m.middle k < m.refineOnce.vertices.size := by
  rw [size_refineOnce]
  rcases hk.singleton_or_length with ⟨v, rfl⟩ | hlength
  · exact Nat.lt_add_right _ (hk.lt_size hm v List.mem_cons_self)
  · rw [middle_of_length hlength]
    exact Nat.add_lt_add_left (m.valid_newKeys.number_lt (mem_newKeys.mpr ⟨hk, hlength⟩)) _

/-- Each piece with more than one corner has one new vertex to itself, and there are no
other new vertices. -/
theorem bijOn_middle (hm : m.CellsValid) :
    Set.BijOn m.middle {k | m.IsPiece k ∧ 1 < k.length}
      (Set.Ico m.vertices.size m.refineOnce.vertices.size) := by
  refine ⟨fun k hk => ⟨?_, middle_lt hm hk.1⟩, (injOn_middle hm).mono fun k hk => hk.1, ?_⟩
  · rw [middle_of_length hk.2]
    exact Nat.le_add_right _ _
  · intro v h
    obtain ⟨hlow, hhigh⟩ := h
    obtain ⟨i, rfl⟩ := Nat.exists_eq_add_of_le hlow
    rw [size_refineOnce] at hhigh
    have hi : i < m.newKeys.keys.size := Nat.lt_of_add_lt_add_left hhigh
    have hstand : m.newKeys.keys[i]? = some m.newKeys.keys[i] := Array.getElem?_eq_getElem hi
    have hpiece := mem_newKeys.mp (Array.getElem_mem hi)
    refine ⟨m.newKeys.keys[i], hpiece, ?_⟩
    rw [middle_of_length hpiece.2, m.valid_newKeys.number_eq hstand]

theorem getElem?_middle (hk : m.IsPiece k) (hlength : 1 < k.length) :
    m.refineOnce.vertices[m.middle k]? = some (m.newPosition m.curvedKeys k) := by
  rw [middle_of_length hlength, refineOnce, Array.getElem?_append_right (Nat.le_add_right _ _),
    Nat.add_sub_cancel_left, Array.getElem?_map,
    m.valid_newKeys.getElem?_number (mem_newKeys.mpr ⟨hk, hlength⟩)]
  rfl

/-! ## Children -/

omit [Scalar K] in
/-- Places in a list of blocks of one length. -/
theorem getElem?_flatMap_of_length {α β : Type} {n : Nat} {f : α → List β}
    (h : ∀ a, (f a).length = n) (l : List α) (i j : Nat) (hj : j < n) :
    (l.flatMap f)[i * n + j]? = l[i]?.bind fun a => (f a)[j]? := by
  induction l generalizing i with
  | nil => rfl
  | cons a rest ih =>
    rw [List.flatMap_cons]
    cases i with
    | zero =>
      rw [Nat.zero_mul, Nat.zero_add, List.getElem?_append_left (by rw [h]; exact hj)]
      rfl
    | succ i =>
      have hskip : (i + 1) * n + j - (f a).length = i * n + j := by
        rw [h, Nat.succ_mul]
        omega
      rw [List.getElem?_append_right (by rw [h, Nat.succ_mul]; omega), hskip, ih]
      rfl

theorem cells_refineOnce (m : Mesh K d) :
    m.refineOnce.cells = m.cells.flatMap fun c => (corners d).map (m.childCell m.newKeys c) := by
  rw [refineOnce, List.flatMap_map]
  simp only [List.map_map]
  rfl

theorem mem_cells_refineOnce {a : Cell d} :
    a ∈ m.refineOnce.cells ↔ ∃ c ∈ m.cells, ∃ v, a = m.childCell m.newKeys c v := by
  rw [cells_refineOnce, List.mem_flatMap]
  refine exists_congr fun c => and_congr_right fun _ => ?_
  rw [List.mem_map]
  apply exists_congr
  intro v
  rw [eq_comm]
  exact and_iff_right (mem_corners v)

theorem length_cells_refineOnce (m : Mesh K d) :
    m.refineOnce.cells.length = m.cells.length * cornerCount d := by
  rw [cells_refineOnce, List.length_flatMap]
  simp [length_corners]

theorem getElem?_cells_refineOnce (m : Mesh K d) (i : Nat) (child : Corner d) :
    m.refineOnce.cells[i * cornerCount d + child]? =
      m.cells[i]?.map fun c => m.childCell m.newKeys c child := by
  have hplace : (corners d)[child.val]? = some child := by
    simp [corners]
  rw [cells_refineOnce, getElem?_flatMap_of_length (fun c => by simp [length_corners]) _ _ _
    child.isLt]
  simp only [List.getElem?_map, hplace]
  cases m.cells[i]? <;> rfl

theorem exists_childCell {j : Nat} {c' : Cell d} (hc' : m.refineOnce.cells[j]? = some c') :
    ∃ (i : Nat) (v : Corner d) (c : Cell d), m.cells[i]? = some c ∧ i * cornerCount d + v = j ∧
      m.childCell m.newKeys c v = c' := by
  have hj := (List.getElem?_eq_some_iff.mp hc').1
  rw [m.length_cells_refineOnce] at hj
  obtain ⟨i, -, v, rfl⟩ := exists_block hj
  rw [getElem?_cells_refineOnce m i v, Option.map_eq_some_iff] at hc'
  obtain ⟨c, hc, rfl⟩ := hc'
  exact ⟨i, v, c, hc, rfl, rfl⟩

omit [Scalar K] in
/-- A corner of a child is the middle of the piece at the meeting point of the two. -/
@[simp] theorem get_childCell (m : Mesh K d) (c : Cell d) (child v : Corner d) :
    (m.childCell m.newKeys c child).get v = m.middle (c.latticeKey (childPoint child v)) := by
  rw [childCell, Cell.get_ofFn]
  rfl

/-! ## Positions -/

/-- Without shapes a new vertex is the mean of its parents. -/
theorem newPosition_of_flat (hshapes : m.shapes = ∅) (curved : KeyMap Indicator) (k : Key) :
    m.newPosition curved k = Point.average (k.map m.position) := by
  have hflat : m.shapeOfKey curved k = .flat := by
    rw [shapeOfKey, hshapes]
    cases curved[k]? <;> rfl
  rw [newPosition, hflat]
  rfl

omit [Scalar K] in
theorem exists_shape_of_curvedKeys {i : Indicator} (h : m.curvedKeys[k]? = some i) :
    ∃ s, m.shapes[i]? = some s := by
  have hmem := KeyMap.mem_of_getElem?_ofEntries h
  obtain ⟨f, -, hf⟩ := List.mem_flatMap.mp hmem
  cases hc : m.cells.toArray[f.cell]? with
  | none => simp [hc] at hf
  | some c =>
    simp only [hc] at hf
    by_cases hshape : m.shapes.contains f.indicator
    · rw [if_pos hshape] at hf
      obtain ⟨l, -, he⟩ := List.mem_map.mp hf
      cases he
      exact Option.isSome_iff_exists.mp (by simpa using hshape)
    · simp [hshape] at hf

/-- What one refinement does to the vertices.  The old ones stay, and each corner list of
more than one corner that a lattice point of a cell yields gets one new vertex.  Corner
`v` of a child is the vertex of the lattice point whose digits add up the sides of child
and corner, so that vertices agree exactly when the lists do.  A new vertex is the mean
of the listed vertices in ascending order, or where the shape that is recorded for the
list places it. -/
theorem refineOnce_vertices (hm : m.WellFormed) :
    (∀ v < m.vertices.size, m.refineOnce.vertices[v]? = m.vertices[v]?) ∧
    (∀ v, m.middle [v] = v) ∧
    Set.BijOn m.middle {k | m.IsPiece k ∧ 1 < k.length}
      (Set.Ico m.vertices.size m.refineOnce.vertices.size) ∧
    m.refineOnce.cells.length = m.cells.length * cornerCount d ∧
    (∀ i c, m.cells[i]? = some c → ∀ child : Corner d,
      ∃ c', m.refineOnce.cells[i * cornerCount d + child]? = some c' ∧
        ∀ v : Corner d, ∃ p < latticeCount d,
          (∀ a : Fin d, latticeDigit p a = (child.high a).toNat + (v.high a).toNat) ∧
          c'.get v = m.middle (c.latticeKey p)) ∧
    (∀ k l, m.IsPiece k → m.IsPiece l → (m.middle k = m.middle l ↔ k = l)) ∧
    (∀ k, m.IsPiece k → 1 < k.length →
      k.Pairwise (· ≤ ·) ∧ (∀ v ∈ k, v < m.vertices.size) ∧
      (m.curvedKeys[k]? = none →
        m.refineOnce.vertices[m.middle k]? = some (Point.average (k.map m.position))) ∧
      ∀ i, m.curvedKeys[k]? = some i → ∃ s, m.shapes[i]? = some s ∧
        m.refineOnce.vertices[m.middle k]? = some (s.place (k.map m.position))) := by
  have hcells : m.CellsValid := hm.cell_lt
  refine ⟨fun v hv => getElem?_vertices_refineOnce hv, m.middle_singleton, bijOn_middle hcells,
    m.length_cells_refineOnce, fun i c hc child => ?_, fun k l hk hl => ?_, fun k hk hlength => ?_⟩
  · refine ⟨m.childCell m.newKeys c child, ?_, fun v => ?_⟩
    · rw [getElem?_cells_refineOnce, hc]
      rfl
    · exact ⟨childPoint child v, childPoint_lt child v, latticeDigit_childPoint child v,
        m.get_childCell c child v⟩
  · exact ⟨fun he => injOn_middle hcells hk hl he, congrArg m.middle⟩
  · refine ⟨hk.pairwise, hk.lt_size hcells, fun hnone => ?_, fun i hi => ?_⟩
    · rw [getElem?_middle hk hlength, newPosition, shapeOfKey, hnone]
      rfl
    · obtain ⟨s, hs⟩ := exists_shape_of_curvedKeys hi
      refine ⟨s, hs, ?_⟩
      rw [getElem?_middle hk hlength, newPosition, shapeOfKey, hi, Option.bind_some, hs]
      rfl

end Refined

/-- Two bricks with a common face, which they number along different axes. -/
def bricks : Mesh Float 3 :=
  { vertices := #[.xyz 0 0 0, .xyz 1 0 0, .xyz 0 1 0, .xyz 1 1 0, .xyz 0 0 1, .xyz 1 0 1,
      .xyz 0 1 1, .xyz 1 1 1, .xyz 2 0 0, .xyz 2 1 0, .xyz 2 0 1, .xyz 2 1 1]
    cells := [#v[0, 1, 2, 3, 4, 5, 6, 7], #v[1, 3, 8, 9, 5, 7, 10, 11]]
    indicators := KeyMap.ofEntries [([0, 2, 4, 6], 7)] }

/-- The bricks with a sphere for the side that has an indicator. -/
def roundedBricks : Mesh ℚ 3 :=
  { vertices := #[.xyz 0 0 0, .xyz 1 0 0, .xyz 0 1 0, .xyz 1 1 0, .xyz 0 0 1, .xyz 1 0 1,
      .xyz 0 1 1, .xyz 1 1 1, .xyz 2 0 0, .xyz 2 1 0, .xyz 2 0 1, .xyz 2 1 1]
    cells := [#v[0, 1, 2, 3, 4, 5, 6, 7], #v[1, 3, 8, 9, 5, 7, 10, 11]]
    indicators := KeyMap.ofEntries [([0, 2, 4, 6], 7)]
    shapes := (∅ : Std.ExtTreeMap Indicator (Shape ℚ 3)).insert 7 (.ball (.xyz 3 (1 / 2) 4) 10) }

theorem wellFormed_roundedBricks : roundedBricks.WellFormed :=
  ⟨by decide, KeyMap.forall_mem_ofEntries (by decide), KeyMap.forall_mem_ofEntries (by decide)⟩

/-- The edge between the vertices zero and two lies on the sphere, which is twice as far from its
center as the middle of the edge; the edge between zero and one does not. -/
theorem refineOnce_vertices_bricks :
    roundedBricks.WellFormed ∧
      Set.BijOn roundedBricks.middle {k | roundedBricks.IsPiece k ∧ 1 < k.length}
        (Set.Ico 12 roundedBricks.refineOnce.vertices.size) ∧
      (roundedBricks.IsPiece [0, 2] ∧ roundedBricks.curvedKeys[[0, 2]]? = some 7 ∧
        roundedBricks.refineOnce.vertices[roundedBricks.middle [0, 2]]? =
          some (.xyz (-3) (1 / 2) (-4))) ∧
      roundedBricks.IsPiece [0, 1] ∧ roundedBricks.curvedKeys[[0, 1]]? = none ∧
        roundedBricks.refineOnce.vertices[roundedBricks.middle [0, 1]]? =
          some (.xyz (1 / 2) 0 0) := by
  have hcurved : roundedBricks.IsPiece [0, 2] :=
    ⟨#v[0, 1, 2, 3, 4, 5, 6, 7], by decide, 3, by decide, by decide⟩
  have hflat : roundedBricks.IsPiece [0, 1] :=
    ⟨#v[0, 1, 2, 3, 4, 5, 6, 7], by decide, 1, by decide, by decide⟩
  have hkey : roundedBricks.curvedKeys[[0, 2]]? = some 7 := by decide +kernel
  have hnone : roundedBricks.curvedKeys[[0, 1]]? = none := by decide +kernel
  have hshape : roundedBricks.shapes[(7 : Indicator)]? = some (.ball (.xyz 3 (1 / 2) 4) 10) :=
    Std.ExtTreeMap.getElem?_insert_self
  obtain ⟨-, -, hbijection, -, -, -, hplaces⟩ := refineOnce_vertices wellFormed_roundedBricks
  obtain ⟨-, -, -, hsphere⟩ := hplaces _ hcurved (by decide)
  obtain ⟨s, hs, hplace⟩ := hsphere 7 hkey
  obtain ⟨-, -, hmean, -⟩ := hplaces _ hflat (by decide)
  obtain rfl := Option.some.inj (hshape.symm.trans hs)
  refine ⟨wellFormed_roundedBricks, hbijection, ⟨hcurved, hkey, ?_⟩, hflat, hnone, ?_⟩
  · rw [hplace]
    exact congrArg some (Point.ext_get (by decide +kernel))
  · rw [hmean hnone]
    exact congrArg some (Point.ext_get (by decide +kernel))

end Mesh
end HexMesh
