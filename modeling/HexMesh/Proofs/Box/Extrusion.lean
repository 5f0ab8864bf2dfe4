import Mathlib.Algebra.Field.Rat
import Mathlib.Algebra.Order.Field.Basic
import Mathlib.Algebra.Order.Ring.Rat
import Mathlib.Tactic.IntervalCases
import HexMesh.Proofs.Box.Boundary
import HexMesh.Proofs.Extrusion.Boundary
import HexMesh.Proofs.Number.Rational

/-!
Extruding the mesh of a plane box.

Both the grid in space and the extruded grid run through the plane first and then through
the layers, so vertices and cells have the same numbers in both.  A face of a hexahedron has
the number of the edge below it, and the colors of a plane box end where those of bottom and
top begin.
-/

namespace HexMesh

open HexMesh.Cube

namespace Box

variable {K : Type} {b : Box K 2} {layers i k u : Nat}

section Prism

variable [Scalar K] {height : K}

/-- The box above a plane box, from height zero up. -/
def prism (b : Box K 2) (layers : Nat) (height : K) : Box K 3 where
  repetitions := b.repetitions.push layers
  low := .xyz b.low.abscissa b.low.ordinate ((0 : Nat) : K)
  high := .xyz b.high.abscissa b.high.ordinate height

theorem prism_ofCorners (r₀ r₁ : Nat) (p q : Point K 2) (hheight : ¬height < ((0 : Nat) : K)) :
    (ofCorners #v[r₀, r₁] p q).prism layers height =
      ofCorners #v[r₀, r₁, layers] (.xyz p.abscissa p.ordinate ((0 : Nat) : K))
        (.xyz q.abscissa q.ordinate height) := by
  have hswap : ¬decide (height < ((0 : Nat) : K)) = true := by simpa using hheight
  rw [prism, ofCorners, ofCorners, Box.mk.injEq]
  have hcases : ∀ a : Fin 3, a = 0 ∨ a = 1 ∨ a = 2 := by decide
  refine ⟨rfl, Point.ext_get fun a => ?_, Point.ext_get fun a => ?_⟩ <;> rw [Point.get_ofFn] <;>
    rcases hcases a with rfl | rfl | rfl
  · exact Point.get_ofFn _ 0
  · exact Point.get_ofFn _ 1
  · exact (if_neg hswap).symm
  · exact Point.get_ofFn _ 0
  · exact Point.get_ofFn _ 1
  · exact (if_neg hswap).symm

/-! ## Numbers in the prism -/

theorem pointRadix_prism (b : Box K 2) (layers : Nat) (height : K) :
    (b.prism layers height).pointRadix = b.pointRadix.push (layers + 1) := Vector.map_push ..

theorem pointCount_prism (b : Box K 2) (layers : Nat) (height : K) :
    (b.prism layers height).pointCount = (layers + 1) * b.pointCount := by
  rw [pointCount, pointCount, stride_eq, stride_eq, pointRadix_prism, Nat.mul_comm]
  exact Radix.weight_push_last _ _

theorem cellCount_prism (b : Box K 2) (layers : Nat) (height : K) :
    (b.prism layers height).cellCount = layers * b.cellCount :=
  (Radix.weight_push_last b.repetitions layers).trans (Nat.mul_comm _ _)

theorem pointIndex_prism (b : Box K 2) (layers : Nat) (height : K) (k u : Nat) (a : Fin 2) :
    (b.prism layers height).pointIndex a.castSucc (k * b.pointCount + u) = b.pointIndex a u := by
  rw [pointIndex_eq, pointIndex_eq, pointRadix_prism, pointCount, stride_eq, Nat.add_comm (k * _)]
  exact (Radix.digit_push_castSucc _ _ _ a).trans
    (Radix.digit_add_mul_weight _ a.isLt (Nat.le_refl 2) u k)

theorem pointIndex_prism_last (hu : u < b.pointCount) (hk : k ≤ layers) :
    (b.prism layers height).pointIndex 2 (k * b.pointCount + u) = k := by
  rw [pointIndex_eq, pointRadix_prism]
  refine (Radix.digit_push_last _ _ _).trans ?_
  rw [← stride_eq, ← pointCount, block_div hu]
  exact Nat.mod_eq_of_lt (Nat.lt_succ_of_le hk)

theorem cellIndex_prism (b : Box K 2) (layers : Nat) (height : K) (k i : Nat) (a : Fin 2) :
    (b.prism layers height).cellIndex a.castSucc (k * b.cellCount + i) = b.cellIndex a i := by
  rw [Nat.add_comm]
  exact (Radix.digit_push_castSucc _ _ _ a).trans
    (Radix.digit_add_mul_weight b.repetitions a.isLt (Nat.le_refl 2) i k)

theorem cellIndex_prism_last (hi : i < b.cellCount) (hk : k < layers) :
    (b.prism layers height).cellIndex 2 (k * b.cellCount + i) = k := by
  refine (Radix.digit_push_last b.repetitions layers _).trans ?_
  have hblock : (k * b.cellCount + i) / Radix.weight b.repetitions 2 = k := block_div hi
  rw [hblock, Nat.mod_eq_of_lt hk]

/-! ## Cells -/

theorem cornerNumber_prism (hi : i < b.cellCount) (hk : k < layers) (v : Corner 3) :
    (b.prism layers height).cornerNumber (k * b.cellCount + i) v =
      (k + (v.high 2).toNat) * b.pointCount + b.cornerNumber i v.base := by
  rw [cornerNumber_eq, cornerNumber_eq, pointAt, pointAt, pointRadix_prism]
  refine (Radix.number_push _ _ _).trans ?_
  rw [pointCount, stride_eq, Nat.add_comm]
  congr 2
  · show (b.prism layers height).cellIndex 2 _ + _ = _
    rw [cellIndex_prism_last hi hk]
    rfl
  · funext a
    rw [cellIndex_prism, v.high_base]
    rfl

theorem cell_prism (hi : i < b.cellCount) (hk : k < layers) (colored : Bool) :
    (b.prism layers height).cell (k * b.cellCount + i) =
      (b.mesh colored).hexahedron k (b.cell i) := by
  refine Vector.ext fun j hj => ?_
  show Vector.get _ (⟨j, hj⟩ : Corner 3) = Vector.get _ (⟨j, hj⟩ : Corner 3)
  rw [get_cell, cornerNumber_prism hi hk, Mesh.get_hexahedron, Mesh.layered, size_vertices_mesh,
    get_cell]

theorem cells_prism (b : Box K 2) (layers : Nat) (height : K) (colored : Bool) :
    ((b.prism layers height).mesh colored).cells =
      (List.range layers).flatMap fun k =>
        (b.mesh colored).cells.map ((b.mesh colored).hexahedron k) := by
  rw [cells_mesh, cells_mesh, cellCount_prism, map_range_blocks]
  refine List.flatMap_congr fun k hk => ?_
  rw [List.map_map]
  exact List.map_congr_left fun i hi =>
    cell_prism (List.mem_range.mp hi) (List.mem_range.mp hk) colored

/-! ## Boundary -/

theorem cellsApart_mesh (b : Box K 2) (colored : Bool) : (b.mesh colored).CellsApart := by
  have hkey {i : Nat} (hi : i < b.cellCount) :
      Key.ofList (b.cell i).toList = b.piece fun a => 2 * b.cellIndex a i + 1 := by
    rw [← Cell.latticeKey_rev _ (Corner.low 2), latticeKey_cell hi]
    congr 1
    funext a
    rw [latticeDigit_childPoint, Corner.high_rev]
    cases (Corner.low 2).high a <;> rfl
  have hle {i : Nat} (hi : i < b.cellCount) (a : Fin 2) :
      2 * b.cellIndex a i + 1 ≤ 2 * b.repetitions.get a := by
    have hindex := cellIndex_lt hi a
    omega
  rw [Mesh.CellsApart, cells_mesh, List.map_map]
  refine List.Nodup.map_on (fun i hi j hj he => ?_) List.nodup_range
  rw [List.mem_range] at hi hj
  rw [Function.comp_apply, Function.comp_apply, hkey hi, hkey hj] at he
  refine ext_cellIndex hi hj fun a => ?_
  have ha := congrFun (piece_inj (hle hi) (hle hj) he) a
  omega

/-- The sides of a plane box have the colors zero to three. -/
theorem maxIndicator_mesh (h : ∀ a, 0 < b.repetitions.get a) : (b.mesh true).maxIndicator = 3 := by
  have hx (a : Fin 2) : b.repetitions.get a - 1 < b.repetitions.get a := Nat.sub_one_lt_of_lt (h a)
  have hlast : (⟨⟨b.cellAt fun a => b.repetitions.get a - 1, 3⟩, 3⟩ : BoundaryFace) ∈
      (b.mesh true).boundaryFaces := by
    have hend : b.AtEnd (b.cellAt fun a => b.repetitions.get a - 1) 3 := by
      intro a _
      have ha := h a
      rw [cellIndex_cellAt hx]
      omega
    exact mem_boundaryFaces_mesh.mpr ⟨cellAt_lt hx, (by decide : 3 < 4), hend, rfl⟩
  have hle : 3 ≤ (b.mesh true).maxIndicator := Mesh.le_maxIndicator hlast
  rcases (b.mesh true).maxIndicator_attained with hzero | ⟨x, hx, hmax⟩
  · rw [hzero] at hle
    exact absurd hle (by decide)
  · obtain ⟨-, hface, -, hindicator⟩ := mem_boundaryFaces_mesh.mp hx
    replace hindicator : x.indicator = x.face.toUInt32 := hindicator
    replace hface : x.face < 4 := hface
    rw [← hmax, hindicator] at hle ⊢
    clear hmax hindicator hx
    generalize x.face = f at hface hle ⊢
    interval_cases f <;> revert hle <;> decide

theorem AtEnd.prism {f : Nat} (hend : b.AtEnd i f) (hf : f < 4) :
    (b.prism layers height).AtEnd (k * b.cellCount + i) f := by
  intro a ha
  have hlow : a.val < 2 := by omega
  have hplane := hend ⟨a, hlow⟩ ha
  rw [← cellIndex_prism b layers height k] at hplane
  refine hplane.trans (congrArg _ ?_)
  exact (Vector.getElem_push_lt hlow).symm

theorem atEnd_prism_bottom (hi : i < b.cellCount) (hlayers : 0 < layers) :
    (b.prism layers height).AtEnd i 4 := by
  intro a ha
  obtain rfl : a = 2 := Fin.ext ha
  have hindex : (b.prism layers height).cellIndex 2 (0 * b.cellCount + i) = 0 :=
    cellIndex_prism_last hi hlayers
  rw [Nat.zero_mul, Nat.zero_add] at hindex
  rw [hindex]
  omega

theorem atEnd_prism_top (hi : i < b.cellCount) (hlayers : 0 < layers) :
    (b.prism layers height).AtEnd ((layers - 1) * b.cellCount + i) 5 := by
  intro a ha
  obtain rfl : a = 2 := Fin.ext ha
  have hlast : (b.prism layers height).repetitions.get 2 = layers := Vector.getElem_push_eq
  rw [cellIndex_prism_last hi (by omega), hlast]
  omega

theorem boundaryFaces_prism (h : ∀ a, 0 < b.repetitions.get a) (hlayers : 0 < layers)
    {m : Mesh K 3} (hm : (b.mesh true).Extrudes (layers + 1) m) :
    ∀ x ∈ m.boundaryFaces, x ∈ ((b.prism layers height).mesh true).boundaryFaces := by
  have hcell {k i : Nat} (hk : k < layers) (hi : i < b.cellCount) :
      k * b.cellCount + i < (b.prism layers height).cellCount := by
    rw [cellCount_prism]
    exact block_lt hk hi
  have hsub : layers + 1 - 2 = layers - 1 := by omega
  intro x hx
  rw [hm.mem_boundaryFaces (b.cellsValid_mesh true) (b.cellsApart_mesh true) (by omega),
    maxIndicator_mesh h, length_cells_mesh, hsub] at hx
  rw [mem_boundaryFaces_mesh]
  rcases hx with ⟨f, hf, k, hk, rfl⟩ | ⟨i, hi, rfl⟩ | ⟨i, hi, rfl⟩
  · obtain ⟨hi, hface, hend, hindicator⟩ := mem_boundaryFaces_mesh.mp hf
    exact ⟨hcell hk hi, Nat.lt_trans hface (by decide), hend.prism hface, hindicator⟩
  · have hlt := hcell hlayers hi
    rw [Nat.zero_mul, Nat.zero_add] at hlt
    exact ⟨hlt, (by decide : 4 < 6), atEnd_prism_bottom hi hlayers, rfl⟩
  · exact ⟨hcell (Nat.sub_one_lt_of_lt hlayers) hi, (by decide : 5 < 6),
      atEnd_prism_top hi hlayers, rfl⟩

end Prism

/-! ## The extruded mesh -/

variable [Field K] [LinearOrder K] {height : K}

theorem point_prism (hu : u < b.pointCount) (hk : k ≤ layers) :
    (b.prism layers height).point (k * b.pointCount + u) =
      .xyz (b.point u).abscissa (b.point u).ordinate (height * (k : K) / (layers : K)) := by
  have hplane (a : Fin 2) :
      ((b.prism layers height).point (k * b.pointCount + u)).coords.get a.castSucc =
        (b.point u).coords.get a := by
    have hrepetitions : (b.prism layers height).repetitions.get a.castSucc = b.repetitions.get a :=
      Vector.getElem_push_lt a.isLt
    rw [get_point, get_point, pointIndex_prism, hrepetitions]
    match a with
    | 0 => rfl
    | 1 => rfl
  refine Point.ext_get fun a => ?_
  match a with
  | 0 => exact hplane 0
  | 1 => exact hplane 1
  | 2 =>
    have hlast : (b.prism layers height).repetitions.get 2 = layers := Vector.getElem_push_eq
    rw [get_point, pointIndex_prism_last hu hk, hlast]
    show ((0 : Nat) : K) + (height - ((0 : Nat) : K)) * _ / _ = height * _ / _
    rw [Nat.cast_zero, zero_add, sub_zero]

theorem vertices_prism (b : Box K 2) (layers : Nat) (height : K) (colored : Bool) :
    ((b.prism layers height).mesh colored).vertices =
      ((List.range (layers + 1)).flatMap fun k : Nat =>
        (b.mesh colored).vertices.toList.map fun p => Point.xyz p.abscissa p.ordinate
          (height * (k : K) / (layers : K))).toArray := by
  have hrange (n : Nat) {d : Nat} (f : Nat → Point K d) :
      (Array.range n).map f = ((List.range n).map f).toArray := by
    rw [← List.toArray_range, List.map_toArray]
  rw [vertices_mesh, vertices_mesh, hrange, hrange, pointCount_prism, map_range_blocks]
  refine congrArg List.toArray (List.flatMap_congr fun k hk => ?_)
  rw [List.map_map]
  exact List.map_congr_left fun u hu =>
    point_prism (List.mem_range.mp hu) (Nat.le_of_lt_succ (List.mem_range.mp hk))

theorem extrude_mesh (h : ∀ a, 0 < b.repetitions.get a) (hlayers : 0 < layers)
    (hheight : 0 < height) :
    (b.mesh true).extrude (layers + 1) height = .ok ((b.prism layers height).mesh true) := by
  have hpositive : ¬height ≤ ((0 : Nat) : K) := by
    rw [Nat.cast_zero]
    exact hheight.not_ge
  have hmax : (b.mesh true).maxIndicator.toNat + 2 < 2 ^ 32 := by
    rw [maxIndicator_mesh h]
    decide
  obtain ⟨m, hm, hextrudes, hvertices⟩ :=
    Mesh.exists_extrudes (Nat.succ_le_succ hlayers) hpositive hmax
  have hcells : m.cells = ((b.prism layers height).mesh true).cells := by
    rw [hextrudes.cells, cells_prism]
    rfl
  have hindicators : m.indicators = ((b.prism layers height).mesh true).indicators :=
    (hextrudes.indicatorsOuter (b.cellsValid_mesh true) (b.cellsApart_mesh true)
      (Nat.succ_le_succ hlayers)).indicators_eq (indicatorsOuter_mesh _) hcells
      (boundaryFaces_prism h hlayers hextrudes)
  have hsame : m.vertices = ((b.prism layers height).mesh true).vertices := by
    rw [hvertices, vertices_prism]
    rfl
  have hshapes : m.shapes = ((b.prism layers height).mesh true).shapes := by
    rw [hextrudes.shapes, shapes_mesh]
  rw [hm]
  obtain ⟨vertices, cells, indicators, shapes⟩ := m
  exact congrArg _ (Mesh.mk.injEq .. ▸ ⟨hsame, hcells, hindicators, hshapes⟩)

end Box

namespace Mesh

variable {K : Type} [Field K] [LinearOrder K] [IsStrictOrderedRing K]

/-- A colored rectangle that is extruded is the colored brick above it, with the same numbers of
vertices and cells and the same stored indicators. -/
theorem box_extrude {r₀ r₁ r₂ : Nat} (h₀ : 0 < r₀) (h₁ : 0 < r₁) (h₂ : 0 < r₂) {p q : Point K 2}
    (hx : p.abscissa ≠ q.abscissa) (hy : p.ordinate ≠ q.ordinate) {height : K}
    (hheight : 0 < height) :
    ∃ plane brick, box #v[r₀, r₁] p q true = .ok plane ∧
      box #v[r₀, r₁, r₂] (.xyz p.abscissa p.ordinate 0) (.xyz q.abscissa q.ordinate height) true =
        .ok brick ∧
      plane.extrude (r₂ + 1) height = .ok brick := by
  have hplane : ∀ a, 0 < (#v[r₀, r₁] : Vector Nat 2).get a
    | 0 => h₀
    | 1 => h₁
  have hbrick : ∀ a, 0 < (#v[r₀, r₁, r₂] : Vector Nat 3).get a
    | 0 => h₀
    | 1 => h₁
    | 2 => h₂
  have hplaneExtent : ∀ a, p.coords.get a ≠ q.coords.get a
    | 0 => hx
    | 1 => hy
  have hbrickExtent : ∀ a, (Point.xyz p.abscissa p.ordinate 0).coords.get a ≠
      (Point.xyz q.abscissa q.ordinate height).coords.get a
    | 0 => hx
    | 1 => hy
    | 2 => hheight.ne
  have hnonneg : ¬height < ((0 : Nat) : K) := by
    rw [Nat.cast_zero]
    exact hheight.le.not_gt
  refine ⟨_, _, box_eq (by decide) (by decide) hplane hplaneExtent true,
    box_eq (by decide) (by decide) hbrick hbrickExtent true, ?_⟩
  have hprism : (Box.ofCorners #v[r₀, r₁] p q).prism r₂ height = _ :=
    Box.prism_ofCorners r₀ r₁ p q hnonneg
  rw [Nat.cast_zero] at hprism
  rw [← hprism]
  exact Box.extrude_mesh hplane h₂ hheight

theorem box_extrude_slab :
    0 < 2 ∧ 0 < 3 ∧ 0 < 2 ∧
      (Point.xy 0 5 : Point ℚ 2).abscissa ≠ (Point.xy 1 2 : Point ℚ 2).abscissa ∧
      (Point.xy 0 5 : Point ℚ 2).ordinate ≠ (Point.xy 1 2 : Point ℚ 2).ordinate ∧
      (0 : ℚ) < 1 / 2 ∧
      ∃ plane brick, box #v[2, 3] (Point.xy 0 5 : Point ℚ 2) (.xy 1 2) true = .ok plane ∧
        box #v[2, 3, 2] (Point.xyz 0 5 0 : Point ℚ 3) (.xyz 1 2 (1 / 2)) true = .ok brick ∧
        plane.extrude 3 (1 / 2) = .ok brick := by
  have hx : (Point.xy 0 5 : Point ℚ 2).abscissa ≠ (Point.xy 1 2 : Point ℚ 2).abscissa := by
    decide +kernel
  have hy : (Point.xy 0 5 : Point ℚ 2).ordinate ≠ (Point.xy 1 2 : Point ℚ 2).ordinate := by
    decide +kernel
  have hheight : (0 : ℚ) < 1 / 2 := by norm_num
  exact ⟨by decide, by decide, by decide, hx, hy, hheight,
    box_extrude (by decide) (by decide) (by decide) hx hy hheight⟩

end Mesh
end HexMesh
