import HexMesh.Mesh.Box
import HexMesh.Proofs.Mesh.Cell
import HexMesh.Proofs.Number.Radix

/-!
The grid of a box.

Grid points and cells are decided by their places along the axes, and every choice of
places within the box is one of them.  Pieces of cells have places as well, counted in
half steps: even along an axis where the piece is flat, odd where it is stretched between
two grid points.  The key of a piece is a function of these places and determines them, so
it does not matter as a piece of which cell it is seen.
-/

namespace HexMesh

open HexMesh.Cube

namespace Box

variable {K : Type} {d : Nat} {b : Box K d}

/-! ## Grid points -/

/-- How many places there are for a grid point along each axis. -/
def pointRadix (b : Box K d) : Vector Nat d := b.repetitions.map (· + 1)

/-- The grid point at given places. -/
def pointAt (b : Box K d) (x : Fin d → Nat) : Nat := Radix.number b.pointRadix x

theorem get_pointRadix (b : Box K d) (a : Fin d) :
    b.pointRadix.get a = b.repetitions.get a + 1 := Vector.getElem_map _ a.isLt

theorem stride_eq (b : Box K d) (n : Nat) : b.stride n = Radix.weight b.pointRadix n := by
  rw [stride, Radix.weight, pointRadix, Vector.toList_map, ← List.map_take, List.foldl_map]

theorem pointIndex_eq (b : Box K d) (a : Fin d) (u : Nat) :
    b.pointIndex a u = Radix.digit b.pointRadix u a := by
  rw [pointIndex, Radix.digit, stride_eq, get_pointRadix]

theorem pointIndex_le (b : Box K d) (a : Fin d) (u : Nat) :
    b.pointIndex a u ≤ b.repetitions.get a :=
  Nat.le_of_lt_succ (Nat.mod_lt _ (Nat.succ_pos _))

theorem pointAt_lt {x : Fin d → Nat} (h : ∀ a, x a ≤ b.repetitions.get a) :
    b.pointAt x < b.pointCount := by
  rw [pointCount, stride_eq]
  exact Radix.number_lt fun a => b.get_pointRadix a ▸ Nat.lt_succ_of_le (h a)

theorem pointIndex_pointAt {x : Fin d → Nat} (h : ∀ a, x a ≤ b.repetitions.get a) (a : Fin d) :
    b.pointIndex a (b.pointAt x) = x a := by
  rw [pointIndex_eq]
  exact Radix.digit_number (fun a => b.get_pointRadix a ▸ Nat.lt_succ_of_le (h a)) a

theorem ext_pointIndex {u v : Nat} (hu : u < b.pointCount) (hv : v < b.pointCount)
    (h : ∀ a, b.pointIndex a u = b.pointIndex a v) : u = v := by
  rw [pointCount, stride_eq] at hu hv
  refine Radix.ext_digit hu hv fun a => ?_
  rw [← pointIndex_eq, ← pointIndex_eq]
  exact h a

/-! ## Cells -/

/-- The cell at given places. -/
def cellAt (b : Box K d) (x : Fin d → Nat) : Nat := Radix.number b.repetitions x

theorem cellIndex_lt {i : Nat} (hi : i < b.cellCount) (a : Fin d) :
    b.cellIndex a i < b.repetitions.get a := Radix.digit_lt hi a

theorem cellAt_lt {x : Fin d → Nat} (h : ∀ a, x a < b.repetitions.get a) :
    b.cellAt x < b.cellCount := Radix.number_lt h

theorem cellIndex_cellAt {x : Fin d → Nat} (h : ∀ a, x a < b.repetitions.get a) (a : Fin d) :
    b.cellIndex a (b.cellAt x) = x a := Radix.digit_number h a

theorem ext_cellIndex {i j : Nat} (hi : i < b.cellCount) (hj : j < b.cellCount)
    (h : ∀ a, b.cellIndex a i = b.cellIndex a j) : i = j := Radix.ext_digit hi hj h

theorem cornerNumber_eq (b : Box K d) (i : Nat) (v : Corner d) :
    b.cornerNumber i v = b.pointAt fun a => b.cellIndex a i + (v.high a).toNat := by
  rw [cornerNumber, pointAt, Radix.number]
  simp only [stride_eq]

theorem corner_le {i : Nat} (hi : i < b.cellCount) (v : Corner d) (a : Fin d) :
    b.cellIndex a i + (v.high a).toNat ≤ b.repetitions.get a :=
  Nat.le_trans (Nat.add_le_add_left (Bool.toNat_le _) _) (cellIndex_lt hi a)

theorem cornerNumber_lt {i : Nat} (hi : i < b.cellCount) (v : Corner d) :
    b.cornerNumber i v < b.pointCount := by
  rw [cornerNumber_eq]
  exact pointAt_lt (corner_le hi v)

theorem pointIndex_cornerNumber {i : Nat} (hi : i < b.cellCount) (v : Corner d) (a : Fin d) :
    b.pointIndex a (b.cornerNumber i v) = b.cellIndex a i + (v.high a).toNat := by
  rw [cornerNumber_eq]
  exact pointIndex_pointAt (corner_le hi v) a

theorem get_cell (b : Box K d) (i : Nat) (v : Corner d) :
    (b.cell i).get v = b.cornerNumber i v := Cell.get_ofFn _ v

theorem nodup_cell {i : Nat} (hi : i < b.cellCount) : (b.cell i).toList.Nodup := by
  refine Cell.nodup_of_get_injective fun v w he => Corner.ext_toNat fun a => ?_
  rw [get_cell, get_cell] at he
  have hindex := congrArg (b.pointIndex a) he
  rw [pointIndex_cornerNumber hi, pointIndex_cornerNumber hi] at hindex
  exact Nat.add_left_cancel hindex

/-! ## Pieces -/

/-- The grid points around given places in half steps. -/
def piece (b : Box K d) (y : Fin d → Nat) : Key :=
  (List.range b.pointCount).filter fun u =>
    (List.finRange d).all fun a => b.pointIndex a u == y a / 2 || b.pointIndex a u == (y a + 1) / 2

theorem mem_piece {y : Fin d → Nat} {u : Nat} :
    u ∈ b.piece y ↔
      u < b.pointCount ∧ ∀ a, b.pointIndex a u = y a / 2 ∨ b.pointIndex a u = (y a + 1) / 2 := by
  simp [piece, List.mem_filter]

theorem pairwise_piece (b : Box K d) (y : Fin d → Nat) : (b.piece y).Pairwise (· ≤ ·) :=
  List.pairwise_le_range.filter _

theorem nodup_piece (b : Box K d) (y : Fin d → Nat) : (b.piece y).Nodup :=
  List.nodup_range.filter _

/-- The lowest and the highest grid point of a piece tell its places. -/
theorem piece_inj {y z : Fin d → Nat} (hy : ∀ a, y a ≤ 2 * b.repetitions.get a)
    (hz : ∀ a, z a ≤ 2 * b.repetitions.get a) (h : b.piece y = b.piece z) : y = z := by
  have hends {y z : Fin d → Nat} (hy : ∀ a, y a ≤ 2 * b.repetitions.get a)
      (h : b.piece y = b.piece z) (a : Fin d) :
      (y a / 2 = z a / 2 ∨ y a / 2 = (z a + 1) / 2) ∧
        ((y a + 1) / 2 = z a / 2 ∨ (y a + 1) / 2 = (z a + 1) / 2) := by
    have hmem {x : Fin d → Nat} (hx : ∀ a, x a = y a / 2 ∨ x a = (y a + 1) / 2) :
        x a = z a / 2 ∨ x a = (z a + 1) / 2 := by
      have hbound : ∀ a, x a ≤ b.repetitions.get a := by
        intro a
        have hxa := hx a
        have hya := hy a
        omega
      have hpoint : b.pointAt x ∈ b.piece y := by
        refine mem_piece.mpr ⟨pointAt_lt hbound, fun a => ?_⟩
        rw [pointIndex_pointAt hbound]
        exact hx a
      rw [h, mem_piece] at hpoint
      have ha := hpoint.2 a
      rwa [pointIndex_pointAt hbound] at ha
    exact ⟨hmem fun _ => Or.inl rfl, hmem fun _ => Or.inr rfl⟩
  funext a
  have hyz := hends hy h a
  have hzy := hends hz h.symm a
  omega

/-- A piece of a cell lies two half steps up for each cell before, and one more for each
half of the cell. -/
theorem latticeKey_cell {i : Nat} (hi : i < b.cellCount) (p : Nat) :
    (b.cell i).latticeKey p = b.piece fun a => 2 * b.cellIndex a i + latticeDigit p a := by
  refine Key.eq_of_mem_iff (Cell.pairwise_key _ _) (b.pairwise_piece _)
    (Cell.nodup_latticeKey (nodup_cell hi) p) (b.nodup_piece _) fun u => ?_
  rw [Cell.mem_latticeKey, mem_piece]
  constructor
  · intro h
    obtain ⟨v, hv, rfl⟩ := h
    rw [get_cell]
    refine ⟨cornerNumber_lt hi v, fun a => ?_⟩
    rw [pointIndex_cornerNumber hi]
    rcases supports_iff.mp hv a with ha | ha
    · have hhigh := Bool.toNat_le (v.high a)
      omega
    · omega
  · intro h
    obtain ⟨hu, hindex⟩ := h
    have hlt := latticeDigit_lt p
    let v : Corner d := Corner.ofSides fun a => b.pointIndex a u - b.cellIndex a i
    have hv (a : Fin d) : b.cellIndex a i + (v.high a).toNat = b.pointIndex a u := by
      have ha := hindex a
      have hdigit := hlt a
      rw [Corner.toNat_high_ofSides (by omega)]
      omega
    refine ⟨v, supports_iff.mpr fun a => ?_, ?_⟩
    · have ha := hindex a
      have hdigit := hlt a
      have hva := hv a
      omega
    · rw [get_cell]
      refine ext_pointIndex (cornerNumber_lt hi v) hu fun a => ?_
      rw [pointIndex_cornerNumber hi, hv]

/-- Every place within the box is the place of a piece of some cell. -/
theorem exists_latticeKey (h : ∀ a, 0 < b.repetitions.get a) {y : Fin d → Nat}
    (hy : ∀ a, y a ≤ 2 * b.repetitions.get a) :
    ∃ i < b.cellCount, ∃ p < latticeCount d, (b.cell i).latticeKey p = b.piece y := by
  let x (a : Fin d) : Nat := min (y a / 2) (b.repetitions.get a - 1)
  have hx (a : Fin d) : x a < b.repetitions.get a := by
    have ha := h a
    show min _ _ < _
    omega
  have hdigit (a : Fin d) : y a - 2 * x a < 3 := by
    have ha := h a
    have hya := hy a
    show y a - 2 * min _ _ < 3
    omega
  refine ⟨b.cellAt x, cellAt_lt hx, ofDigits fun a => y a - 2 * x a, ofDigits_lt hdigit, ?_⟩
  rw [latticeKey_cell (cellAt_lt hx)]
  congr 1
  funext a
  rw [cellIndex_cellAt hx, latticeDigit_ofDigits hdigit]
  show 2 * min _ _ + (y a - 2 * min _ _) = y a
  omega

end Box
end HexMesh
