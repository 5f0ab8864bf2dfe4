import Mathlib.Algebra.Order.BigOperators.Ring.Finset
import HexMesh.Host.Session
import HexMesh.Proofs.Box.Tiling
import HexMesh.Proofs.Mesh.Constructions
import HexMesh.Proofs.Msh.Safety
import HexMesh.Proofs.Picture.Lines
import HexMesh.Tour.Run

/-!
Every mesh of the tour can be drawn.

A drawing fails only where there is no edge, and a mesh of positive dimension that has a cell
has an edge.  So the question is whether a step can make a mesh without cells.  No construction
takes the last cell away, the constructions that start from nothing put cells in, and a file
without cells is not accepted.  What the coordinates are plays no part: a picture may be drawn
badly, but it is drawn.  That each end of a stroke is a vertex is all that is needed for the
picture to show the mesh.
-/

namespace HexMesh

open HexMesh.Cube

theorem Box.repetitions_pos_of_fault? {K : Type} {d : Nat} [Scalar K] {b : Box K d}
    (h : b.fault? = none) (a : Fin d) : 0 < b.repetitions.get a := by
  unfold Box.fault? at h
  split at h
  · cases h
  next hfind =>
    have ha := List.find?_eq_none.mp hfind a (List.mem_finRange a)
    exact Nat.pos_of_ne_zero fun hzero => ha (beq_iff_eq.mpr hzero)

namespace Mesh

variable {K : Type} {d : Nat} {m : Mesh K d}

/-! ## Cells -/

section Cells

variable [Scalar K]

theorem cells_ne_nil_of_box {repetitions : Vector Nat d} {p q : Point K d} {colorize : Bool}
    (h : box repetitions p q colorize = .ok m) : m.cells ≠ [] := by
  obtain ⟨hfault, rfl⟩ := Box.of_box_eq_ok h
  refine List.ne_nil_of_length_pos ?_
  rw [Box.length_cells_mesh, Box.cellCount_eq]
  exact Finset.prod_pos fun a _ => Box.repetitions_pos_of_fault? hfault a

omit [Scalar K] in
theorem cells_foldl_setFaceIndicator (cells : List (Cell 2)) (m : Mesh K 2) :
    (cells.foldl (fun m c => (m.setFaceIndicator c 0 1).setFaceIndicator c 1 0) m).cells =
      m.cells :=
  List.foldlRecOn cells _ (motive := fun m' : Mesh K 2 => m'.cells = m.cells) rfl
    fun _ h _ _ => h

theorem cells_ne_nil_of_squareWithHole [Transcendental K] {inner outer : K} {m : Mesh K 2}
    (h : squareWithHole inner outer = .ok m) : m.cells ≠ [] := by
  unfold squareWithHole at h
  split at h
  · cases h
    rw [cells_foldl_setFaceIndicator]
    exact List.cons_ne_nil _ _
  · cases h

theorem cells_ne_nil_of_extrude {m : Mesh K 2} {slices : Nat} {height : K} {m' : Mesh K 3}
    (hm : m.cells ≠ []) (h : m.extrude slices height = .ok m') : m'.cells ≠ [] := by
  obtain ⟨hslices, hextrudes, -⟩ := extrudes_of_extrude h
  refine List.ne_nil_of_length_pos ?_
  rw [hextrudes.length_cells]
  exact Nat.mul_pos (by omega) (List.length_pos_of_ne_nil hm)

theorem cells_ne_nil_of_merge [SquareRoot K] {a b : Mesh K d} (ha : a.cells ≠ [])
    (h : a.merge b = .ok m) : m.cells ≠ [] := by
  rw [merge_eq, bind_eq_ok_iff] at h
  obtain ⟨⟨glued, n⟩, hglued, hm⟩ := h
  cases hm
  obtain ⟨f, hidentifies⟩ := identifies_deduplicate hglued
  show glued.cells ≠ []
  rw [hidentifies.cells]
  intro hnil
  exact ha (List.append_eq_nil_iff.mp (List.map_eq_nil_iff.mp hnil)).1

theorem cells_ne_nil_refine (hm : m.cells ≠ []) (n : Nat) : (m.refine n).cells ≠ [] := by
  refine List.ne_nil_of_length_pos ?_
  rw [length_cells_refine]
  exact Nat.mul_pos (Nat.pow_pos (Nat.two_pow_pos d)) (List.length_pos_of_ne_nil hm)

end Cells

/-- Cells, and vertices for all their corners: what a drawing needs. -/
structure Drawable (m : Mesh K d) : Prop where
  wellFormed : m.WellFormed
  cells_ne_nil : m.cells ≠ []

theorem Drawable.of_vertices (h : m.Drawable) {vertices : Array (Point K d)}
    (hsize : vertices.size = m.vertices.size) : ({ m with vertices } : Mesh K d).Drawable :=
  ⟨h.wellFormed.of_vertices hsize, h.cells_ne_nil⟩

end Mesh

/-! ## The steps -/

namespace Tour

section Meshes

variable {K : Type} [Scalar K] {m : Mesh K 2}

theorem drawable_of_strip {columns rows : Nat} {corner : Point K 2}
    (h : strip columns rows corner = .ok m) : m.Drawable :=
  ⟨Mesh.wellFormed_box h, Mesh.cells_ne_nil_of_box h⟩

theorem drawable_of_distortedSquare [SquareRoot K] {distortion : Distortion K}
    {words : WordStream} (h : distortedSquare distortion words = .ok m) : m.Drawable := by
  obtain ⟨square, hsquare, h⟩ := bind_eq_ok_iff.mp h
  cases h
  obtain ⟨vertices, hsize, hdistort⟩ := square.exists_distort distortion.factor
    distortion.keepBoundary words
  rw [hdistort]
  exact (drawable_of_strip hsquare).of_vertices hsize

theorem drawable_raiseTopEdge (h : m.Drawable) : (raiseTopEdge m).Drawable := by
  obtain ⟨vertices, hsize, hraise⟩ := Mesh.exists_foldl_modifyVertex id (fun _ => raise)
    (m.cells.flatMap Vector.toList) m
  have hraise : raiseTopEdge m = { m with vertices } := hraise
  rw [hraise]
  exact h.of_vertices hsize

variable [Transcendental K]

theorem drawable_of_plate (h : plate = .ok m) : m.Drawable :=
  ⟨Mesh.wellFormed_squareWithHole h, Mesh.cells_ne_nil_of_squareWithHole h⟩

theorem drawable_of_flag [SquareRoot K] (h : flag = .ok m) : m.Drawable := by
  obtain ⟨pole, hpole, h⟩ := bind_eq_ok_iff.mp h
  obtain ⟨cloth, hcloth, h⟩ := bind_eq_ok_iff.mp h
  have hpole := drawable_of_plate hpole
  obtain ⟨glued, hglued, hwell⟩ := Mesh.exists_merge hpole.wellFormed (Mesh.wellFormed_box hcloth)
  cases hglued.symm.trans h
  exact ⟨hwell, Mesh.cells_ne_nil_of_merge hpole.cells_ne_nil h⟩

theorem drawable_of_curvedPlate [SquareRoot K] (h : curvedPlate = .ok m) : m.Drawable := by
  obtain ⟨flat, hflat, h⟩ := bind_eq_ok_iff.mp h
  obtain rfl := Except.ok.inj h
  have hraised := drawable_raiseTopEdge (drawable_of_plate hflat)
  have hround := hraised.wellFormed.setShape 1 (.ball Point.origin holeRadius)
  have hcells : ((raiseTopEdge flat).setShape 1 (.ball Point.origin holeRadius)).cells ≠ [] :=
    hraised.cells_ne_nil
  exact ⟨hround.refine 2, Mesh.cells_ne_nil_refine hcells 2⟩

theorem drawable_of_block {m : Mesh K 3} (h : block = .ok m) : m.Drawable := by
  obtain ⟨flat, hflat, h⟩ := bind_eq_ok_iff.mp h
  obtain ⟨hwell, hcells⟩ := drawable_of_plate hflat
  exact ⟨Mesh.wellFormed_extrude hwell h, Mesh.cells_ne_nil_of_extrude hcells h⟩

theorem drawable_of_wavyStrip (h : wavyStrip = .ok m) : m.Drawable := by
  obtain ⟨flat, hflat, h⟩ := bind_eq_ok_iff.mp h
  cases h
  exact (drawable_of_strip hflat).of_vertices Array.size_map

theorem drawable_of_gradedSquare (h : gradedSquare = .ok m) : m.Drawable := by
  obtain ⟨square, hsquare, h⟩ := bind_eq_ok_iff.mp h
  cases h
  exact (drawable_of_strip hsquare).of_vertices Array.size_map

end Meshes

variable {K : Type}

/-- A mesh with the number of its axes, or what a step has to say in its place. -/
def shown {d : Nat} (fault : Fault K → StepFault K) (mesh : Except (Fault K) (Mesh K d)) :
    Except (StepFault K) ((d : Nat) × Mesh K d) :=
  (mesh.map (Sigma.mk d)).mapError fault

theorem drawable_of_shown {d : Nat} {fault : Fault K → StepFault K}
    {mesh : Except (Fault K) (Mesh K d)} (hd : 0 < d) (hmesh : ∀ m, mesh = .ok m → m.Drawable)
    {result : (d : Nat) × Mesh K d} (h : shown fault mesh = .ok result) :
    0 < result.1 ∧ result.2.Drawable := by
  cases mesh with
  | error e => cases h
  | ok m =>
    cases h
    exact ⟨hd, hmesh m rfl⟩

variable [Scalar K] [Numeral K] {σ : Type} [Storage σ]

/-- What reading a mesh from a file in some storage gives. -/
def readFrom (storage : σ) (path : String) : Except (Fault K) (Mesh K 2) :=
  match Storage.read storage path with
  | .ok bytes => Msh.read 2 bytes
  | .error refusal => .error (unreadable path refusal)

theorem drawable_of_readFrom {storage : σ} {path : String} {m : Mesh K 2}
    (h : readFrom storage path = .ok m) : m.Drawable := by
  unfold readFrom at h
  split at h
  · exact ⟨Mesh.wellFormed_read h, (Msh.reads_of_read (.inl rfl) h).cells_ne_nil⟩
  · cases h

variable [SquareRoot K] [Transcendental K]

/-- What making the mesh of a step gives.  Only the first step depends on the storage, and only
the last one on random words. -/
def meshOf (s : Settings K) (storage : σ) (words : WordStream) :
    Step → Except (StepFault K) ((d : Nat) × Mesh K d)
  | .loading => shown (.input s.input) (readFrom storage s.input)
  | .merging => shown .mesh flag
  | .curving => shown .mesh curvedPlate
  | .extruding => shown .mesh block
  | .bending => shown .mesh wavyStrip
  | .grading => shown .mesh gradedSquare
  | .distorting =>
    shown .mesh (distortedSquare s.distortion (s.seed.elim words Random.ofSeed))

variable {s : Settings K} {storage : σ} {words : WordStream} {step : Step}
  {result : (d : Nat) × Mesh K d}

theorem drawable_of_meshOf (h : meshOf s storage words step = .ok result) :
    0 < result.1 ∧ result.2.Drawable := by
  have hplane : 0 < 2 := by decide
  cases step with
  | loading => exact drawable_of_shown hplane (fun _ => drawable_of_readFrom) h
  | merging => exact drawable_of_shown hplane (fun _ => drawable_of_flag) h
  | curving => exact drawable_of_shown hplane (fun _ => drawable_of_curvedPlate) h
  | extruding => exact drawable_of_shown (by decide) (fun _ => drawable_of_block) h
  | bending => exact drawable_of_shown hplane (fun _ => drawable_of_wavyStrip) h
  | grading => exact drawable_of_shown hplane (fun _ => drawable_of_gradedSquare) h
  | distorting => exact drawable_of_shown hplane (fun _ => drawable_of_distortedSquare) h

/-- A step that has made its mesh can draw it, whatever the style, and the drawing is a picture of
the mesh. -/
theorem exists_draw_of_meshOf (h : meshOf s storage words step = .ok result) (style : Style K) :
    ∃ drawing, result.2.draw style = .ok drawing ∧ result.2.IsPicture style drawing.text :=
  have hmesh := drawable_of_meshOf h
  Mesh.exists_draw_isPicture hmesh.1 hmesh.2.wellFormed.cell_lt hmesh.2.cells_ne_nil style

end Tour
end HexMesh
