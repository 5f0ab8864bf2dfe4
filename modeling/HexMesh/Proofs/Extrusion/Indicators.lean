import HexMesh.Proofs.Extrusion.Boundary

/-!
Telling bottom, top and sides of an extruded mesh apart by their indicators.

Bottom and top get the two numbers after the largest indicator on the boundary of the plane
mesh, and the sides keep indicators up to that one, so that no two parts share an indicator.  An
indicator has 32 bits.  The two numbers are there as long as no boundary face has one of the two
largest indicators; otherwise there is no extruded mesh at all.

Different cells may have the same vertices here.  A face below two such cells is not on the
boundary, but it has been given an indicator like any other.
-/

namespace HexMesh

/-- The three parts of the boundary of an extruded mesh. -/
inductive SweptPart where
  | bottom
  | top
  | side
  deriving DecidableEq, Repr

namespace Mesh

variable {K : Type} {m : Mesh K 2} {m' : Mesh K 3} {slices : Nat} {p : SweptPart}
  {i j : Indicator}

/-- The faces of a part of the extruded mesh: those below the cells of the plane mesh, those
above them, and in each layer those above its boundary faces. -/
def sweptFaces (m : Mesh K 2) (slices : Nat) : SweptPart → List FaceRef
  | .bottom => (List.range m.cells.length).map fun c => ⟨c, 4⟩
  | .top => (List.range m.cells.length).map fun c =>
      FaceRef.inLayer ⟨c, 5⟩ m.cells.length (slices - 2)
  | .side => m.boundaryFaces.flatMap fun f => (List.range (slices - 1)).map fun k =>
      f.toFaceRef.inLayer m.cells.length k

/-- Some face of this part has the indicator in the second mesh. -/
def Gives (m : Mesh K 2) (slices : Nat) (m' : Mesh K 3) (p : SweptPart) (i : Indicator) : Prop :=
  ∃ r ∈ m.sweptFaces slices p, ∃ k, m'.HasFace r k ∧ m'.indicator k = i

/-- No indicator is given to faces of two different parts. -/
def PartsApart (m : Mesh K 2) (slices : Nat) (m' : Mesh K 3) : Prop :=
  ∀ p q, p ≠ q → ∀ i j, m.Gives slices m' p i → m.Gives slices m' q j → i ≠ j

/-! ## The faces of the parts -/

theorem mem_sweptFaces_bottom {r : FaceRef} :
    r ∈ m.sweptFaces slices .bottom ↔ ∃ c < m.cells.length, ⟨c, 4⟩ = r := by
  simp only [sweptFaces, List.mem_map, List.mem_range]

theorem mem_sweptFaces_top {r : FaceRef} :
    r ∈ m.sweptFaces slices .top ↔
      ∃ c < m.cells.length, FaceRef.inLayer ⟨c, 5⟩ m.cells.length (slices - 2) = r := by
  simp only [sweptFaces, List.mem_map, List.mem_range]

theorem mem_sweptFaces_side {r : FaceRef} :
    r ∈ m.sweptFaces slices .side ↔
      ∃ f ∈ m.boundaryFaces, ∃ k < slices - 1, f.toFaceRef.inLayer m.cells.length k = r := by
  simp only [sweptFaces, List.mem_flatMap, List.mem_map, List.mem_range]

/-- The face with this number of the hexahedron above a cell in some layer. -/
theorem Extrudes.hasFace_inLayer (h : m.Extrudes slices m') {k face n : Nat} {c : Cell 2}
    (hk : k < slices - 1) (hface : face < 6) (hc : m.cells[n]? = some c) :
    m'.HasFace (FaceRef.inLayer ⟨n, face⟩ m.cells.length k) ((m.hexahedron k c).faceKey face) :=
  h.hasFace_iff.mpr ⟨k, hk, ⟨n, face⟩, c, hc, hface, rfl, rfl⟩

/-- The parts make up the boundary: a lower or upper face in the middle has an owner on
either side. -/
theorem Extrudes.exists_part_of_isOuter (h : m.Extrudes slices m') (hm : m.CellsValid)
    {r : FaceRef} {key : Key} (houter : m'.IsOuter r key) : ∃ p, r ∈ m.sweptFaces slices p := by
  obtain ⟨k, hk, ⟨n, face⟩, c, hc, hlt, rfl, rfl⟩ := h.hasFace_iff.mp houter.1
  have hn : n < m.cells.length := (List.getElem?_eq_some_iff.mp hc).1
  rcases m.faceKey_hexahedron k c hlt with ⟨hside, hkey⟩ | ⟨rfl, hkey⟩ | ⟨rfl, hkey⟩
  · have he : m.HasFace ⟨n, face⟩ (c.faceKey face) := ⟨c, hc, hside, rfl⟩
    replace hkey : (m.hexahedron k c).faceKey face = Key.ofList (m.lateral k (c.faceKey face)) :=
      hkey
    obtain ⟨t, ht, hsame⟩ := (h.isOuter_lateral hm hk he).mp (hkey ▸ houter)
    obtain ⟨-, rfl⟩ := FaceRef.inLayer_inj he.cell_lt ht.1.cell_lt hsame
    exact ⟨.side, mem_sweptFaces_side.mpr
      ⟨⟨_, m.indicator (c.faceKey face)⟩, Mesh.mem_boundaryFaces.mpr ⟨_, ht, rfl⟩, k, hk, rfl⟩⟩
  · have hzero : k = 0 := by
      by_contra hne
      have hbelow := h.hasFace_inLayer (k := k - 1) (by omega) (by decide : 5 < 6) hc
      rw [faceKey_hexahedron_upper, Nat.sub_add_cancel (Nat.pos_of_ne_zero hne),
        ← faceKey_hexahedron_lower] at hbelow
      have hface := congrArg FaceRef.face (houter.2 _ hbelow)
      simp [FaceRef.inLayer] at hface
    subst hzero
    exact ⟨.bottom, mem_sweptFaces_bottom.mpr ⟨n, hn, by simp [FaceRef.inLayer]⟩⟩
  · have hlast : k = slices - 2 := by
      by_contra hne
      have habove := h.hasFace_inLayer (k := k + 1) (by omega) (by decide : 4 < 6) hc
      rw [faceKey_hexahedron_lower, ← faceKey_hexahedron_upper] at habove
      have hface := congrArg FaceRef.face (houter.2 _ habove)
      simp [FaceRef.inLayer] at hface
    subst hlast
    exact ⟨.top, mem_sweptFaces_top.mpr ⟨n, hn, rfl⟩⟩

/-! ## The indicators of the parts -/

/-- A part all of whose faces have one indicator gives that one only. -/
theorem gives_iff_of_forall (hne : m.sweptFaces slices p ≠ [])
    (hall : ∀ r ∈ m.sweptFaces slices p, ∃ k, m'.HasFace r k ∧ m'.indicator k = j) :
    m.Gives slices m' p i ↔ i = j := by
  constructor
  · intro h
    obtain ⟨r, hr, k, hk, rfl⟩ := h
    obtain ⟨l, hl, hvalue⟩ := hall r hr
    rw [hk.key_eq hl, hvalue]
  · intro h
    obtain ⟨r, hr⟩ := List.exists_mem_of_ne_nil _ hne
    exact ⟨r, hr, h ▸ hall r hr⟩

theorem Extrudes.gives_bottom (h : m.Extrudes slices m') (hm : m.CellsValid)
    (hslices : 2 ≤ slices) (hcells : m.cells ≠ []) :
    m.Gives slices m' .bottom i ↔ i = m.maxIndicator + 1 := by
  refine gives_iff_of_forall (by simpa [sweptFaces] using hcells) fun r hr => ?_
  obtain ⟨n, hn, rfl⟩ := mem_sweptFaces_bottom.mp hr
  have hc := List.getElem?_eq_getElem hn
  have hface := h.hasFace_inLayer (k := 0) (by omega) (by decide : 4 < 6) hc
  rw [faceKey_hexahedron_lower, FaceRef.inLayer, Nat.zero_mul, Nat.zero_add] at hface
  exact ⟨_, hface, h.indicator_bottom hm (List.mem_of_getElem? hc)⟩

theorem Extrudes.gives_top (h : m.Extrudes slices m') (hm : m.CellsValid)
    (hslices : 2 ≤ slices) (hcells : m.cells ≠ []) :
    m.Gives slices m' .top i ↔ i = m.maxIndicator + 2 := by
  refine gives_iff_of_forall (by simpa [sweptFaces] using hcells) fun r hr => ?_
  obtain ⟨n, hn, rfl⟩ := mem_sweptFaces_top.mp hr
  have hc := List.getElem?_eq_getElem hn
  have hface := h.hasFace_inLayer (k := slices - 2) (by omega) (by decide : 5 < 6) hc
  rw [faceKey_hexahedron_upper] at hface
  exact ⟨_, hface, h.indicator_top hm (List.mem_of_getElem? hc)⟩

/-- A side keeps the indicator of the edge below it. -/
theorem Extrudes.gives_side (h : m.Extrudes slices m') (hm : m.CellsValid)
    (hslices : 2 ≤ slices) :
    m.Gives slices m' .side i ↔ ∃ f ∈ m.boundaryFaces, f.indicator = i := by
  have hgiven {f : BoundaryFace} (hf : f ∈ m.boundaryFaces) {k : Nat} (hk : k < slices - 1) :
      ∃ key, m'.HasFace (f.toFaceRef.inLayer m.cells.length k) key ∧
        m'.indicator key = f.indicator := by
    obtain ⟨e, he, hvalue⟩ := Mesh.mem_boundaryFaces.mp hf
    refine ⟨Key.ofList (m.lateral k e), ?_, ?_⟩
    · exact (h.hasFace_lateral hm hk he.1).mpr ⟨_, he.1, rfl⟩
    · rw [h.indicator_lateral hm hk he, hvalue]
  constructor
  · intro hgives
    obtain ⟨r, hr, key, hkey, rfl⟩ := hgives
    obtain ⟨f, hf, k, hk, rfl⟩ := mem_sweptFaces_side.mp hr
    obtain ⟨own, hface, hvalue⟩ := hgiven hf hk
    exact ⟨f, hf, by rw [hkey.key_eq hface, hvalue]⟩
  · intro hboundary
    obtain ⟨f, hf, rfl⟩ := hboundary
    have hk : 0 < slices - 1 := by omega
    exact ⟨_, mem_sweptFaces_side.mpr ⟨f, hf, 0, hk, rfl⟩, hgiven hf hk⟩

/-! ## The two numbers after the largest indicator -/

/-- Whether there are two larger numbers is decided by the boundary faces. -/
theorem maxIndicator_add_two_lt_iff :
    m.maxIndicator.toNat + 2 < 2 ^ 32 ↔ ∀ f ∈ m.boundaryFaces, f.indicator.toNat + 2 < 2 ^ 32 := by
  constructor
  · intro hmax f hf
    have hle := UInt32.le_iff_toNat_le.mp (le_maxIndicator hf)
    omega
  · intro hall
    rcases m.maxIndicator_attained with hzero | ⟨f, hf, hmax⟩
    · rw [hzero]
      decide
    · exact hmax ▸ hall f hf

theorem eq_add_iff {n : Indicator} (h : i.toNat + n.toNat < 2 ^ 32) :
    j = i + n ↔ j.toNat = i.toNat + n.toNat := by
  rw [← UInt32.toNat_inj, UInt32.toNat_add, Nat.mod_eq_of_lt h]

/-- The sides keep to the indicators up to the largest one, and bottom and top have two different
numbers beyond it.  So an indicator tells the part. -/
theorem partsApart_of_gives
    (hside : ∀ i, m.Gives slices m' .side i ↔ ∃ f ∈ m.boundaryFaces, f.indicator = i)
    (hbottom : ∀ i, m.Gives slices m' .bottom i ↔ i.toNat = m.maxIndicator.toNat + 1)
    (htop : ∀ i, m.Gives slices m' .top i ↔ i.toNat = m.maxIndicator.toNat + 2) :
    m.PartsApart slices m' := by
  rintro p q hpq i j hi hj rfl
  have hpart (p : SweptPart) (h : m.Gives slices m' p i) :
      p = if i.toNat ≤ m.maxIndicator.toNat then .side
        else if i.toNat = m.maxIndicator.toNat + 1 then .bottom else .top := by
    cases p with
    | bottom => simp [(hbottom i).mp h]
    | top => simp [(htop i).mp h]
    | side =>
      obtain ⟨f, hf, rfl⟩ := (hside i).mp h
      rw [if_pos (UInt32.le_iff_toNat_le.mp (le_maxIndicator hf))]
  exact hpq ((hpart p hi).trans (hpart q hj).symm)

/-- The indicators of an extruded mesh.  It exists exactly if no boundary face of the plane mesh
has one of the two largest indicators there are, and its parts make up its boundary.  Bottom and
top have the two numbers after the largest indicator of the plane mesh, the sides have the
indicators of the edges below them, and no two parts share one. -/
theorem extrude_partsApart [Scalar K] {height : K} (hm : m.CellsValid) (hcells : m.cells ≠ [])
    (hslices : 2 ≤ slices) (hheight : ¬height ≤ ((0 : Nat) : K)) :
    ((∃ m', m.extrude slices height = .ok m') ↔
      ∀ f ∈ m.boundaryFaces, f.indicator.toNat + 2 < 2 ^ 32) ∧
    (∀ f ∈ m.boundaryFaces, 2 ^ 32 ≤ f.indicator.toNat + 2 →
      m.extrude slices height = .error (.indicatorOverflow m.maxIndicator.toNat)) ∧
    ∀ m', m.extrude slices height = .ok m' →
      (∀ r key, m'.IsOuter r key → ∃ p, r ∈ m.sweptFaces slices p) ∧
      (∀ i, m.Gives slices m' .side i ↔ ∃ f ∈ m.boundaryFaces, f.indicator = i) ∧
      (∀ i, m.Gives slices m' .bottom i ↔ i.toNat = m.maxIndicator.toNat + 1) ∧
      (∀ i, m.Gives slices m' .top i ↔ i.toNat = m.maxIndicator.toNat + 2) ∧
      m.PartsApart slices m' := by
  refine ⟨(exists_extrude_iff hslices hheight).trans maxIndicator_add_two_lt_iff,
    fun f hf hlarge => extrude_overflow hslices hheight ?_, fun m' hm' => ?_⟩
  · by_contra hmax
    exact absurd hlarge (Nat.not_le.mpr (maxIndicator_add_two_lt_iff.mp (Nat.not_le.mp hmax) f hf))
  · obtain ⟨-, -, hmax⟩ := bounds_of_extrude hm'
    obtain ⟨-, h, -⟩ := extrudes_of_extrude hm'
    have hside (i : Indicator) :
        m.Gives slices m' .side i ↔ ∃ f ∈ m.boundaryFaces, f.indicator = i :=
      h.gives_side hm hslices
    have hbottom (i : Indicator) :
        m.Gives slices m' .bottom i ↔ i.toNat = m.maxIndicator.toNat + 1 :=
      (h.gives_bottom hm hslices hcells).trans (eq_add_iff (Nat.lt_of_succ_lt hmax))
    have htop (i : Indicator) : m.Gives slices m' .top i ↔ i.toNat = m.maxIndicator.toNat + 2 :=
      (h.gives_top hm hslices hcells).trans (eq_add_iff hmax)
    exact ⟨fun r key => h.exists_part_of_isOuter hm, hside, hbottom, htop,
      partsApart_of_gives hside hbottom htop⟩

/-- The largest indicator of the strip is the largest one after which there are two more. -/
theorem extrude_partsApart_strip :
    stripWithTip.CellsValid ∧ stripWithTip.cells ≠ [] ∧ 2 ≤ 3 ∧
      ¬(5 / 2 : ℚ) ≤ ((0 : Nat) : ℚ) ∧
      ∃ m' : Mesh ℚ 3, stripWithTip.extrude 3 (5 / 2) = .ok m' ∧ stripWithTip.PartsApart 3 m' ∧
        stripWithTip.Gives 3 m' .side 7 ∧ stripWithTip.Gives 3 m' .top 4294967295 := by
  have hm : stripWithTip.CellsValid := by decide +kernel
  have hcells : stripWithTip.cells ≠ [] := by decide +kernel
  have hheight : ¬(5 / 2 : ℚ) ≤ ((0 : Nat) : ℚ) := by norm_num
  obtain ⟨hexists, -, hparts⟩ := extrude_partsApart hm hcells (show 2 ≤ 3 by decide) hheight
  obtain ⟨m', hm'⟩ := hexists.mpr (by decide +kernel)
  obtain ⟨-, hside, -, htop, hapart⟩ := hparts m' hm'
  refine ⟨hm, hcells, by decide, hheight, m', hm', hapart, ?_, ?_⟩
  · exact (hside 7).mpr ⟨⟨⟨0, 0⟩, 7⟩, by decide +kernel, rfl⟩
  · exact (htop 4294967295).mpr (by decide +kernel)

/-- A square whose left side has the largest indicator but one. -/
def squareNearLimit : Mesh ℚ 2 :=
  { vertices := #[.xy 1 1, .xy 0 1, .xy 1 0, .xy 0 0]
    cells := [#v[3, 2, 1, 0]]
    indicators := KeyMap.ofEntries [([1, 3], 4294967294)] }

/-- There is one indicator for the bottom, but no other one for the top. -/
theorem extrude_squareNearLimit :
    squareNearLimit.CellsValid ∧ squareNearLimit.cells ≠ [] ∧
      squareNearLimit.maxIndicator = 4294967294 ∧
      squareNearLimit.extrude 2 1 = .error (.indicatorOverflow 4294967294) := by
  have hmax : squareNearLimit.maxIndicator = 4294967294 := by decide +kernel
  have hfault := extrude_overflow (m := squareNearLimit) (le_refl 2)
    (show ¬(1 : ℚ) ≤ ((0 : Nat) : ℚ) by norm_num) (hmax ▸ by decide)
  rw [hmax] at hfault
  exact ⟨by decide +kernel, by decide +kernel, hmax, hfault⟩

end Mesh
end HexMesh
