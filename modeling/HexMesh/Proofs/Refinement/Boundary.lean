import HexMesh.Mesh.Summary
import HexMesh.Proofs.Mesh.Boundary
import HexMesh.Proofs.Refinement.Conformity
import Mathlib.Data.List.Flatten
import Mathlib.Tactic.Ring

/-!
The boundary of a refined mesh.

A child's face is on the boundary exactly when it lies on a boundary face of its
parent, and then it has the indicator of that face.  Nothing of the boundary is
stored, so this compares two counts of keys: one direction needs that a child's face
shows where it lies, the other that neighboring parents divide a common face alike.
-/

namespace HexMesh

open HexMesh.Cube

variable {K : Type} {d : Nat} {m : Mesh K d}

/-- The face of a child with the same number as a face of its parent. -/
def FaceRef.child (r : FaceRef) (v : Corner d) : FaceRef := ⟨r.cell * cornerCount d + v, r.face⟩

theorem FaceRef.child_inj {r s : FaceRef} {v w : Corner d} (h : r.child v = s.child w) :
    r = s ∧ v = w := by
  obtain ⟨i, f⟩ := r
  obtain ⟨j, g⟩ := s
  obtain ⟨hcell, rfl⟩ := FaceRef.mk.inj h
  obtain ⟨hparent, hchild⟩ := block_inj v.isLt w.isLt hcell
  exact ⟨congrArg (FaceRef.mk · f) hparent, Fin.ext hchild⟩

/-- The same with the indicator that the child inherits. -/
def BoundaryFace.child (b : BoundaryFace) (v : Corner d) : BoundaryFace :=
  { b.toFaceRef.child v with indicator := b.indicator }

theorem BoundaryFace.child_inj {a b : BoundaryFace} {v w : Corner d}
    (h : a.child v = b.child w) : a = b ∧ v = w := by
  obtain ⟨r, i⟩ := a
  obtain ⟨s, j⟩ := b
  obtain ⟨href, rfl⟩ := BoundaryFace.mk.inj h
  obtain ⟨rfl, hvw⟩ := FaceRef.child_inj href
  exact ⟨rfl, hvw⟩

namespace Mesh

section Refined

variable [Scalar K]

theorem hasFace_refineOnce {r : FaceRef} {k : Key} :
    m.refineOnce.HasFace r k ↔
      ∃ (s : FaceRef) (v : Corner d) (c : Cell d), m.cells[s.cell]? = some c ∧
        s.face < faceCount d ∧ r = s.child v ∧ (m.childCell m.newKeys c v).faceKey s.face = k := by
  constructor
  · intro h
    obtain ⟨c', hc', hface, rfl⟩ := h
    obtain ⟨i, v, c, hc, hcell, rfl⟩ := exists_childCell hc'
    refine ⟨⟨i, r.face⟩, v, c, hc, hface, ?_, rfl⟩
    rw [FaceRef.child, hcell]
  · intro h
    obtain ⟨s, v, c, hc, hface, rfl, rfl⟩ := h
    refine ⟨m.childCell m.newKeys c v, ?_, hface, rfl⟩
    rw [FaceRef.child, getElem?_cells_refineOnce, hc]
    rfl

/-- A face of a child that lies on a boundary face of the parent is on the boundary. -/
theorem isOuter_childCell (hm : m.CellsValid) (hdistinct : m.CellsDistinct) {s : FaceRef}
    {v : Corner d} {c : Cell d} (hc : m.cells[s.cell]? = some c)
    (houter : m.IsOuter s (c.faceKey s.face)) (hv : onFace s.face v = true) :
    m.refineOnce.IsOuter (s.child v) ((m.childCell m.newKeys c v).faceKey s.face) := by
  have hs := houter.face_lt
  have hcmem : c ∈ m.cells := List.mem_of_getElem? hc
  refine ⟨hasFace_refineOnce.mpr ⟨s, v, c, hc, hs, rfl, rfl⟩, fun t ht => ?_⟩
  obtain ⟨t, w, e, he, htface, rfl, hkeys⟩ := hasFace_refineOnce.mp ht
  have hemem : e ∈ m.cells := List.mem_of_getElem? he
  have hpieces := (faceKey_childCell_eq_iff hm hdistinct hcmem hemem).mp hkeys.symm
  obtain ⟨-, hface, hcorner⟩ :=
    Cell.of_childPieces_eq (hdistinct c hcmem) (hdistinct e hemem) hs htface hv hpieces
  have hts : t = s := houter.2 t ⟨e, he, htface, hface.symm⟩
  subst hts
  rw [hc] at he
  cases he
  rw [Cell.get_injective (hdistinct c hcmem) hcorner]

/-- A face of a child is on the boundary exactly when it lies on a boundary face of the
parent. -/
theorem isOuter_refineOnce (hm : m.CellsValid) (hdistinct : m.CellsDistinct)
    (hconform : m.PiecesConform) {r : FaceRef} {k : Key} :
    m.refineOnce.IsOuter r k ↔
      ∃ (s : FaceRef) (v : Corner d) (c : Cell d), m.cells[s.cell]? = some c ∧
        m.IsOuter s (c.faceKey s.face) ∧ onFace s.face v = true ∧ r = s.child v ∧
        (m.childCell m.newKeys c v).faceKey s.face = k := by
  constructor
  · intro h
    obtain ⟨hface, honly⟩ := h
    obtain ⟨s, v, c, hc, hs, rfl, rfl⟩ := hasFace_refineOnce.mp hface
    have hcmem : c ∈ m.cells := List.mem_of_getElem? hc
    have hunique : ∀ (t : FaceRef) (w : Corner d) (e : Cell d), m.cells[t.cell]? = some e →
        t.face < faceCount d → e.childPieces w t.face = c.childPieces v s.face →
        t = s ∧ w = v := by
      intro t w e he ht hpieces
      refine FaceRef.child_inj (honly _ (hasFace_refineOnce.mpr ⟨t, w, e, he, ht, rfl, ?_⟩))
      exact (faceKey_childCell_eq_iff hm hdistinct (List.mem_of_getElem? he) hcmem).mpr hpieces
    have hv : onFace s.face v = true := by
      -- Inside the parent the neighboring child has the same face under another number.
      by_contra hv
      have hflip := c.childPieces_flip hs (by simpa using hv)
      have hsame := hunique ⟨s.cell, acrossFace s.face⟩ _ c hc (acrossFace_lt hs) hflip
      exact acrossFace_ne s.face (congrArg FaceRef.face hsame.1)
    refine ⟨s, v, c, hc, ⟨⟨c, hc, hs, rfl⟩, ?_⟩, hv, rfl, rfl⟩
    intro t h
    obtain ⟨e, he, ht, hkeys⟩ := h
    have hemem : e ∈ m.cells := List.mem_of_getElem? he
    have hvertex : c.get v ∈ e.faceKey t.face := hkeys ▸ Cell.mem_faceKey.mpr ⟨v, hv, rfl⟩
    obtain ⟨w, hw, hwv⟩ := Cell.mem_faceKey.mp hvertex
    refine (hunique t w e he ht ?_).1
    have hpieces := hconform e hemem c hcmem _ ht _ hs hkeys
    apply Set.ext
    intro l
    rw [Cell.mem_childPieces_of_onFace (hdistinct e hemem) ht hw,
      Cell.mem_childPieces_of_onFace (hdistinct c hcmem) hs hv, hpieces, hwv]
  · intro h
    obtain ⟨s, v, c, hc, houter, hv, rfl, rfl⟩ := h
    exact isOuter_childCell hm hdistinct hc houter hv

/-! ## Indicators -/

omit [Scalar K] in
theorem mem_inherited {c : Cell d} {child : Corner d} {childCell : Cell d} {k : Key}
    {i : Indicator} :
    (k, i) ∈ m.inherited c child childCell ↔
      ∃ f < faceCount d, onFace f child = true ∧ m.indicators[c.faceKey f]? = some i ∧
        childCell.faceKey f = k := by
  simp only [inherited, List.mem_filterMap, List.mem_filter, List.mem_range,
    Option.map_eq_some_iff, Prod.mk.injEq, and_assoc]
  refine exists_congr fun f => and_congr_right fun _ => and_congr_right fun _ => ?_
  constructor
  · intro h
    obtain ⟨_, hi, hk, rfl⟩ := h
    exact ⟨hi, hk⟩
  · intro h
    obtain ⟨hi, hk⟩ := h
    exact ⟨i, hi, hk, rfl⟩

/-- Everything that children inherit, in the order in which it is recorded. -/
def inheritedEntries (m : Mesh K d) : List (Key × Indicator) :=
  m.cells.flatMap fun c => (corners d).flatMap fun v =>
    m.inherited c v (m.childCell m.newKeys c v)

omit [Scalar K] in
theorem mem_inheritedEntries {k : Key} {i : Indicator} :
    (k, i) ∈ m.inheritedEntries ↔
      ∃ c ∈ m.cells, ∃ (v : Corner d), ∃ f < faceCount d, onFace f v = true ∧
        m.indicators[c.faceKey f]? = some i ∧ (m.childCell m.newKeys c v).faceKey f = k := by
  simp only [inheritedEntries, List.mem_flatMap, mem_inherited, mem_corners, true_and]

theorem indicators_refineOnce (m : Mesh K d) :
    m.refineOnce.indicators = KeyMap.ofEntries m.inheritedEntries := by
  rw [refineOnce, inheritedEntries, List.flatMap_map]
  simp only [List.flatMap_map]

/-- Two children inherit for one key only when the faces of their parents are the same, so
that the order in which they do so does not matter. -/
theorem getElem?_indicators_refineOnce (hm : m.CellsValid) (hdistinct : m.CellsDistinct)
    {c : Cell d} (hc : c ∈ m.cells) {f : Nat} (hf : f < faceCount d) {v : Corner d}
    (hv : onFace f v = true) :
    m.refineOnce.indicators[(m.childCell m.newKeys c v).faceKey f]? =
      m.indicators[c.faceKey f]? := by
  rw [indicators_refineOnce]
  refine KeyMap.getElem?_foldl_insert_of_agree Std.ExtTreeMap.getElem?_empty (fun i hentry => ?_)
    fun i hi => mem_inheritedEntries.mpr ⟨c, hc, v, f, hf, hv, hi, rfl⟩
  obtain ⟨e, he, w, g, hg, hw, hi, hkeys⟩ := mem_inheritedEntries.mp hentry
  have hpieces := (faceKey_childCell_eq_iff hm hdistinct he hc).mp hkeys
  obtain ⟨-, hface, -⟩ := Cell.of_childPieces_eq (hdistinct e he) (hdistinct c hc) hg hf hw hpieces
  rw [← hface]
  exact hi

theorem indicator_refineOnce (hm : m.CellsValid) (hdistinct : m.CellsDistinct)
    {c : Cell d} (hc : c ∈ m.cells) {f : Nat} (hf : f < faceCount d) {v : Corner d}
    (hv : onFace f v = true) :
    m.refineOnce.indicator ((m.childCell m.newKeys c v).faceKey f) =
      m.indicator (c.faceKey f) := by
  rw [indicator, indicator, Std.ExtTreeMap.getD_eq_getD_getElem?,
    Std.ExtTreeMap.getD_eq_getD_getElem?, getElem?_indicators_refineOnce hm hdistinct hc hf hv]

/-! ## Boundary faces -/

/-- One refinement turns each boundary face into the faces of those children that lie on
it, and nothing else comes to lie on the boundary. -/
theorem mem_boundaryFaces_refineOnce (hm : m.CellsValid) (hdistinct : m.CellsDistinct)
    (hconform : m.PiecesConform) {b : BoundaryFace} :
    b ∈ m.refineOnce.boundaryFaces ↔
      ∃ f ∈ m.boundaryFaces, ∃ v : Corner d, onFace f.face v = true ∧ b = f.child v := by
  rw [mem_boundaryFaces]
  constructor
  · intro h
    obtain ⟨k, houter, hindicator⟩ := h
    obtain ⟨s, v, c, hc, hs, hv, href, rfl⟩ :=
      (isOuter_refineOnce hm hdistinct hconform).mp houter
    have hcmem : c ∈ m.cells := List.mem_of_getElem? hc
    rw [indicator_refineOnce hm hdistinct hcmem hs.face_lt hv] at hindicator
    refine ⟨⟨s, b.indicator⟩, mem_boundaryFaces.mpr ⟨_, hs, hindicator⟩, v, hv, ?_⟩
    rw [BoundaryFace.child, ← href]
  · intro h
    obtain ⟨f, hf, v, hv, rfl⟩ := h
    obtain ⟨k, houter, hindicator⟩ := mem_boundaryFaces.mp hf
    have hface := houter.1
    obtain ⟨c, hc, hlt, rfl⟩ := hface
    refine ⟨(m.childCell m.newKeys c v).faceKey f.face, ?_, ?_⟩
    · exact (isOuter_refineOnce hm hdistinct hconform).mpr ⟨_, v, c, hc, houter, hv, rfl, rfl⟩
    · rw [indicator_refineOnce hm hdistinct (List.mem_of_getElem? hc) hlt hv]
      exact hindicator

theorem maxIndicator_refineOnce (hm : m.CellsValid) (hdistinct : m.CellsDistinct)
    (hconform : m.PiecesConform) : m.refineOnce.maxIndicator = m.maxIndicator := by
  refine maxIndicator_congr fun i => ?_
  have hmem {b : BoundaryFace} := mem_boundaryFaces_refineOnce (b := b) hm hdistinct hconform
  constructor
  · intro h
    obtain ⟨b, hb, rfl⟩ := h
    obtain ⟨f, hf, v, -, rfl⟩ := hmem.mp hb
    exact ⟨f, hf, rfl⟩
  · intro h
    obtain ⟨f, hf, rfl⟩ := h
    obtain ⟨v, hv⟩ := exists_onFace (face_lt_of_mem_boundaryFaces hf)
    exact ⟨f.child v, hmem.mpr ⟨f, hf, v, hv, rfl⟩, rfl⟩

/-- The boundary faces of the refined mesh, listed parent by parent. -/
theorem boundaryFaces_refineOnce_perm (hm : m.CellsValid) (hdistinct : m.CellsDistinct)
    (hconform : m.PiecesConform) :
    m.refineOnce.boundaryFaces.Perm
      (m.boundaryFaces.flatMap fun f => (faceCorners d f.face).map f.child) := by
  have hnodup : (m.boundaryFaces.flatMap fun f => (faceCorners d f.face).map f.child).Nodup := by
    refine List.nodup_flatMap.mpr ⟨fun f _ => ?_, m.nodup_boundaryFaces.imp fun hne => ?_⟩
    · exact (nodup_faceCorners f.face).map fun v w h => (BoundaryFace.child_inj h).2
    · intro b hb hb'
      obtain ⟨v, -, rfl⟩ := List.mem_map.mp hb
      obtain ⟨w, -, hw⟩ := List.mem_map.mp hb'
      exact hne (BoundaryFace.child_inj hw).1.symm
  apply (List.perm_ext_iff_of_nodup (nodup_boundaryFaces _) hnodup).mpr
  intro b
  rw [mem_boundaryFaces_refineOnce hm hdistinct hconform, List.mem_flatMap]
  refine exists_congr fun f => and_congr_right fun _ => ?_
  rw [List.mem_map]
  refine exists_congr fun v => and_congr ?_ eq_comm
  exact mem_faceCorners.symm

omit [Scalar K] in
theorem countP_children {bs : List BoundaryFace} (h : ∀ b ∈ bs, b.face < faceCount d)
    (i : Indicator) :
    (bs.flatMap fun b => (faceCorners d b.face).map b.child).countP (·.indicator = i) =
      bs.countP (·.indicator = i) * cornerCount (d - 1) := by
  induction bs with
  | nil => simp
  | cons b rest ih =>
    have hchildren : ((faceCorners d b.face).map b.child).countP (·.indicator = i) =
        if b.indicator = i then cornerCount (d - 1) else 0 := by
      rw [List.countP_map]
      by_cases hi : b.indicator = i
      · rw [if_pos hi, ← length_faceCorners (h b List.mem_cons_self)]
        exact List.countP_eq_length.mpr fun v _ => decide_eq_true hi
      · rw [if_neg hi]
        exact List.countP_eq_zero.mpr fun v _ hv => hi (of_decide_eq_true hv)
    rw [List.flatMap_cons, List.countP_append, hchildren, List.countP_cons,
      ih fun c hc => h c (List.mem_cons_of_mem b hc)]
    by_cases hi : b.indicator = i
    · simp only [hi, if_true, decide_true]
      ring
    · simp [hi]

theorem countP_boundaryFaces_refineOnce (hm : m.CellsValid) (hdistinct : m.CellsDistinct)
    (hconform : m.PiecesConform) (i : Indicator) :
    m.refineOnce.boundaryFaces.countP (·.indicator = i) =
      m.boundaryFaces.countP (·.indicator = i) * cornerCount (d - 1) := by
  rw [(boundaryFaces_refineOnce_perm hm hdistinct hconform).countP_eq]
  exact countP_children (fun b hb => face_lt_of_mem_boundaryFaces hb) i

/-! ## Repeated refinement -/

/-- A mesh on which refinement behaves: its cells are cubes, and in space they conform along
common faces. -/
structure Regular (m : Mesh K d) : Prop where
  valid : m.CellsValid
  distinct : m.CellsDistinct
  conform : d = 3 → m.FacesConform

instance (m : Mesh K d) : Decidable m.Regular :=
  decidable_of_iff (m.CellsValid ∧ m.CellsDistinct ∧ (d = 3 → m.FacesConform))
    ⟨fun h => ⟨h.1, h.2.1, h.2.2⟩, fun h => ⟨h.valid, h.distinct, h.conform⟩⟩

omit [Scalar K] in
theorem Regular.piecesConform (hd : d ≤ 3) (hm : m.Regular) : m.PiecesConform :=
  Mesh.piecesConform hd hm.conform

theorem cellsValid_refineOnce (hm : m.CellsValid) : m.refineOnce.CellsValid := by
  intro a ha u hu
  obtain ⟨c, hc, v, rfl⟩ := mem_cells_refineOnce.mp ha
  obtain ⟨w, rfl⟩ := Cell.mem_toList_iff.mp hu
  rw [get_childCell]
  exact middle_lt hm (isPiece_latticeKey hc v w)

theorem cellsDistinct_refineOnce (hm : m.CellsValid) (hdistinct : m.CellsDistinct) :
    m.refineOnce.CellsDistinct := by
  intro a ha
  obtain ⟨c, hc, v, rfl⟩ := mem_cells_refineOnce.mp ha
  exact nodup_childCell hm hc (hdistinct c hc) v

theorem CellsDiffer.refineOnce (hm : m.CellsValid) (hdistinct : m.CellsDistinct)
    (hdiffer : m.CellsDiffer) : m.refineOnce.CellsDiffer := by
  rw [CellsDiffer, List.nodup_iff_injective_getElem]
  intro ⟨i, hi⟩ ⟨j, hj⟩ he
  rw [List.length_map] at hi hj
  simp only [List.getElem_map] at he
  obtain ⟨s, v, c, hc, rfl, hci⟩ := exists_childCell (List.getElem?_eq_getElem hi)
  obtain ⟨t, w, e, he', rfl, hej⟩ := exists_childCell (List.getElem?_eq_getElem hj)
  have hcmem := List.mem_of_getElem? hc
  rw [← hci, ← hej] at he
  obtain ⟨hsame, hcorner⟩ := childCell_inj hm hcmem (List.mem_of_getElem? he')
    (hdistinct e (List.mem_of_getElem? he')) he
  obtain rfl : s = t := hdiffer.eq_of_key hc he' hsame
  rw [he', Option.some_inj] at hc
  subst hc
  obtain rfl : v = w := Cell.get_injective (hdistinct _ hcmem) hcorner
  rfl

theorem Regular.refineOnce (hm : m.Regular) : m.refineOnce.Regular where
  valid := cellsValid_refineOnce hm.valid
  distinct := cellsDistinct_refineOnce hm.valid hm.distinct
  conform h := by
    subst h
    exact (piecesConform_refineOnce hm.valid hm.distinct).facesConform

theorem refine_succ (m : Mesh K d) (n : Nat) : m.refine (n + 1) = (m.refine n).refineOnce := by
  induction n generalizing m with
  | zero => rfl
  | succ n ih => rw [refine, ih, ← refine]

theorem shapes_refine (m : Mesh K d) (n : Nat) : (m.refine n).shapes = m.shapes := by
  induction n with
  | zero => rfl
  | succ n ih =>
    rw [refine_succ]
    exact ih

theorem cellsValid_refine (hm : m.CellsValid) (n : Nat) : (m.refine n).CellsValid := by
  induction n with
  | zero => exact hm
  | succ n ih =>
    rw [refine_succ]
    exact cellsValid_refineOnce ih

theorem Regular.refine (hm : m.Regular) (n : Nat) : (m.refine n).Regular := by
  induction n with
  | zero => exact hm
  | succ n ih =>
    rw [refine_succ]
    exact ih.refineOnce

theorem CellsDiffer.refine (hm : m.Regular) (hdiffer : m.CellsDiffer) (n : Nat) :
    (m.refine n).CellsDiffer := by
  induction n with
  | zero => exact hdiffer
  | succ n ih =>
    rw [refine_succ]
    exact ih.refineOnce (hm.refine n).valid (hm.refine n).distinct

theorem length_cells_refine (m : Mesh K d) (n : Nat) :
    (m.refine n).cells.length = cornerCount d ^ n * m.cells.length := by
  induction n with
  | zero => rw [pow_zero, one_mul, Mesh.refine]
  | succ n ih =>
    rw [refine_succ, length_cells_refineOnce, ih]
    ring

theorem countP_boundaryFaces_refine (hd : d ≤ 3) (hm : m.Regular) (n : Nat) (i : Indicator) :
    (m.refine n).boundaryFaces.countP (·.indicator = i) =
      m.boundaryFaces.countP (·.indicator = i) * cornerCount (d - 1) ^ n := by
  induction n with
  | zero => rw [pow_zero, mul_one, Mesh.refine]
  | succ n ih =>
    have hn := hm.refine n
    rw [refine_succ, countP_boundaryFaces_refineOnce hn.valid hn.distinct (hn.piecesConform hd), ih]
    ring

theorem indicatorCounts_refine (hd : d ≤ 3) (hm : m.Regular) (n : Nat) :
    (m.refine n).indicatorCounts =
      m.indicatorCounts.map fun _ count => count * cornerCount (d - 1) ^ n := by
  refine Std.ExtTreeMap.ext_getElem? fun i => ?_
  rw [Std.ExtTreeMap.getElem?_map, getElem?_indicatorCounts, getElem?_indicatorCounts,
    countP_boundaryFaces_refine hd hm]
  have hpos : 0 < cornerCount (d - 1) ^ n := Nat.pow_pos (Nat.two_pow_pos _)
  by_cases hzero : m.boundaryFaces.countP (·.indicator = i) = 0
  · rw [hzero, zero_mul]
    rfl
  · rw [if_neg hzero, if_neg (Nat.mul_ne_zero hzero hpos.ne')]
    rfl

/-- What refinement does to cells and to the boundary.  Each refinement turns every boundary
face into the faces of the children on it, which inherit its indicator, and into nothing
else.  So a part of the boundary has as many times more faces as a face has corners, and no
face inside the mesh comes to the boundary.  The refined mesh is as regular as the first
one was. -/
theorem boundaryFaces_refine (hd : d ≤ 3) (hm : m.Regular) (n : Nat) :
    (m.refine n).Regular ∧
    (m.refine n).cells.length = cornerCount d ^ n * m.cells.length ∧
    (∀ b, b ∈ (m.refine (n + 1)).boundaryFaces ↔
      ∃ f ∈ (m.refine n).boundaryFaces, ∃ child : Corner d,
        child.high (f.face / 2) = (f.face % 2 == 1) ∧
        b = ⟨⟨f.cell * cornerCount d + child, f.face⟩, f.indicator⟩) ∧
    (∀ r : FaceRef, (∀ f ∈ (m.refine n).boundaryFaces, f.toFaceRef ≠ r) →
      ∀ child : Corner d, ∀ b ∈ (m.refine (n + 1)).boundaryFaces,
        b.toFaceRef ≠ ⟨r.cell * cornerCount d + child, r.face⟩) ∧
    ∀ output, (Summary.ofMesh (m.refine n) output).boundaryCounts =
      (Summary.ofMesh m output).boundaryCounts.map fun c =>
        (c.1, c.2 * cornerCount (d - 1) ^ n) := by
  have hn := hm.refine n
  have hmem : ∀ b, b ∈ (m.refine (n + 1)).boundaryFaces ↔
      ∃ f ∈ (m.refine n).boundaryFaces, ∃ v : Corner d, onFace f.face v = true ∧
        b = f.child v := fun b => by
    rw [refine_succ]
    exact mem_boundaryFaces_refineOnce hn.valid hn.distinct (hn.piecesConform hd)
  refine ⟨hn, m.length_cells_refine n, fun b => ?_, fun r hr child b hb he => ?_, fun output => ?_⟩
  · rw [hmem]
    refine exists_congr fun f => and_congr_right fun _ => exists_congr fun v => ?_
    exact and_congr_left fun _ => beq_iff_eq
  · obtain ⟨f, hf, v, -, rfl⟩ := (hmem b).mp hb
    have href : f.toFaceRef.child v = r.child child := he
    exact hr f hf (FaceRef.child_inj href).1
  · show (m.refine n).indicatorCounts.toList = _
    rw [indicatorCounts_refine hd hm, Std.ExtTreeMap.toList_map]
    rfl

end Refined

theorem regular_bricks : bricks.Regular := by decide +kernel

theorem boundaryFaces_refine_bricks :
    3 ≤ 3 ∧ bricks.Regular ∧ (bricks.refine 2).Regular ∧ (bricks.refine 2).cells.length = 128 :=
  have h := boundaryFaces_refine (by decide) regular_bricks 2
  ⟨by decide, regular_bricks, h.1, h.2.1⟩

end Mesh
end HexMesh
