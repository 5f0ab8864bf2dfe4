import Mathlib.Algebra.Field.Rat
import Mathlib.Algebra.Order.Ring.Rat
import HexMesh.Proofs.Msh.Acceptance
import HexMesh.Proofs.Number.Rational
import HexMesh.Proofs.Text.Lines
import HexMesh.Proofs.Workshop

/-!
Whether all stored indicators belong to the boundary.

Gluing forgets the indicators of faces that come to lie inside.  Nothing else does: a file may
give an indicator to a face between two cells, and where vertices are identified in one mesh,
the faces that become one keep theirs.  So it depends on the operations of a run whether a key
is stored that is not on the boundary.  Each operation has a condition under which it stores
none, and for reading and for identification the condition is necessary too.
-/

namespace HexMesh

open HexMesh.Cube

variable {K : Type} {d : Nat}

namespace Mesh

variable {m m' : Mesh K d} {k : Key}

/-- Every stored key is that of a face on the boundary. -/
def StoresOuter (m : Mesh K d) : Prop := ∀ k ∈ m.indicators, ∃ r, m.IsOuter r k

theorem IndicatorsOuter.storesOuter (h : m.IndicatorsOuter) : m.StoresOuter :=
  fun k hk => (h k).mp hk

theorem storesOuter_of_isEmpty (h : m.indicators = ∅) : m.StoresOuter := fun _ hk =>
  absurd (h ▸ hk) Std.ExtTreeMap.not_mem_empty

theorem StoresOuter.of_eq (hm : m.StoresOuter) (hcells : m'.cells = m.cells)
    (hindicators : m'.indicators = m.indicators) : m'.StoresOuter := by
  intro k hk
  obtain ⟨r, hr⟩ := hm k (hindicators ▸ hk)
  exact ⟨r, (isOuter_congr hcells).mpr hr⟩

theorem StoresOuter.setIndicator (hm : m.StoresOuter) {vs : List Nat}
    (h : m.owners.getD (Key.ofList vs) 0 = 1) (i : Indicator) : (m.setIndicator vs i).StoresOuter :=
  KeyMap.forall_mem_insert hm (owners_eq_one_iff.mp h) i

theorem StoresOuter.setFaceIndicator (hm : m.StoresOuter) {c : Cell d} {face : Nat}
    (h : m.owners.getD (c.faceKey face) 0 = 1) (i : Indicator) :
    (m.setFaceIndicator c face i).StoresOuter :=
  KeyMap.forall_mem_insert hm (owners_eq_one_iff.mp h) i

theorem storesOuter_pruneIndicators (m : Mesh K d) : m.pruneIndicators.StoresOuter :=
  fun _ hk => isOuter_of_mem_pruneIndicators hk

theorem storesOuter_ofCells {vertices : Array (Point K d)} {cells : List (List Nat)}
    (h : ofCells vertices cells = .ok m) : m.StoresOuter := by
  obtain ⟨-, hm, -, -⟩ := ofCells_eq_ok_iff.mp h
  rw [hm]
  exact storesOuter_of_isEmpty rfl

section Made

variable [Scalar K]

theorem storesOuter_box {repetitions : Vector Nat d} {p q : Point K d} {colorize : Bool}
    (h : box repetitions p q colorize = .ok m) : m.StoresOuter := by
  rw [(Box.of_box_eq_ok h).2]
  cases colorize with
  | false => exact storesOuter_of_isEmpty rfl
  | true => exact (Box.indicatorsOuter_mesh _).storesOuter

/-- The cells of the ring without any vertices. -/
def ring : Mesh Empty 2 := { vertices := #[], cells := (List.range 8).map ringCell }

theorem owners_ring : ∀ k < 8, ∀ face < 2, ring.owners.getD ((ringCell k).faceKey face) 0 = 1 := by
  decide +kernel

theorem storesOuter_squareWithHole [Transcendental K] {inner outer : K} {m : Mesh K 2}
    (h : squareWithHole inner outer = .ok m) : m.StoresOuter := by
  have hfold (cells : List (Cell 2)) {m : Mesh K 2} (hm : m.StoresOuter)
      (hring : m.cells = ring.cells)
      (hcells : ∀ c ∈ cells, ∀ face < 2, ring.owners.getD (c.faceKey face) 0 = 1) :
      (cells.foldl (fun m c => (m.setFaceIndicator c 0 1).setFaceIndicator c 1 0)
        m).StoresOuter := by
    induction cells generalizing m with
    | nil => exact hm
    | cons c rest ih =>
      have ⟨hc, hrest⟩ := List.forall_mem_cons.mp hcells
      have howners {m : Mesh K 2} (hring : m.cells = ring.cells) {face : Nat} (hface : face < 2) :
          m.owners.getD (c.faceKey face) 0 = 1 := by
        obtain ⟨r, hr⟩ := owners_eq_one_iff.mp (hc face hface)
        exact owners_eq_one_iff.mpr ⟨r, (isOuter_congr hring).mpr hr⟩
      exact ih ((hm.setFaceIndicator (howners hring Nat.two_pos) 1).setFaceIndicator
        (howners hring Nat.one_lt_two) 0) hring hrest
  unfold squareWithHole at h
  split at h
  · cases h
    refine hfold _ (storesOuter_of_isEmpty rfl) rfl fun c hc face hface => ?_
    obtain ⟨k, hk, rfl⟩ := List.mem_map.mp hc
    exact owners_ring k (List.mem_range.mp hk) face hface
  · cases h

/-- A file stores what its face elements name, whatever that is. -/
theorem exists_gathered_of_read [Numeral K] {bytes : List UInt8} (h : Msh.read d bytes = .ok m) :
    ∃ g, ({} : Msh.Gathered K d).after? (Line.ofBytes bytes) = some g ∧ m = g.mesh ∧
      ∀ p : Key → Prop, (∀ k ∈ m.indicators, p k) ↔ ∀ f ∈ g.faces.toList, p (Key.ofList f.1) := by
  obtain ⟨g, hg, -, rfl⟩ := (Msh.read_eq_ok_iff (Msh.dimension_of_read h)).mp h
  refine ⟨g, hg, rfl, fun p => ?_⟩
  have hindicators : g.mesh.indicators =
      KeyMap.ofEntries (g.faces.toList.map fun f => (Key.ofList f.1, f.2)) := by
    rw [Msh.Gathered.mesh_eq]
  rw [hindicators]
  constructor
  · intro hp f hf
    exact hp _ (KeyMap.mem_ofEntries.mpr ⟨f.2, List.mem_map.mpr ⟨f, hf, rfl⟩⟩)
  · intro hp
    refine KeyMap.forall_mem_ofEntries fun e he => ?_
    obtain ⟨f, hf, rfl⟩ := List.mem_map.mp he
    exact hp f hf

theorem storesOuter_read_iff [Numeral K] {bytes : List UInt8} (h : Msh.read d bytes = .ok m) :
    ∃ g, ({} : Msh.Gathered K d).after? (Line.ofBytes bytes) = some g ∧ m = g.mesh ∧
      (m.StoresOuter ↔ ∀ f ∈ g.faces.toList, m.owners.getD (Key.ofList f.1) 0 = 1) := by
  obtain ⟨g, hg, hm, hstored⟩ := exists_gathered_of_read h
  refine ⟨g, hg, hm, (hstored _).trans ?_⟩
  simp only [owners_eq_one_iff]

theorem storesOuter_extrude {m : Mesh K 2} (hm : m.CellsValid) (hapart : m.CellsApart)
    {slices : Nat} {height : K} {m' : Mesh K 3} (h : m.extrude slices height = .ok m') :
    m'.StoresOuter := by
  obtain ⟨hslices, hextrudes, -⟩ := extrudes_of_extrude h
  exact (hextrudes.indicatorsOuter hm hapart hslices).storesOuter

end Made

section Refined

variable [Scalar K]

theorem storesOuter_merge [SquareRoot K] {a b : Mesh K d} (h : a.merge b = .ok m) :
    m.StoresOuter := by
  rw [merge_eq] at h
  obtain ⟨⟨glued, n⟩, -, h⟩ := bind_eq_ok_iff.mp h
  cases h
  exact storesOuter_pruneIndicators glued

theorem StoresOuter.refineOnce (hm : m.StoresOuter) (hvalid : m.CellsValid)
    (hdistinct : m.CellsDistinct) : m.refineOnce.StoresOuter := by
  rw [StoresOuter, indicators_refineOnce]
  refine KeyMap.forall_mem_ofEntries fun ⟨k, i⟩ he => ?_
  obtain ⟨c, hc, v, f, hf, hv, hi, rfl⟩ := mem_inheritedEntries.mp he
  have hstored : c.faceKey f ∈ m.indicators :=
    Std.ExtTreeMap.mem_iff_isSome_getElem?.mpr (hi ▸ rfl)
  obtain ⟨r, hr⟩ := hm _ hstored
  -- The cell that inherits is the only one with this face.
  obtain ⟨j, hj⟩ := List.mem_iff_getElem?.mp hc
  cases hr.2 ⟨j, f⟩ ⟨c, hj, hf, rfl⟩
  exact ⟨_, isOuter_childCell hvalid hdistinct hj hr hv⟩

theorem StoresOuter.refine (hm : m.StoresOuter) (hvalid : m.CellsValid)
    (hdistinct : m.CellsDistinct) (n : Nat) : (m.refine n).StoresOuter := by
  induction n generalizing m with
  | zero => exact hm
  | succ n ih =>
    exact ih (hm.refineOnce hvalid hdistinct) (cellsValid_refineOnce hvalid)
      (cellsDistinct_refineOnce hvalid hdistinct)

theorem StoresOuter.distort [SquareRoot K] (hm : m.StoresOuter) (factor : K) (keepBoundary : Bool)
    (words : WordStream) : (m.distort factor keepBoundary words).StoresOuter := by
  obtain ⟨vertices, -, h⟩ := m.exists_distort factor keepBoundary words
  rw [h]
  exact hm.of_eq rfl rfl

end Refined

/-! ## Identification -/

section Identified

variable [Scalar K] {tol : K} {f : Nat → Nat} {n : Nat}

/-- Identification makes no face one with another face that has an indicator. -/
def SeparatesStored (m : Mesh K d) (tol : K) : Prop :=
  ∀ x ∈ m.faces, x.2 ∈ m.indicators → ∀ y ∈ m.faces,
    Key.ofList (y.2.map (m.identify tol).of) = Key.ofList (x.2.map (m.identify tol).of) →
      y.1 = x.1

instance (m : Mesh K d) (tol : K) : Decidable (m.SeparatesStored tol) :=
  inferInstanceAs (Decidable (∀ x ∈ m.faces, x.2 ∈ m.indicators → ∀ y ∈ m.faces, _ → _))

/-- New numbers tell keys apart as the vertices do that stand for the old ones. -/
theorem Identifies.ofList_map_eq_iff (h : m.Identifies m' (m.identify tol) f) {k l : Key}
    (hk : ∀ v ∈ k, v < m.vertices.size) (hl : ∀ v ∈ l, v < m.vertices.size) :
    Key.ofList (k.map f) = Key.ofList (l.map f) ↔
      Key.ofList (k.map (m.identify tol).of) = Key.ofList (l.map (m.identify tol).of) := by
  have hsame {g g' : Nat → Nat} (next : Nat → Nat)
      (hnext : ∀ v < m.vertices.size, g' v = next (g v))
      (he : Key.ofList (k.map g) = Key.ofList (l.map g)) :
      Key.ofList (k.map g') = Key.ofList (l.map g') := by
    have hmap {k : Key} (hk : ∀ v ∈ k, v < m.vertices.size) :
        Key.ofList (k.map g') = Key.ofList ((Key.ofList (k.map g)).map next) := by
      rw [Key.ofList_map_ofList, List.map_map]
      exact congrArg Key.ofList (List.map_congr_left fun v hv => hnext v (hk v hv))
    rw [hmap hk, hmap hl, he]
  constructor
  · refine hsame (fun i => (m.identify tol).survivors.getD i 0) fun v hv => ?_
    rw [List.getD_eq_getElem?_getD, h.place v hv]
    rfl
  · refine hsame (m.identify tol).survivors.idxOf fun v hv => ?_
    obtain ⟨hlt, hplace⟩ := List.getElem?_eq_some_iff.mp (h.place v hv)
    have hnodup : (m.identify tol).survivors.Nodup :=
      (m.identify tol).pairwise_survivors.imp Nat.ne_of_lt
    rw [← hplace, hnodup.idxOf_getElem]

theorem exists_identifies (hm : m.WellFormed) (h : m.deduplicate tol = .ok (m', n)) :
    ∃ f, m.Identifies m' (m.identify tol) f ∧
      ∀ l, l ∈ m'.indicators ↔ ∃ k ∈ m.indicators, Key.ofList (k.map f) = l := by
  obtain ⟨hn, ⟨rfl, rfl⟩ | rfl⟩ := deduplicate_cases h
  · refine ⟨id, identifies_self (by omega), fun l => ?_⟩
    have hself {k : Key} (hk : k ∈ m'.indicators) : Key.ofList (k.map id) = k := by
      rw [List.map_id, Key.ofList_of_pairwise (hm.key_sorted k hk)]
    exact ⟨fun hl => ⟨l, hl, hself hl⟩, fun ⟨k, hk, hkl⟩ => hkl ▸ (hself hk).symm ▸ hk⟩
  · refine ⟨_, identifies_renumber m tol, fun l => ?_⟩
    rw [renumber, renumberIndicators, KeyMap.mem_ofEntries]
    simp only [List.mem_map, Prod.mk.injEq, Prod.exists,
      Std.ExtTreeMap.mem_toList_iff_getElem?_eq_some]
    constructor
    · rintro ⟨_, k, i, hk, rfl, -⟩
      exact ⟨k, Std.ExtTreeMap.mem_iff_isSome_getElem?.mpr (hk ▸ rfl), rfl⟩
    · rintro ⟨k, hk, rfl⟩
      obtain ⟨i, hi⟩ := Option.isSome_iff_exists.mp (Std.ExtTreeMap.mem_iff_isSome_getElem?.mp hk)
      exact ⟨i, k, i, hi, rfl, rfl⟩

/-- After identification all stored indicators belong to the boundary still, exactly if no face
has become one with a face that has an indicator. -/
theorem StoresOuter.deduplicate_iff (hm : m.StoresOuter) (hwell : m.WellFormed)
    (h : m.deduplicate tol = .ok (m', n)) : m'.StoresOuter ↔ m.SeparatesStored tol := by
  obtain ⟨f, hf, hkeys⟩ := exists_identifies hwell h
  have hface {r : FaceRef} {l : Key} :
      m'.HasFace r l ↔ ∃ k, m.HasFace r k ∧ Key.ofList (k.map f) = l := by
    have hcells : m'.cells = (m.renumber m'.vertices f).cells := hf.cells
    have hrenumber : (m.renumber m'.vertices f).HasFace r l ↔ _ := hasFace_renumber
    rw [← hrenumber]
    simp only [HasFace, hcells]
  constructor
  · intro hm' x hr hk y hs he
    obtain ⟨r, k⟩ := x
    obtain ⟨s, l⟩ := y
    replace hr := mem_faces.mp hr
    replace hs := mem_faces.mp hs
    obtain ⟨t, ht⟩ := hm' _ ((hkeys _).mpr ⟨k, hk, rfl⟩)
    have hsame :=
      (hf.ofList_map_eq_iff (hs.lt_size hwell.cell_lt) (hr.lt_size hwell.cell_lt)).mpr he
    exact (ht.2 s (hface.mpr ⟨l, hs, hsame⟩)).trans (ht.2 r (hface.mpr ⟨k, hr, rfl⟩)).symm
  · intro hseparates l' hl'
    obtain ⟨k, hk, rfl⟩ := (hkeys l').mp hl'
    obtain ⟨r, hr⟩ := hm k hk
    refine ⟨r, hface.mpr ⟨k, hr.1, rfl⟩, fun s hs => ?_⟩
    obtain ⟨l, hs, hsame⟩ := hface.mp hs
    exact hseparates (r, k) (mem_faces.mpr hr.1) hk (s, l) (mem_faces.mpr hs)
      ((hf.ofList_map_eq_iff (hs.lt_size hwell.cell_lt) (hr.1.lt_size hwell.cell_lt)).mp hsame)

end Identified
end Mesh

/-! ## Runs -/

variable [Scalar K]

namespace Change

/-- A face that is given an indicator is on the boundary, the cells that are refined have no
vertex twice, and no face becomes one with a face that has an indicator. -/
def KeepsOuter (m : Mesh K d) : Change K d → Prop
  | setIndicator vs _ => m.owners.getD (Key.ofList vs) 0 = 1
  | setFaceIndicator cell face _ => ∀ c ∈ m.cells[cell]?, m.owners.getD (c.faceKey face) 0 = 1
  | refine _ => m.CellsDistinct
  | deduplicate tol => m.SeparatesStored tol
  | setShape .. | clearShape .. | transform .. | distort .. => True

instance (m : Mesh K d) : (c : Change K d) → Decidable (c.KeepsOuter m)
  | setIndicator vs _ => inferInstanceAs (Decidable (m.owners.getD (Key.ofList vs) 0 = 1))
  | setFaceIndicator cell face _ =>
    inferInstanceAs (Decidable (∀ c ∈ m.cells[cell]?, m.owners.getD (c.faceKey face) 0 = 1))
  | refine _ => inferInstanceAs (Decidable m.CellsDistinct)
  | deduplicate tol => inferInstanceAs (Decidable (m.SeparatesStored tol))
  | setShape .. | clearShape .. | transform .. | distort .. => isTrue trivial

theorem KeepsOuter.allowed {m : Mesh K d} (hm : m.WellFormed) {c : Change K d}
    (h : c.KeepsOuter m) : c.Allowed m := by
  cases c with
  | setIndicator vs i =>
    obtain ⟨r, hr⟩ := Mesh.owners_eq_one_iff.mp h
    exact fun v hv => hr.1.lt_size hm.cell_lt v (Key.mem_ofList.mpr hv)
  | setFaceIndicator | setShape | clearShape | refine | transform | distort | deduplicate =>
    trivial

variable [SquareRoot K]

theorem storesOuter_apply {m m' : Mesh K d} (hwell : m.WellFormed) (hm : m.StoresOuter)
    {c : Change K d} (hc : c.KeepsOuter m) (h : c.apply m = .ok m') : m'.StoresOuter := by
  cases c with
  | setIndicator vs i =>
    cases h
    exact hm.setIndicator hc i
  | setFaceIndicator cell face i =>
    obtain ⟨e, he, h⟩ := bind_eq_ok_iff.mp h
    cases h
    exact hm.setFaceIndicator (hc e (Mesh.cellAt_eq_ok_iff.mp he)) i
  | setShape i s =>
    cases h
    exact hm.of_eq rfl rfl
  | clearShape i =>
    cases h
    exact hm.of_eq rfl rfl
  | refine times =>
    cases h
    exact hm.refine hwell.cell_lt hc times
  | transform f =>
    cases h
    exact hm.of_eq rfl rfl
  | distort factor keepBoundary words =>
    cases h
    exact hm.distort factor keepBoundary words
  | deduplicate tol =>
    obtain ⟨⟨glued, n⟩, hglued, h⟩ := bind_eq_ok_iff.mp h
    cases h
    exact (hm.deduplicate_iff hwell hglued).mpr hc

end Change

namespace Workshop

def StoresOuter (w : Workshop K) : Prop := ∀ d, ∀ m ∈ w.meshes d, m.StoresOuter

omit [Scalar K] in
theorem StoresOuter.meshAt {w : Workshop K} (hw : w.StoresOuter) {i : Nat} {m : Mesh K d}
    (h : w.meshAt d i = .ok m) : m.StoresOuter :=
  hw d m (List.mem_of_getElem? (meshAt_eq_ok_iff.mp h))

variable [SquareRoot K] [Transcendental K] [Numeral K]

/-- The elements of a file that are faces are faces on the boundary, and no two cells of a mesh
that is swept have the same vertices. -/
def MakesOuter (w : Workshop K) : {d : Nat} → Source K d → Prop
  | d, .file bytes => ∀ g ∈ ({} : Msh.Gathered K d).after? (Line.ofBytes bytes),
      ∀ f ∈ g.faces.toList, g.mesh.owners.getD (Key.ofList f.1) 0 = 1
  | _, .extrude i .. => ∀ m ∈ (w.meshes 2)[i]?, m.CellsApart
  | _, .nothing | _, .cells .. | _, .box .. | _, .squareWithHole .. | _, .copy _ | _, .merge .. =>
    True

def KeepsOuter (w : Workshop K) : Operation K → Prop
  | .make source => w.MakesOuter source
  | .change (d := d) i c => ∀ m ∈ (w.meshes d)[i]?, c.KeepsOuter m

/-- Every operation of a run keeps to the boundary when its turn comes. -/
def RunKeepsOuter (w : Workshop K) : List (Operation K) → Prop
  | [] => True
  | o :: rest => w.KeepsOuter o ∧ (w.after o).RunKeepsOuter rest

instance (w : Workshop K) : {d : Nat} → (source : Source K d) → Decidable (w.MakesOuter source)
  | d, .file bytes => inferInstanceAs (Decidable (∀ g ∈ ({} : Msh.Gathered K d).after?
      (Line.ofBytes bytes), ∀ f ∈ g.faces.toList, g.mesh.owners.getD (Key.ofList f.1) 0 = 1))
  | _, .extrude i .. => inferInstanceAs (Decidable (∀ m ∈ (w.meshes 2)[i]?, m.CellsApart))
  | _, .nothing | _, .cells .. | _, .box .. | _, .squareWithHole .. | _, .copy _ | _, .merge .. =>
    isTrue trivial

instance (w : Workshop K) : (o : Operation K) → Decidable (w.KeepsOuter o)
  | .make source => inferInstanceAs (Decidable (w.MakesOuter source))
  | .change (d := d) i c => inferInstanceAs (Decidable (∀ m ∈ (w.meshes d)[i]?, c.KeepsOuter m))

instance decidableRunKeepsOuter (w : Workshop K) :
    (ops : List (Operation K)) → Decidable (w.RunKeepsOuter ops)
  | [] => isTrue trivial
  | o :: rest =>
    have := decidableRunKeepsOuter (w.after o) rest
    inferInstanceAs (Decidable (w.KeepsOuter o ∧ (w.after o).RunKeepsOuter rest))

omit [SquareRoot K] [Transcendental K] in
theorem KeepsOuter.allows {w : Workshop K} (hw : w.WellFormed) {o : Operation K}
    (h : w.KeepsOuter o) : w.Allows o := by
  cases o with
  | make source => trivial
  | change i c =>
    exact fun m hm => (h m hm).allowed (hw _ m (List.mem_of_getElem? (Option.mem_def.mp hm)))

theorem StoresOuter.make {w : Workshop K} (hwell : w.WellFormed) (hw : w.StoresOuter)
    {source : Source K d} (hsource : w.MakesOuter source) {m : Mesh K d}
    (h : w.make source = .ok m) : m.StoresOuter := by
  cases source with
  | nothing =>
    cases h
    exact Mesh.storesOuter_of_isEmpty rfl
  | cells vertices cells => exact Mesh.storesOuter_ofCells h
  | box repetitions p q colorize => exact Mesh.storesOuter_box h
  | squareWithHole inner outer => exact Mesh.storesOuter_squareWithHole h
  | file bytes =>
    obtain ⟨g, hg, rfl, hstores⟩ := Mesh.storesOuter_read_iff h
    exact hstores.mpr (hsource g hg)
  | copy i => exact hw.meshAt h
  | merge i j =>
    obtain ⟨a, -, h⟩ := bind_eq_ok_iff.mp h
    obtain ⟨b, -, h⟩ := bind_eq_ok_iff.mp h
    exact Mesh.storesOuter_merge h
  | extrude i slices height =>
    obtain ⟨a, ha, h⟩ := bind_eq_ok_iff.mp h
    exact Mesh.storesOuter_extrude (hwell.meshAt ha).cell_lt
      (hsource a (meshAt_eq_ok_iff.mp ha)) h

theorem StoresOuter.after {w : Workshop K} (hwell : w.WellFormed) (hw : w.StoresOuter)
    {o : Operation K} (ho : w.KeepsOuter o) : (w.after o).StoresOuter := by
  unfold Workshop.after
  cases h : w.perform o with
  | error fault => exact hw
  | ok w' =>
    cases o with
    | make source =>
      obtain ⟨m, hm, h⟩ := bind_eq_ok_iff.mp h
      cases h
      exact forall_add (P := fun _ a => a.StoresOuter) hw (hw.make hwell ho hm)
    | change i c =>
      obtain ⟨m, hm, h⟩ := bind_eq_ok_iff.mp h
      obtain ⟨m', hm', h⟩ := bind_eq_ok_iff.mp h
      cases h
      exact forall_replace (P := fun _ a => a.StoresOuter) hw
        (Change.storesOuter_apply (hwell.meshAt hm) (hw.meshAt hm)
          (ho m (meshAt_eq_ok_iff.mp hm)) hm') i

theorem StoresOuter.run {w : Workshop K} (hwell : w.WellFormed) (hw : w.StoresOuter)
    {ops : List (Operation K)} (hops : w.RunKeepsOuter ops) : (w.run ops).StoresOuter := by
  induction ops generalizing w with
  | nil => exact hw
  | cons o rest ih =>
    exact ih (hwell.after (hops.1.allows hwell)) (hw.after hwell hops.1) hops.2

/-- Every key that is stored in a mesh that a run leads to is the key of a face of exactly one
cell, if each operation keeps to the boundary when its turn comes. -/
theorem run_isOuter {ops : List (Operation K)} (h : ({} : Workshop K).RunKeepsOuter ops) (d : Nat)
    {m : Mesh K d} (hm : m ∈ (({} : Workshop K).run ops).meshes d) :
    ∀ k ∈ m.indicators, ∃ r, m.IsOuter r k := by
  have hempty : ({} : Workshop K).WellFormed := fun _ _ ha => absurd ha List.not_mem_nil
  have hnone : ({} : Workshop K).StoresOuter := fun _ _ ha => absurd ha List.not_mem_nil
  exact hnone.run hempty h d m hm

/-- Two squares side by side, with an indicator at the left end and one at the right end, which
are then refined. -/
def stripRun : List (Operation Float) :=
  [.make (.cells #[.xy 0 0, .xy 1 0, .xy 2 0, .xy 0 1, .xy 1 1, .xy 2 1]
      [[0, 1, 3, 4], [1, 2, 4, 5]]),
    .change (d := 2) 0 (.setFaceIndicator 0 0 7), .change (d := 2) 0 (.setIndicator [5, 2] 8),
    .change (d := 2) 0 (.refine 1), .make (d := 2) (.copy 0)]

theorem run_isOuter_strip :
    ({} : Workshop Float).RunKeepsOuter stripRun ∧
      ∃ m ∈ (({} : Workshop Float).run stripRun).meshes 2, m.indicators.keys.length = 4 ∧
        ∀ k ∈ m.indicators, ∃ r, m.IsOuter r k := by
  have hops : ({} : Workshop Float).RunKeepsOuter stripRun := by decide +kernel
  have hcopy : (((({} : Workshop Float).run stripRun).meshes 2)[1]?).map
      (·.indicators.keys.length) = some 4 := by decide +kernel
  obtain ⟨m, hm, hkeys⟩ := Option.map_eq_some_iff.mp hcopy
  have hmem := List.mem_of_getElem? hm
  exact ⟨hops, m, hmem, hkeys, run_isOuter hops 2 hmem⟩

end Workshop

/-! ## A face between two cells -/

/-- Two squares and an element of the type of faces along their common side. -/
def seamFile : List (List Char) :=
  ["$MeshFormat", "2.2 0 8", "$EndMeshFormat", "$Nodes", "6", "1 0 0 0", "2 1 0 0", "3 2 0 0",
    "4 0 1 0", "5 1 1 0", "6 2 1 0", "$EndNodes", "$Elements", "3", "1 3 2 0 1 1 2 5 4",
    "2 3 2 0 1 2 3 6 5", "3 1 2 9 1 2 5", "$EndElements"].map String.toList

/-- The indicator of the common side is stored, although two cells have this side. -/
theorem read_seamFile : ∃ m : Mesh ℚ 2, Msh.read 2 (Line.toBytes seamFile) = .ok m ∧
    m.indicators.toList = [([1, 4], 9)] ∧ ∃ k ∈ m.indicators, ¬∃ r, m.IsOuter r k := by
  have hmesh : (Msh.read (K := ℚ) 2 (Line.toBytes seamFile)).toOption.map (fun m =>
      (m.indicators.toList, m.owners.getD [1, 4] 0)) = some ([([1, 4], 9)], 2) := by
    rw [Msh.read, Line.ofBytes_toBytes (by decide)]
    decide +kernel
  obtain ⟨m, hread, hm⟩ := Option.map_eq_some_iff.mp hmesh
  obtain ⟨hindicators, howners⟩ := Prod.mk.inj hm
  refine ⟨m, toOption_eq_some_iff.mp hread, hindicators, [1, 4], ?_, ?_⟩
  · have hentry : (([1, 4], 9) : Key × Indicator) ∈ m.indicators.toList := by
      rw [hindicators]
      exact List.mem_singleton_self _
    exact Std.ExtTreeMap.mem_iff_isSome_getElem?.mpr
      (Std.ExtTreeMap.mem_toList_iff_getElem?_eq_some.mp hentry ▸ rfl)
  · rw [← Mesh.owners_eq_one_iff, howners]
    decide

end HexMesh
