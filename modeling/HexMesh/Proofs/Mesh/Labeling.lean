import Mathlib.Algebra.BigOperators.Group.List.Lemmas
import Mathlib.Algebra.GroupWithZero.Nat
import Mathlib.Algebra.Ring.Nat
import Mathlib.Data.Multiset.Basic
import HexMesh.Mesh.Access
import HexMesh.Mesh.Summary
import HexMesh.Proofs.Mesh.Boundary
import HexMesh.Proofs.Mesh.WellFormed

/-!
The boundary of a mesh whose faces are labeled one by one.

A face is given by its vertices, as often as they occur in it and in no particular order.  Keys
stand for such multisets, so the tally of keys finds the faces whose vertices no other face has,
and the indicator of a face is the one that was given last to its vertices, under whatever name.
-/

namespace HexMesh

open HexMesh.Cube

/-- An indicator for a face, which is given by its vertices or by its place in the mesh. -/
inductive Labeling where
  | ofVertices (vs : List Nat) (i : Indicator)
  | ofFace (cell face : Nat) (i : Indicator)

variable {K : Type} {d : Nat}

namespace Mesh

/-- The vertices at the corners of a face of a cell; nothing where there is no such cell. -/
def verticesOn (m : Mesh K d) (cell face : Nat) : Option (List Nat) :=
  (m.cells[cell]?).map fun c => (faceCorners d face).map c.get

/-- The vertices of a face, as often as they occur in it. -/
def faceVertices (m : Mesh K d) (cell face : Nat) : Option (Multiset Nat) :=
  (m.verticesOn cell face).map Multiset.ofList

theorem faceVertices_eq_some_iff {m : Mesh K d} {cell face : Nat} {vs : List Nat} :
    m.faceVertices cell face = some (Multiset.ofList vs) ↔
      ∃ c, m.cells[cell]? = some c ∧ c.faceKey face = Key.ofList vs := by
  rw [faceVertices, verticesOn, Option.map_map, Option.map_eq_some_iff]
  refine exists_congr fun c => and_congr_right fun _ => ?_
  rw [Function.comp_apply, Multiset.coe_eq_coe, Cell.faceKey, Cell.key, Key.ofList_eq_ofList]

/-- Carry out one labeling. -/
def label (m : Mesh K d) : Labeling → Except (Fault K) (Mesh K d)
  | .ofVertices vs i => .ok (m.setIndicator vs i)
  | .ofFace cell face i => m.setFaceIndicatorAt cell face i

/-- Carry out one labeling after the other. -/
def labelAll (m : Mesh K d) (ls : List Labeling) : Except (Fault K) (Mesh K d) := ls.foldlM label m

end Mesh

namespace Labeling

def indicator : Labeling → Indicator
  | ofVertices _ i => i
  | ofFace _ _ i => i

/-- The vertices that are named; nothing for a face of a cell that the mesh does not have. -/
def named (m : Mesh K d) : Labeling → Option (List Nat)
  | ofVertices vs _ => some vs
  | ofFace cell face _ => m.verticesOn cell face

/-- The vertices that are named, in no particular order. -/
def vertices (m : Mesh K d) (l : Labeling) : Option (Multiset Nat) :=
  (l.named m).map Multiset.ofList

/-- The key under which the indicator is stored. -/
def key (m : Mesh K d) (l : Labeling) : Key := Key.ofList ((l.named m).getD [])

/-- The entries that a list of labelings makes, in the order in which they are made. -/
def entries (m : Mesh K d) (ls : List Labeling) : List (Key × Indicator) :=
  ls.map fun l => (l.key m, l.indicator)

/-- The indicator that a list of labelings gives last to some vertices; zero if none does. -/
def last (m : Mesh K d) (ls : List Labeling) (s : Multiset Nat) : Indicator :=
  ((ls.filter fun l => l.vertices m = some s).getLast?.map indicator).getD 0

variable {m m' : Mesh K d} {l : Labeling} {ls : List Labeling}

theorem named_congr (h : m.cells = m'.cells) (l : Labeling) : l.named m = l.named m' := by
  cases l with
  | ofVertices vs i => rfl
  | ofFace cell face i => rw [named, named, Mesh.verticesOn, Mesh.verticesOn, h]

theorem vertices_eq_some_iff (hl : (l.named m).isSome) {vs : List Nat} :
    l.vertices m = some (Multiset.ofList vs) ↔ l.key m = Key.ofList vs := by
  obtain ⟨ws, hws⟩ := Option.isSome_iff_exists.mp hl
  rw [vertices, key, hws, Option.map_some, Option.some_inj, Option.getD_some, Multiset.coe_eq_coe,
    Key.ofList_eq_ofList]

end Labeling

namespace Mesh

variable {m m' : Mesh K d} {l : Labeling} {ls : List Labeling}

/-! ## What is stored -/

theorem label_eq_ok_iff : m.label l = .ok m' ↔ (l.named m).isSome ∧
    m' = { m with indicators := m.indicators.insert (l.key m) l.indicator } := by
  cases l with
  | ofVertices vs i =>
    rw [label, Except.ok.injEq, eq_comm]
    exact (and_iff_right rfl).symm
  | ofFace cell face i =>
    rw [label, setFaceIndicatorAt, cellAt, Labeling.key, Labeling.named, verticesOn]
    cases m.cells[cell]? with
    | none =>
      refine iff_of_false (fun h => ?_) fun h => Bool.false_ne_true h.1
      cases h
    | some c =>
      show Except.ok (m.setFaceIndicator c face i) = Except.ok m' ↔ _
      rw [Except.ok.injEq, eq_comm]
      exact (and_iff_right rfl).symm

theorem labelAll_eq_ok_iff : m.labelAll ls = .ok m' ↔ (∀ l ∈ ls, (l.named m).isSome) ∧
    m' = { m with
      indicators := (Labeling.entries m ls).foldl (fun t e => t.insert e.1 e.2) m.indicators } := by
  induction ls generalizing m with
  | nil =>
    show Except.ok m = Except.ok m' ↔ _
    rw [Except.ok.injEq, eq_comm]
    exact (and_iff_right fun l hl => absurd hl List.not_mem_nil).symm
  | cons l rest ih =>
    -- No labeling changes the cells, so that names mean the same all along.
    have hnamed {t : KeyMap Indicator} (l : Labeling) :
        l.named { m with indicators := t } = l.named m := Labeling.named_congr rfl l
    rw [labelAll, List.foldlM_cons, bind_eq_ok_iff, List.forall_mem_cons]
    constructor
    · rintro ⟨a, ha, hrest⟩
      obtain ⟨hl, rfl⟩ := label_eq_ok_iff.mp ha
      obtain ⟨hall, rfl⟩ := ih.mp hrest
      simp only [hnamed, Labeling.entries, Labeling.key] at hall ⊢
      exact ⟨⟨hl, hall⟩, rfl⟩
    · rintro ⟨⟨hl, hrest⟩, rfl⟩
      refine ⟨_, label_eq_ok_iff.mpr ⟨hl, rfl⟩, ih.mpr ?_⟩
      simp only [hnamed, Labeling.entries, Labeling.key]
      exact ⟨hrest, rfl⟩

theorem cells_labelAll (h : m.labelAll ls = .ok m') : m'.cells = m.cells := by
  obtain ⟨-, rfl⟩ := labelAll_eq_ok_iff.mp h
  rfl

/-- Without indicators at first, a key has the one that was given last to its vertices. -/
theorem indicator_labelAll (hm : m.indicators = ∅) (h : m.labelAll ls = .ok m') (vs : List Nat) :
    m'.indicator (Key.ofList vs) = Labeling.last m ls (Multiset.ofList vs) := by
  obtain ⟨hnamed, rfl⟩ := labelAll_eq_ok_iff.mp h
  have hfilter : ls.filter (fun l => l.key m = Key.ofList vs) =
      ls.filter fun l => l.vertices m = some (Multiset.ofList vs) :=
    List.filter_congr fun l hl => by
      rw [decide_eq_decide, Labeling.vertices_eq_some_iff (hnamed l hl)]
  have hstored := KeyMap.getElem?_ofEntries_map ls (fun l => l.key m) Labeling.indicator
    (Key.ofList vs)
  rw [hfilter, KeyMap.ofEntries, ← hm] at hstored
  rw [indicator, Std.ExtTreeMap.getD_eq_getD_getElem?]
  exact congrArg (·.getD 0) hstored

/-! ## The boundary by vertices -/

theorem hasFace_ofList_iff {r : FaceRef} {vs : List Nat} : m.HasFace r (Key.ofList vs) ↔
    r.face < faceCount d ∧ m.faceVertices r.cell r.face = some (Multiset.ofList vs) := by
  rw [faceVertices_eq_some_iff, HasFace]
  constructor
  · rintro ⟨c, hc, hface, hkey⟩
    exact ⟨hface, c, hc, hkey⟩
  · rintro ⟨hface, c, hc, hkey⟩
    exact ⟨c, hc, hface, hkey⟩

/-- A face lies on the boundary if no other one has its vertices. -/
theorem mem_boundaryFaces_iff {b : BoundaryFace} : b ∈ m.boundaryFaces ↔
    b.face < faceCount d ∧ ∃ vs, m.faceVertices b.cell b.face = some (Multiset.ofList vs) ∧
      (∀ cell, ∀ face < faceCount d, (⟨cell, face⟩ : FaceRef) ≠ b.toFaceRef →
        m.faceVertices cell face ≠ some (Multiset.ofList vs)) ∧
      b.indicator = m.indicator (Key.ofList vs) := by
  have hone {r : FaceRef} {vs : List Nat} : (∀ s, m.HasFace s (Key.ofList vs) → s = r) ↔
      ∀ cell, ∀ face < faceCount d, (⟨cell, face⟩ : FaceRef) ≠ r →
        m.faceVertices cell face ≠ some (Multiset.ofList vs) := by
    simp only [hasFace_ofList_iff]
    constructor
    · exact fun h cell face hface hne hvs => hne (h ⟨cell, face⟩ ⟨hface, hvs⟩)
    · exact fun h s hs => by_contra fun hne => h s.cell s.face hs.1 hne hs.2
  rw [mem_boundaryFaces]
  constructor
  · rintro ⟨k, ⟨hface, honly⟩, hi⟩
    obtain ⟨vs, rfl⟩ : ∃ vs, Key.ofList vs = k := by
      obtain ⟨c, -, -, rfl⟩ := hface
      exact ⟨_, rfl⟩
    obtain ⟨hlt, hvs⟩ := hasFace_ofList_iff.mp hface
    exact ⟨hlt, _, hvs, hone.mp honly, hi.symm⟩
  · rintro ⟨hlt, vs, hvs, honly, hi⟩
    exact ⟨_, ⟨hasFace_ofList_iff.mpr ⟨hlt, hvs⟩, hone.mpr honly⟩, hi.symm⟩

/-! ## Counts -/

theorem mem_indicatorCounts {i : Indicator} {n : Nat} : (i, n) ∈ m.indicatorCounts.toList ↔
    0 < n ∧ m.boundaryFaces.countP (·.indicator = i) = n := by
  rw [Std.ExtTreeMap.mem_toList_iff_getElem?_eq_some, getElem?_indicatorCounts]
  split
  next hzero =>
    refine iff_of_false (fun h => nomatch h) fun h => ?_
    omega
  next hpos =>
    rw [Option.some_inj, Nat.pos_iff_ne_zero]
    exact ⟨fun h => ⟨h ▸ hpos, h⟩, fun h => h.2⟩

theorem exists_mem_indicatorCounts_iff {i : Indicator} :
    (∃ e ∈ m.indicatorCounts.toList, e.1 = i) ↔ ∃ b ∈ m.boundaryFaces, b.indicator = i := by
  have hpos : 0 < m.boundaryFaces.countP (·.indicator = i) ↔
      ∃ b ∈ m.boundaryFaces, b.indicator = i := by
    simp only [List.countP_pos_iff, decide_eq_true_eq]
  rw [← hpos]
  constructor
  · rintro ⟨⟨j, n⟩, hmem, rfl⟩
    obtain ⟨hn, rfl⟩ := mem_indicatorCounts.mp hmem
    exact hn
  · exact fun h => ⟨(i, _), mem_indicatorCounts.mpr ⟨h, rfl⟩, rfl⟩

/-- The largest indicator is the largest one that is counted, and zero if none is. -/
theorem maxIndicator_indicatorCounts (m : Mesh K d) :
    (∀ e ∈ m.indicatorCounts.toList, e.1 ≤ m.maxIndicator) ∧
      (m.indicatorCounts.toList ≠ [] → ∃ e ∈ m.indicatorCounts.toList, e.1 = m.maxIndicator) ∧
      (m.indicatorCounts.toList = [] → m.maxIndicator = 0) := by
  have hle : ∀ e ∈ m.indicatorCounts.toList, e.1 ≤ m.maxIndicator := by
    intro e he
    obtain ⟨b, hb, hi⟩ := exists_mem_indicatorCounts_iff.mp ⟨e, he, rfl⟩
    exact hi ▸ le_maxIndicator hb
  refine ⟨hle, fun hne => ?_, fun hnil => ?_⟩
  · rcases m.maxIndicator_attained with hzero | hattained
    · obtain ⟨e, he⟩ := List.exists_mem_of_ne_nil _ hne
      refine ⟨e, he, UInt32.le_antisymm (hle e he) ?_⟩
      rw [hzero]
      exact UInt32.zero_le
    · exact exists_mem_indicatorCounts_iff.mpr hattained
  · refine m.maxIndicator_attained.resolve_right fun hattained => ?_
    obtain ⟨e, he, -⟩ := exists_mem_indicatorCounts_iff.mpr hattained
    exact List.not_mem_nil (hnil ▸ he)

/-- Every boundary face is counted once. -/
theorem sum_indicatorCounts (m : Mesh K d) :
    (m.indicatorCounts.toList.map (·.2)).sum = m.boundaryFaces.length := by
  let used := m.boundaryFaces.map (·.indicator)
  have hcount (i : Indicator) : used.count i = m.boundaryFaces.countP (·.indicator = i) := by
    rw [List.count, List.countP_map]
    exact List.countP_congr fun b _ => by simp
  have hnodup : m.indicatorCounts.toList.Nodup :=
    Std.ExtTreeMap.distinct_keys_toList.imp fun hne he => hne (by rw [he, Std.compare_self])
  have hperm : m.indicatorCounts.toList.Perm (used.dedup.map fun i => (i, used.count i)) := by
    refine (List.perm_ext_iff_of_nodup hnodup (List.Nodup.map_on (fun i _ j _ he =>
      (Prod.mk.inj he).1) used.nodup_dedup)).mpr fun e => ?_
    obtain ⟨i, n⟩ := e
    rw [mem_indicatorCounts, ← hcount, List.mem_map]
    constructor
    · rintro ⟨hpos, hn⟩
      exact ⟨i, List.mem_dedup.mpr (List.count_pos_iff.mp (hn ▸ hpos)), by rw [hn]⟩
    · rintro ⟨j, hj, he⟩
      obtain ⟨rfl, rfl⟩ := Prod.mk.inj he
      exact ⟨List.count_pos_iff.mpr (List.mem_dedup.mp hj), rfl⟩
  rw [(hperm.map (·.2)).sum_eq, List.map_map]
  exact used.sum_map_count_dedup_eq_length.trans (List.length_map _)

theorem boundaryFaceCount_ofMesh (m : Mesh K d) (output : String) :
    (Summary.ofMesh m output).boundaryFaceCount = m.boundaryFaces.length := by
  rw [← sum_indicatorCounts, List.sum_eq_foldl, List.foldl_map]
  rfl

/-- The boundary of a labeled mesh.  Faces are listed in ascending order, and just those whose
vertices no other face has, each with the indicator that its vertices got last, or zero.  The
counts of the summary are those of the faces with each indicator. -/
theorem labelAll_boundaryFaces {vertices : Array (Point K d)} {cells : List (List Nat)}
    {start : Mesh K d} (hstart : ofCells vertices cells = .ok start) (ls : List Labeling) :
    ((∃ m, start.labelAll ls = .ok m) ↔ ∀ l ∈ ls, (l.vertices start).isSome) ∧
    ∀ m, start.labelAll ls = .ok m →
      m.boundaryFaces.Pairwise (fun b c => b.toFaceRef.Before c.toFaceRef) ∧
      m.boundaryFaces.Nodup ∧
      (∀ b, b ∈ m.boundaryFaces ↔
        b.face < 2 * d ∧ ∃ s, start.faceVertices b.cell b.face = some s ∧
          (∀ cell, ∀ face < 2 * d, (⟨cell, face⟩ : FaceRef) ≠ b.toFaceRef →
            start.faceVertices cell face ≠ some s) ∧
          b.indicator = Labeling.last start ls s) ∧
      ∀ output, let counts := (Summary.ofMesh m output).boundaryCounts
        (∀ i n, (i, n) ∈ counts ↔ 0 < n ∧ m.boundaryFaces.countP (·.indicator = i) = n) ∧
        (counts.map (·.2)).sum = m.boundaryFaces.length ∧
        (Summary.ofMesh m output).boundaryFaceCount = m.boundaryFaces.length ∧
        (∀ e ∈ counts, e.1 ≤ m.maxIndicator) ∧
        (counts ≠ [] → ∃ e ∈ counts, e.1 = m.maxIndicator) ∧
        (counts = [] → m.maxIndicator = 0) := by
  obtain ⟨-, hm, -⟩ := ofCells_eq_ok_iff.mp hstart
  refine ⟨⟨fun h => ?_, fun h => ⟨_, labelAll_eq_ok_iff.mpr ⟨?_, rfl⟩⟩⟩, fun m h => ?_⟩
  · obtain ⟨m, h⟩ := h
    simpa only [Labeling.vertices, Option.isSome_map] using (labelAll_eq_ok_iff.mp h).1
  · simpa only [Labeling.vertices, Option.isSome_map] using h
  · have hvertices (cell face : Nat) : m.faceVertices cell face = start.faceVertices cell face := by
      rw [faceVertices, faceVertices, verticesOn, verticesOn, cells_labelAll h]
    refine ⟨m.pairwise_boundaryFaces, m.nodup_boundaryFaces, fun b => ?_, fun output => ?_⟩
    · have hlists : Function.Surjective (Multiset.ofList (α := Nat)) := Quot.mk_surjective
      simp only [mem_boundaryFaces_iff, hvertices, hlists.exists]
      refine and_congr_right fun _ => exists_congr fun vs => and_congr_right fun _ =>
        and_congr_right fun _ => ?_
      rw [indicator_labelAll (by rw [hm]) h]
    · exact ⟨fun i n => mem_indicatorCounts, m.sum_indicatorCounts,
        m.boundaryFaceCount_ofMesh output, m.maxIndicator_indicatorCounts⟩

/-- A square, and a cell that is folded onto the lower side of the square. -/
def folded : Mesh Float 2 :=
  { vertices := #[.xy 1 0, .xy 0 1, .xy 1 1, .xy 0 0]
    cells := [#v[3, 0, 1, 2], #v[3, 3, 0, 0]] }

/-- The left side of the square gets two indicators, one after the other, and two more go to the
side on which both cells lie and to one end of the folded cell. -/
def foldedLabels : List Labeling :=
  [.ofFace 0 0 2, .ofVertices [0, 3] 4, .ofVertices [1, 3] 9, .ofVertices [3, 3] 3]

theorem labelAll_boundaryFaces_folded :
    ofCells folded.vertices [[3, 0, 1, 2], [3, 3, 0, 0]] = .ok folded ∧
      (∀ l ∈ foldedLabels, (l.vertices folded).isSome) ∧
      ∃ m, folded.labelAll foldedLabels = .ok m ∧
        m.boundaryFaces =
          [⟨⟨0, 0⟩, 9⟩, ⟨⟨0, 1⟩, 0⟩, ⟨⟨0, 3⟩, 0⟩, ⟨⟨1, 2⟩, 3⟩, ⟨⟨1, 3⟩, 0⟩] ∧
        (∃ s, folded.faceVertices 0 0 = some s ∧ Labeling.last folded foldedLabels s = 9) ∧
        ((Summary.ofMesh m "folded.eps").boundaryCounts.map (·.2)).sum = 5 := by
  have hstart : ofCells folded.vertices [[3, 0, 1, 2], [3, 3, 0, 0]] = .ok folded := rfl
  have hlabels : ∀ l ∈ foldedLabels, (l.vertices folded).isSome := by decide
  obtain ⟨hruns, hrun⟩ := labelAll_boundaryFaces hstart foldedLabels
  obtain ⟨m, hm⟩ := hruns.mpr hlabels
  have hlisted : m.boundaryFaces =
      [⟨⟨0, 0⟩, 9⟩, ⟨⟨0, 1⟩, 0⟩, ⟨⟨0, 3⟩, 0⟩, ⟨⟨1, 2⟩, 3⟩, ⟨⟨1, 3⟩, 0⟩] := by
    have hlist : (folded.labelAll foldedLabels).toOption.map boundaryFaces =
        some [⟨⟨0, 0⟩, 9⟩, ⟨⟨0, 1⟩, 0⟩, ⟨⟨0, 3⟩, 0⟩, ⟨⟨1, 2⟩, 3⟩, ⟨⟨1, 3⟩, 0⟩] := by
      decide +kernel
    rw [hm] at hlist
    exact Option.some.inj hlist
  obtain ⟨-, -, hfaces, hcounts⟩ := hrun m hm
  have hleft : (⟨⟨0, 0⟩, 9⟩ : BoundaryFace) ∈ m.boundaryFaces := by
    rw [hlisted]
    exact List.mem_cons_self
  obtain ⟨-, s, hs, -, hlast⟩ := (hfaces _).mp hleft
  refine ⟨hstart, hlabels, m, hm, hlisted, ⟨s, hs, hlast.symm⟩, ?_⟩
  rw [(hcounts "folded.eps").2.1, hlisted]
  rfl

end Mesh
end HexMesh
