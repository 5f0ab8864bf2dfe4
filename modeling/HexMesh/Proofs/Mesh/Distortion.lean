import HexMesh.Proofs.Geometry.Length
import HexMesh.Proofs.Mesh.WellFormed
import HexMesh.Proofs.Picture.Lines

/-!
Which vertices a distortion moves, and how far.

The table of shortest edges is filled edge by edge, so that the entry of a vertex only depends
on the edges that end there.  A distortion then visits the vertices in ascending order.  Its
invariant names the free vertices visited so far: the one of rank `k` among them was moved by
the words from `k * d` on, each of the others is where it was, and `d` words were taken for
each.  As no vertex is visited twice, a move starts from the place the vertex had in the mesh.
-/

namespace HexMesh

open HexMesh.Cube

namespace Mesh

/-! ## Shortest edges -/

section Shortest

variable {K : Type} {d : Nat} [Scalar K] [SquareRoot K] {m : Mesh K d}

/-- Both ends of every edge of every cell, with the length of the edge. -/
def edgeEnds (m : Mesh K d) : List (Nat × K) :=
  (m.cells.flatMap Cell.edges).flatMap fun (a, b) =>
    let length := (m.position a).distance (m.position b)
    [(a, length), (b, length)]

/-- The lengths of the edges that end in a vertex. -/
def lengthsAt (m : Mesh K d) (v : Nat) : List K := (m.edgeEnds.filter (·.1 == v)).map (·.2)

/-- The length of the shortest edge that ends in a vertex, if one of them has a length. -/
def shortestAt (m : Mesh K d) (v : Nat) : Option K := (m.lengthsAt v).foldl shorter none

omit [SquareRoot K] in
/-- An entry of a table only meets the lengths that are meant for it. -/
theorem getElem?_foldl_shorter (ends : List (Nat × K)) (table : Array (Option K)) (v : Nat) :
    (ends.foldl (fun table e => table.modify e.1 (shorter · e.2)) table)[v]? =
      table[v]?.map (((ends.filter (·.1 == v)).map (·.2)).foldl shorter) := by
  induction ends generalizing table with
  | nil => simp
  | cons e rest ih =>
    rw [List.foldl_cons, ih, Array.getElem?_modify]
    by_cases he : e.1 = v
    · rw [if_pos he, List.filter_cons_of_pos (by simpa using he), Option.map_map]
      rfl
    · rw [if_neg he, List.filter_cons_of_neg (by simpa using he)]

theorem toList_shortestEdges (m : Mesh K d) :
    m.shortestEdges.toList = (List.range m.vertices.size).map m.shortestAt := by
  have hends : m.shortestEdges = m.edgeEnds.foldl
      (fun table e => table.modify e.1 (shorter · e.2)) (Array.replicate m.vertices.size none) := by
    rw [edgeEnds, List.foldl_flatMap]
    rfl
  refine List.ext_getElem? fun v => ?_
  rw [Array.getElem?_toList, hends, getElem?_foldl_shorter, Array.getElem?_replicate,
    List.getElem?_map]
  by_cases hv : v < m.vertices.size
  · rw [if_pos hv, List.getElem?_range hv]
    rfl
  · rw [if_neg hv, List.getElem?_eq_none (by simpa using hv)]
    rfl

omit [SquareRoot K] in
theorem isSome_foldl_shorter (lengths : List K) (known : Option K) :
    (lengths.foldl shorter known).isSome = (known.isSome || lengths.any Scalar.isFinite) := by
  induction lengths generalizing known with
  | nil => simp
  | cons l rest ih =>
    rw [List.foldl_cons, ih, List.any_cons, ← Bool.or_assoc]
    congr 1
    unfold shorter
    split
    case isTrue hfinite => rw [hfinite, Bool.or_true, Option.isSome_some]
    case isFalse hinfinite => rw [Bool.eq_false_of_not_eq_true hinfinite, Bool.or_false]

theorem mem_edgeEnds {v : Nat} {l : K} :
    (v, l) ∈ m.edgeEnds ↔ ∃ c ∈ m.cells, ∃ (u : Corner d) (axis : Fin d), u.high axis = false ∧
      (c.get u = v ∨ c.get (u.flip axis) = v) ∧
      l = (m.position (c.get u)).distance (m.position (c.get (u.flip axis))) := by
  simp only [edgeEnds, List.mem_flatMap, Cell.edges, List.mem_map, List.mem_cons,
    List.not_mem_nil, or_false, Prod.mk.injEq]
  constructor
  · rintro ⟨_, ⟨c, hc, ⟨u, w⟩, he, rfl⟩, hend⟩
    obtain ⟨axis, hlow, rfl⟩ := Cube.mem_edges.mp he
    refine ⟨c, hc, u, axis, hlow, ?_⟩
    rcases hend with ⟨rfl, rfl⟩ | ⟨rfl, rfl⟩
    · exact ⟨Or.inl rfl, rfl⟩
    · exact ⟨Or.inr rfl, rfl⟩
  · rintro ⟨c, hc, u, axis, hlow, hend, rfl⟩
    refine ⟨_, ⟨c, hc, _, Cube.mem_edges.mpr ⟨axis, hlow, rfl⟩, rfl⟩, ?_⟩
    exact hend.imp (fun h => ⟨h.symm, rfl⟩) fun h => ⟨h.symm, rfl⟩

theorem mem_lengthsAt {v : Nat} {l : K} : l ∈ m.lengthsAt v ↔ (v, l) ∈ m.edgeEnds := by
  simp only [lengthsAt, List.mem_map, List.mem_filter, beq_iff_eq]
  constructor
  · rintro ⟨e, ⟨he, rfl⟩, rfl⟩
    exact he
  · exact fun h => ⟨_, ⟨h, rfl⟩, rfl⟩

/-- No edge ends in an unused vertex. -/
theorem lengthsAt_of_unused {v : Nat} (hv : ∀ c ∈ m.cells, v ∉ c.toList) : m.lengthsAt v = [] := by
  refine List.eq_nil_iff_forall_not_mem.mpr fun l hl => ?_
  obtain ⟨c, hc, u, axis, -, hend, -⟩ := mem_edgeEnds.mp (mem_lengthsAt.mp hl)
  rcases hend with rfl | rfl
  · exact hv c hc (c.get_mem _)
  · exact hv c hc (c.get_mem _)

end Shortest

/-! ## The free vertices -/

section Free

variable {K : Type} {d : Nat} [Scalar K] [SquareRoot K] {m : Mesh K d}

/-- Whether a distortion moves a vertex: some edge of finite length ends there, and it need not
stay on the boundary. -/
def isFree (m : Mesh K d) (keepBoundary : Bool) (v : Nat) : Bool :=
  (m.lengthsAt v).any Scalar.isFinite && !(m.fixedVertices keepBoundary).contains v

/-- The vertices that a distortion moves, in ascending order. -/
def freeVertices (m : Mesh K d) (keepBoundary : Bool) : List Nat :=
  (List.range m.vertices.size).filter (m.isFree keepBoundary)

theorem isFree_eq (m : Mesh K d) (keepBoundary : Bool) (v : Nat) :
    m.isFree keepBoundary v =
      ((m.shortestAt v).isSome && !(m.fixedVertices keepBoundary).contains v) := by
  rw [isFree, shortestAt, isSome_foldl_shorter, Option.isSome_none, Bool.false_or]

theorem exists_shortestAt {keepBoundary : Bool} {v : Nat} (hv : m.isFree keepBoundary v = true) :
    ∃ len, m.shortestAt v = some len := by
  rw [isFree_eq, Bool.and_eq_true] at hv
  exact Option.isSome_iff_exists.mp hv.1

theorem isFree_of_unused {v : Nat} (hv : ∀ c ∈ m.cells, v ∉ c.toList) (keepBoundary : Bool) :
    m.isFree keepBoundary v = false := by
  rw [isFree, lengthsAt_of_unused hv, List.any_nil, Bool.false_and]

theorem isFree_of_mem_fixedVertices {keepBoundary : Bool} {v : Nat}
    (hv : v ∈ m.fixedVertices keepBoundary) : m.isFree keepBoundary v = false := by
  rw [isFree, Std.ExtTreeSet.contains_iff_mem.mpr hv, Bool.not_true, Bool.and_false]

end Free

/-! ## Moving them -/

section Moving

variable {K : Type} {d : Nat} [Scalar K] [SquareRoot K] {m : Mesh K d} {factor : K}
  {keepBoundary : Bool} {words : WordStream} {s : Distorting K d} {free : List Nat} {v : Nat}

/-- On its way the distortion has moved just these vertices, one after the other. -/
structure Distorting.HasMoved (m : Mesh K d) (factor : K) (words : WordStream) (free : List Nat)
    (s : Distorting K d) : Prop where
  taken : s.taken = free.length * d
  kept : ∀ v ∉ free, s.mesh.vertices[v]? = m.vertices[v]?
  moved : ∀ k v len, free[k]? = some v → m.shortestAt v = some len →
    s.mesh.vertices[v]? = m.vertices[v]?.map fun p =>
      displace p (drawnShift d words (k * d)) (factor * len)

theorem Distorting.HasMoved.visit {len : K} (h : s.HasMoved m factor words free) (hv : v ∉ free)
    (hlen : m.shortestAt v = some len) :
    HasMoved m factor words (free ++ [v])
      { mesh := s.mesh.modifyVertex v fun p =>
          displace p (drawnShift d words s.taken) (factor * len)
        taken := s.taken + d } where
  taken := by rw [h.taken, List.length_append, List.length_singleton, Nat.succ_mul]
  kept u hu := by
    obtain ⟨hfree, hne⟩ := not_or.mp fun hmem => hu (List.mem_append.mpr hmem)
    rw [List.mem_singleton] at hne
    rw [← h.kept u hfree]
    exact Array.getElem?_modify.trans (if_neg (Ne.symm hne))
  moved k u l hu hl := by
    refine Array.getElem?_modify.trans ?_
    rcases Nat.lt_or_ge k free.length with hk | hk
    · rw [List.getElem?_append_left hk] at hu
      -- An earlier vertex is another one, and is not moved again.
      have hne : v ≠ u := fun hsame => hv (hsame ▸ List.mem_of_getElem? hu)
      rw [if_neg hne, h.moved k u l hu hl]
    · rw [List.getElem?_append_right hk] at hu
      have hlast : k = free.length := by
        have hlt := (List.getElem?_eq_some_iff.mp hu).1
        rw [List.length_singleton] at hlt
        omega
      rw [hlast, Nat.sub_self, List.getElem?_cons_zero, Option.some.injEq] at hu
      subst hu hlast
      cases hlen.symm.trans hl
      rw [if_pos rfl, h.kept v hv, h.taken]

theorem visit_of_isFree {len : K} (hfree : m.isFree keepBoundary v = true)
    (hlen : m.shortestAt v = some len) :
    s.visit factor (m.fixedVertices keepBoundary) words (m.shortestAt v, v) =
      { mesh := s.mesh.modifyVertex v fun p =>
          displace p (drawnShift d words s.taken) (factor * len)
        taken := s.taken + d } := by
  rw [isFree_eq, Bool.and_eq_true, Bool.not_eq_true'] at hfree
  rw [hlen]
  exact if_neg (Bool.not_eq_true _ ▸ hfree.2)

theorem visit_of_not_isFree (hfree : m.isFree keepBoundary v = false) :
    s.visit factor (m.fixedVertices keepBoundary) words (m.shortestAt v, v) = s := by
  rw [isFree_eq] at hfree
  cases hlen : m.shortestAt v with
  | none => rfl
  | some len =>
    rw [hlen, Option.isSome_some, Bool.true_and, Bool.not_eq_false'] at hfree
    exact if_pos hfree

/-- After the first vertices were visited, the free ones among them have moved. -/
theorem hasMoved_foldl (m : Mesh K d) (factor : K) (keepBoundary : Bool) (words : WordStream)
    (n : Nat) :
    let visit (s : Distorting K d) (v : Nat) :=
      s.visit factor (m.fixedVertices keepBoundary) words (m.shortestAt v, v)
    ((List.range n).foldl visit ⟨m, 0⟩).HasMoved m factor words
      ((List.range n).filter (m.isFree keepBoundary)) := by
  intro visit
  induction n with
  | zero =>
    exact ⟨(Nat.zero_mul d).symm, fun _ _ => rfl, fun k v len hv => absurd hv (by simp)⟩
  | succ n ih =>
    rw [List.range_succ, List.foldl_append, List.foldl_cons, List.foldl_nil, List.filter_append]
    cases hfree : m.isFree keepBoundary n with
    | false =>
      rw [List.filter_cons_of_neg (by simp [hfree]), List.filter_nil, List.append_nil]
      simp only [visit, visit_of_not_isFree hfree]
      exact ih
    | true =>
      obtain ⟨len, hlen⟩ := exists_shortestAt hfree
      rw [List.filter_cons_of_pos hfree, List.filter_nil]
      simp only [visit, visit_of_isFree hfree hlen]
      exact ih.visit (by simp) hlen

theorem hasMoved_distorting (m : Mesh K d) (factor : K) (keepBoundary : Bool)
    (words : WordStream) :
    (m.distorting factor keepBoundary words).HasMoved m factor words
      (m.freeVertices keepBoundary) := by
  have hentries : m.shortestEdges.toList.zipIdx =
      (List.range m.vertices.size).map fun v => (m.shortestAt v, v) := by
    rw [toList_shortestEdges]
    exact List.ext_getElem (by simp) fun i _ _ => by simp
  unfold distorting
  rw [hentries, List.foldl_map]
  exact m.hasMoved_foldl factor keepBoundary words m.vertices.size

theorem position_distort {k : Nat} {len : K} (hv : (m.freeVertices keepBoundary)[k]? = some v)
    (hlen : m.shortestAt v = some len) :
    (m.distort factor keepBoundary words).position v =
      displace (m.position v) (drawnShift d words (k * d)) (factor * len) := by
  have hmem : v < m.vertices.size :=
    List.mem_range.mp (List.mem_filter.mp (List.mem_of_getElem? hv)).1
  have hmoved := (m.hasMoved_distorting factor keepBoundary words).moved k v len hv hlen
  rw [Array.getElem?_eq_getElem hmem] at hmoved
  rw [position, position, distort, hmoved, Array.getElem?_eq_getElem hmem]
  rfl

end Moving

/-! ## Exact lengths -/

section Exact

variable {K : Type} {d : Nat} [Field K] [LinearOrder K]

theorem foldl_shorter_some (lengths : List K) (known : K) :
    lengths.foldl shorter (some known) = some (lengths.foldl min known) := by
  induction lengths generalizing known with
  | nil => rfl
  | cons l rest ih => exact ih (min known l)

theorem foldl_shorter_none (lengths : List K) : lengths.foldl shorter none = lengths.min? := by
  cases lengths with
  | nil => rfl
  | cons l rest => exact foldl_shorter_some rest l

variable [SquareRoot K] {m : Mesh K d} {v : Nat}

theorem mem_lengthsAt_iff_joins {l : K} :
    l ∈ m.lengthsAt v ↔ ∃ w, m.Joins v w ∧ l = (m.position v).distance (m.position w) := by
  rw [mem_lengthsAt, mem_edgeEnds]
  constructor
  · rintro ⟨c, hc, u, axis, -, rfl | rfl, rfl⟩
    · exact ⟨_, ⟨c, hc, u, axis, rfl, rfl⟩, rfl⟩
    · refine ⟨c.get u, ⟨c, hc, u.flip axis, axis, rfl, ?_⟩, Point.distance_comm _ _⟩
      rw [Corner.flip_flip]
  · rintro ⟨_, ⟨c, hc, u, axis, rfl, rfl⟩, rfl⟩
    cases hu : u.high axis with
    | false => exact ⟨c, hc, u, axis, hu, Or.inl rfl, rfl⟩
    | true =>
      refine ⟨c, hc, u.flip axis, axis, by rw [Corner.high_flip_self, hu]; rfl, Or.inr ?_, ?_⟩
      · rw [Corner.flip_flip]
      · rw [Corner.flip_flip, Point.distance_comm]

/-- The entry of a vertex is the length of the shortest edge that ends there. -/
theorem isLeast_of_shortestAt {len : K} (hlen : m.shortestAt v = some len) :
    IsLeast {l | ∃ w, m.Joins v w ∧ l = (m.position v).distance (m.position w)} len := by
  rw [shortestAt, foldl_shorter_none, List.min?_eq_some_iff] at hlen
  refine ⟨mem_lengthsAt_iff_joins.mp hlen.1, fun l hl => hlen.2 l ?_⟩
  exact mem_lengthsAt_iff_joins.mpr hl

/-- Just the vertices of cells are free, except those that have to stay. -/
theorem isFree_iff (hd : 0 < d) {keepBoundary : Bool} :
    m.isFree keepBoundary v = true ↔
      (∃ c ∈ m.cells, v ∈ c.toList) ∧ v ∉ m.fixedVertices keepBoundary := by
  constructor
  · intro hv
    refine ⟨?_, fun hfixed => ?_⟩
    · by_contra hunused
      rw [isFree_of_unused (fun c hc hmem => hunused ⟨c, hc, hmem⟩)] at hv
      cases hv
    · rw [isFree_of_mem_fixedVertices hfixed] at hv
      cases hv
  · rintro ⟨⟨c, hc, hv⟩, hfixed⟩
    obtain ⟨u, rfl⟩ := Cell.mem_toList_iff.mp hv
    have hlength := mem_lengthsAt_iff_joins.mpr ⟨_, ⟨c, hc, u, ⟨0, hd⟩, rfl, rfl⟩, rfl⟩
    rw [isFree, Bool.and_eq_true, Bool.not_eq_true', Bool.eq_false_iff]
    exact ⟨List.any_eq_true.mpr ⟨_, hlength, rfl⟩,
      fun hmem => hfixed (Std.ExtTreeSet.contains_iff_mem.mp hmem)⟩

theorem freeVertices_eq_filter (hd : 0 < d) (keepBoundary : Bool) :
    m.freeVertices keepBoundary = (List.range m.vertices.size).filter fun v =>
      (∃ c ∈ m.cells, v ∈ c.toList) ∧ v ∉ m.fixedVertices keepBoundary :=
  List.filter_congr fun _ _ => Bool.eq_iff_iff.mpr ((isFree_iff hd).trans decide_eq_true_iff.symm)

end Exact

section Real

variable {d : Nat}

theorem distance_displace_origin {p shift : Point ℝ d} {reach : ℝ} (h : shift = Point.origin) :
    (displace p shift reach).distance p = 0 := by
  have hnorm : (shift.norm == ((0 : Nat) : ℝ)) = true := by
    rw [beq_iff_eq, Nat.cast_zero]
    exact Point.norm_eq_zero.mpr h
  rw [displace, if_pos hnorm, Point.distance_self]

theorem distance_displace {p shift : Point ℝ d} {reach : ℝ} (h : shift ≠ Point.origin) :
    (displace p shift reach).distance p = |reach| := by
  have hlength : shift.norm ≠ 0 := fun hzero => h (Point.norm_eq_zero.mp hzero)
  have hnorm : ¬(shift.norm == ((0 : Nat) : ℝ)) = true := by
    rw [beq_iff_eq, Nat.cast_zero]
    exact hlength
  rw [displace, if_neg hnorm, Point.distance, Point.add_sub_self, Point.norm_scale, abs_div,
    abs_of_nonneg shift.norm_nonneg, div_mul_cancel₀ _ hlength]

theorem shortestAt_nonneg {m : Mesh ℝ d} {v : Nat} {len : ℝ} (hlen : m.shortestAt v = some len) :
    0 ≤ len := by
  obtain ⟨⟨w, -, rfl⟩, -⟩ := isLeast_of_shortestAt hlen
  exact Point.norm_nonneg _

end Real

/-- A distortion moves the free vertices only, in ascending order.  Each takes the next `d`
words of the stream for its shift, whether that has a length or not, and goes along it by the
given factor of the length that its shortest edge had in the mesh before.  With real numbers
this is the distance it covers. -/
theorem distort_freeVertices :
    (∀ (K : Type) [Scalar K] [SquareRoot K] (d : Nat) (m : Mesh K d) (factor : K)
      (keepBoundary : Bool) (words : WordStream),
      let free := m.freeVertices keepBoundary
      let after := m.distort factor keepBoundary words
      after.cells = m.cells ∧ after.indicators = m.indicators ∧ after.shapes = m.shapes ∧
      after.vertices.size = m.vertices.size ∧
      (∀ v, (∀ c ∈ m.cells, v ∉ c.toList) ∨ keepBoundary = true ∧ v ∈ m.boundaryVertices →
        v ∉ free) ∧
      (∀ v ∉ free, after.vertices[v]? = m.vertices[v]?) ∧
      (m.distorting factor keepBoundary words).taken = free.length * d ∧
      ∀ k v, free[k]? = some v → ∃ len, m.shortestAt v = some len ∧
        let shift : Point K d := Point.ofFn fun a => signedUnit (words (k * d + a))
        after.position v =
          if shift.norm == ((0 : Nat) : K) then m.position v
          else m.position v + shift.scale (factor * len / shift.norm)) ∧
    ∀ (d : Nat) (m : Mesh ℝ d) (factor : ℝ) (keepBoundary : Bool) (words : WordStream) (k v : Nat),
      (m.freeVertices keepBoundary)[k]? = some v →
      ∃ len, m.shortestAt v = some len ∧
        IsLeast {l | ∃ w, m.Joins v w ∧
          l = √(∑ a, ((m.position v).coords.get a - (m.position w).coords.get a) ^ 2)} len ∧
        let after := (m.distort factor keepBoundary words).position v
        let moved := √(∑ a, (after.coords.get a - (m.position v).coords.get a) ^ 2)
        let shift : Point ℝ d := Point.ofFn fun a => signedUnit (words (k * d + a))
        (shift = Point.origin → moved = 0) ∧ (shift ≠ Point.origin → moved = |factor| * len) := by
  constructor
  · intro K _ _ d m factor keepBoundary words free after
    obtain ⟨vertices, hsize, hafter⟩ := m.exists_distort factor keepBoundary words
    have hmoved := m.hasMoved_distorting factor keepBoundary words
    have hsame : after = { m with vertices } := hafter
    refine ⟨by rw [hsame], by rw [hsame], by rw [hsame], by rw [hsame]; exact hsize, ?_,
      hmoved.kept, hmoved.taken, fun k v hv => ?_⟩
    · intro v hstays hfree
      have hv := (List.mem_filter.mp hfree).2
      rcases hstays with hunused | ⟨rfl, hboundary⟩
      · rw [isFree_of_unused hunused] at hv
        cases hv
      · rw [isFree_of_mem_fixedVertices hboundary] at hv
        cases hv
    · obtain ⟨len, hlen⟩ :=
        exists_shortestAt (List.mem_filter.mp (List.mem_of_getElem? hv)).2
      exact ⟨len, hlen, position_distort hv hlen⟩
  · intro d m factor keepBoundary words k v hv
    obtain ⟨len, hlen⟩ := exists_shortestAt (List.mem_filter.mp (List.mem_of_getElem? hv)).2
    simp only [← Point.distance_eq]
    refine ⟨len, hlen, isLeast_of_shortestAt hlen, ?_⟩
    have hreach : |factor * len| = |factor| * len := by
      rw [abs_mul, abs_of_nonneg (shortestAt_nonneg hlen)]
    rw [position_distort hv hlen, ← hreach]
    exact ⟨fun hshift => distance_displace_origin hshift, fun hshift => distance_displace hshift⟩

/-- Six squares around two inner vertices, and a vertex that none of them uses. -/
noncomputable def patch : Mesh ℝ 2 :=
  { vertices := #[.xy 0 0, .xy 1 1, .xy 4 1, .xy 1 0, .xy 4 0, .xy 5 0, .xy 0 1, .xy 5 1, .xy 0 4,
      .xy 1 4, .xy 4 4, .xy 5 4, .xy 9 9]
    cells := [#v[0, 3, 6, 1], #v[3, 4, 1, 2], #v[4, 5, 2, 7], #v[6, 1, 8, 9], #v[1, 2, 9, 10],
      #v[2, 7, 10, 11]] }

/-- The stream of nothing but zeros, which are the lowest coordinates that a shift can have. -/
def zeros : WordStream := fun _ => 0

theorem distort_freeVertices_patch :
    (∀ c ∈ patch.cells, 12 ∉ c.toList) ∧ (true = true ∧ 0 ∈ patch.boundaryVertices) ∧
      12 ∉ patch.freeVertices true ∧ 0 ∉ patch.freeVertices true ∧
      (patch.distort 3 true zeros).vertices[0]? = some (.xy 0 0) ∧
      (patch.freeVertices true)[1]? = some 2 ∧ (patch.distorting 3 true zeros).taken = 4 ∧
      (Point.ofFn fun a : Fin 2 => signedUnit (zeros (1 * 2 + a)) : Point ℝ 2) ≠ .origin ∧
      ∃ len, patch.shortestAt 2 = some len ∧
        √(∑ a, (((patch.distort 3 true zeros).position 2).coords.get a -
          (patch.position 2).coords.get a) ^ 2) = |3| * len := by
  have hunused : ∀ c ∈ patch.cells, 12 ∉ c.toList := by decide
  have hboundary : 0 ∈ patch.boundaryVertices := by decide +kernel
  have hfree : patch.freeVertices true = [1, 2] :=
    (freeVertices_eq_filter (by decide) true).trans (by decide +kernel)
  have hrank : (patch.freeVertices true)[1]? = some 2 := by rw [hfree]; rfl
  have hshift : (Point.ofFn fun a : Fin 2 => signedUnit (zeros (1 * 2 + a)) : Point ℝ 2) ≠
      .origin := by
    intro h
    have hfirst := congrArg (fun p => p.coords.get 0) h
    rw [Point.get_ofFn, Point.get_origin] at hfirst
    norm_num [signedUnit, zeros, Scalar.ratio] at hfirst
  obtain ⟨hall, hreal⟩ := distort_freeVertices
  obtain ⟨-, -, -, -, hstays, hkept, htaken, -⟩ := hall ℝ 2 patch 3 true zeros
  obtain ⟨len, hlen, -, -, hmoved⟩ := hreal 2 patch 3 true zeros 1 2 hrank
  have hstill := hstays 0 (Or.inr ⟨rfl, hboundary⟩)
  exact ⟨hunused, ⟨rfl, hboundary⟩, hstays 12 (Or.inl hunused), hstill, hkept 0 hstill, hrank,
    htaken.trans (by rw [hfree]; rfl), hshift, len, hlen, hmoved hshift⟩

end Mesh
end HexMesh
