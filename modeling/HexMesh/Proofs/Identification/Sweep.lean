import HexMesh.Mesh.Identification
import Mathlib.Data.List.Nodup

/-!
What the sweep keeps, whatever arithmetic the coordinates have.

A vertex is reassigned only while it stands for itself and has not been visited, and
only to the vertex that is being visited.  So whatever stands for another vertex
stands for itself and is behind the sweep, where nothing is reassigned any more.
`Identification.Sound` is this invariant, with the vertices still to be visited as a
parameter.
-/

namespace HexMesh

namespace Identification

/-! ## Single assignments -/

theorem of_discrete (n v : Nat) : (discrete n).of v = v := by
  show (Array.range n).getD v v = v
  rw [Array.getD_eq_getD_getElem?, Array.getElem?_range]
  split <;> rfl

theorem size_assign (r : Identification) (a b : Nat) :
    (r.assign a b).representative.size = r.representative.size :=
  Array.size_setIfInBounds

theorem of_assign {r : Identification} {a b v : Nat} (hb : b < r.representative.size) :
    (r.assign a b).of v = if v = b then a else r.of v := by
  rw [assign, of, of, Array.getD_eq_getD_getElem?, Array.getD_eq_getD_getElem?,
    Array.getElem?_setIfInBounds]
  by_cases hv : v = b
  · subst hv
    rw [if_pos rfl, if_pos rfl, if_pos hb]
    rfl
  · rw [if_neg (Ne.symm hv), if_neg hv]

theorem survives_iff {r : Identification} {v : Nat} : r.survives v = true ↔ r.of v = v := beq_iff_eq

/-! ## Survivors and their places -/

theorem mem_survivors {r : Identification} {v : Nat} :
    v ∈ r.survivors ↔ v < r.representative.size ∧ r.of v = v := by
  rw [survivors, List.mem_filter, List.mem_range, survives_iff]

theorem pairwise_survivors (r : Identification) : r.survivors.Pairwise (· < ·) :=
  List.pairwise_lt_range.filter _

theorem length_survivors_le (r : Identification) :
    r.survivors.length ≤ r.representative.size := by
  have hle := List.length_filter_le r.survives (List.range r.representative.size)
  rwa [List.length_range] at hle

theorem survivors_eq_range {r : Identification}
    (h : r.representative.size ≤ r.survivors.length) :
    r.survivors = List.range r.representative.size := by
  refine List.filter_sublist.eq_of_length_le ?_
  rw [List.length_range]
  exact h

/-- The entries that are written to the places of a list hold their places in it. -/
theorem getElem?_foldl_place {vs : List Nat} (hvs : vs.Nodup) (k : Nat) (t : Array Nat) (v : Nat) :
    ((vs.zipIdx k).foldl (fun t e => t.setIfInBounds e.1 e.2) t)[v]? =
      if v ∈ vs ∧ v < t.size then some (k + vs.idxOf v) else t[v]? := by
  induction vs generalizing k t with
  | nil => simp
  | cons w rest ih =>
    obtain ⟨hw, hrest⟩ := List.nodup_cons.mp hvs
    rw [List.zipIdx_cons, List.foldl_cons, ih hrest, Array.size_setIfInBounds,
      Array.getElem?_setIfInBounds]
    by_cases hv : v = w
    · subst hv
      by_cases hsize : v < t.size
      · simp [hw, hsize]
      · simp [hw, hsize]
    · simp only [List.mem_cons, hv, Ne.symm hv, false_or, if_false,
        List.idxOf_cons_ne _ (Ne.symm hv)]
      split <;> simp [Nat.add_assoc, Nat.add_comm 1]

theorem getD_renumbering {r : Identification} {v : Nat} (hv : v < r.representative.size)
    (hmem : r.of v ∈ r.survivors) : r.renumbering.getD v 0 = r.survivors.idxOf (r.of v) := by
  have hnodup : r.survivors.Nodup := r.pairwise_survivors.imp fun h => Nat.ne_of_lt h
  have hof : r.representative[v]? = some (r.of v) := by
    rw [of, Array.getD_eq_getD_getElem?, Array.getElem?_eq_getElem hv]
    rfl
  have hlt := (mem_survivors.mp hmem).1
  rw [renumbering, Array.getD_eq_getD_getElem?, Array.getElem?_map, hof]
  show (Array.getD _ (r.of v) 0) = _
  rw [Array.getD_eq_getD_getElem?, getElem?_foldl_place hnodup, if_pos ⟨hmem, by simpa using hlt⟩,
    Nat.zero_add]
  rfl

/-! ## The invariant of the sweep -/

variable {K : Type} [Scalar K] {d : Nat} {m : Mesh K d} {tol : K} {a : Nat} {later : List Nat}
  {r : Identification}

/-- What holds while some vertices are still to be visited: every vertex is near to the one
that stands for it, and what stands for another vertex stands for itself and is not
visited again. -/
structure Sound (m : Mesh K d) (tol : K) (later : List Nat) (r : Identification) : Prop where
  size : r.representative.size = m.vertices.size
  lt : ∀ v < m.vertices.size, r.of v < m.vertices.size
  near : ∀ v, r.of v = v ∨ m.close tol (r.of v) v = true
  settled : ∀ v, r.of v ≠ v → r.of (r.of v) = r.of v ∧ r.of v ∉ later

theorem Sound.of_of (h : Sound m tol later r) (v : Nat) : r.of (r.of v) = r.of v := by
  by_cases hv : r.of v = v
  · rw [hv, hv]
  · exact (h.settled v hv).1

theorem Sound.of_mem_survivors (h : Sound m tol later r) {v : Nat} (hv : v < m.vertices.size) :
    r.of v ∈ r.survivors :=
  mem_survivors.mpr ⟨h.size ▸ h.lt v hv, h.of_of v⟩

theorem sound_discrete (later : List Nat) : Sound m tol later (discrete m.vertices.size) := by
  refine ⟨Array.size_range, fun v hv => ?_, fun v => Or.inl (of_discrete _ v), fun v hv => ?_⟩
  · rw [of_discrete]
    exact hv
  · exact absurd (of_discrete _ v) hv

theorem Sound.tail (h : Sound m tol (a :: later) r) : Sound m tol later r := by
  refine ⟨h.size, h.lt, h.near, fun v hv => ?_⟩
  obtain ⟨hof, hmem⟩ := h.settled v hv
  exact ⟨hof, fun hlater => hmem (List.mem_cons_of_mem a hlater)⟩

/-- A vertex that is taken over stood for itself and was still to be visited, so that it
stood for nothing else. -/
theorem Sound.assign (h : Sound m tol later r) (ha : a < m.vertices.size) (hself : r.of a = a)
    (halater : a ∉ later) {b : Nat} (hb : b < m.vertices.size) (hblater : b ∈ later)
    (hclose : m.close tol a b = true) : Sound m tol later (r.assign a b) := by
  have hof : ∀ v, (r.assign a b).of v = if v = b then a else r.of v := fun v =>
    of_assign (h.size ▸ hb)
  have hab : a ≠ b := fun he => halater (he ▸ hblater)
  have hselfAfter : (r.assign a b).of a = a := by rw [hof, if_neg hab, hself]
  refine ⟨(size_assign r a b).trans h.size, fun v hv => ?_, fun v => ?_, fun v hv => ?_⟩
  · rw [hof]
    by_cases hvb : v = b
    · rw [if_pos hvb]
      exact ha
    · rw [if_neg hvb]
      exact h.lt v hv
  · rw [hof]
    by_cases hvb : v = b
    · rw [if_pos hvb, hvb]
      exact Or.inr hclose
    · rw [if_neg hvb]
      exact h.near v
  · by_cases hvb : v = b
    · rw [hof v, if_pos hvb]
      exact ⟨hselfAfter, halater⟩
    · rw [hof v, if_neg hvb] at hv ⊢
      obtain ⟨hsettled, hmem⟩ := h.settled v hv
      have hne : r.of v ≠ b := fun he => hmem (he ▸ hblater)
      rw [hof, if_neg hne]
      exact ⟨hsettled, hmem⟩

theorem Sound.absorb (h : Sound m tol later r) (ha : a < m.vertices.size) (hself : r.of a = a)
    (halater : a ∉ later) {bs : List Nat} (hbs : bs ⊆ later)
    (hlt : ∀ b ∈ later, b < m.vertices.size) : Sound m tol later (m.absorb tol a r bs) := by
  induction bs generalizing r with
  | nil => exact h
  | cons b rest ih =>
    obtain ⟨hb, hrest⟩ := List.cons_subset.mp hbs
    rw [Mesh.absorb, List.foldl_cons]
    by_cases hcond : (r.survives b && m.close tol a b) = true
    · rw [if_pos hcond]
      have hclose : m.close tol a b = true := (Bool.and_eq_true_iff.mp hcond).2
      have hne : a ≠ b := fun he => halater (he ▸ hb)
      refine ih (h.assign ha hself halater (hlt b hb) hb hclose) ?_ hrest
      rw [of_assign (h.size ▸ hlt b hb), if_neg hne, hself]
    · rw [if_neg hcond]
      exact ih h hself hrest

theorem Sound.sweep (h : Sound m tol later r) (hnodup : later.Nodup)
    (hlt : ∀ v ∈ later, v < m.vertices.size) : Sound m tol [] (m.sweep tol later r) := by
  induction later generalizing r with
  | nil => exact h
  | cons a later ih =>
    obtain ⟨halater, hlater⟩ := List.nodup_cons.mp hnodup
    have hltLater : ∀ v ∈ later, v < m.vertices.size := fun v hv =>
      hlt v (List.mem_cons_of_mem a hv)
    rw [Mesh.sweep]
    refine ih ?_ hlater hltLater
    by_cases hsurvives : r.survives a = true
    · rw [if_pos hsurvives]
      exact h.tail.absorb (hlt a List.mem_cons_self) (survives_iff.mp hsurvives) halater
        (List.takeWhile_subset _) hltLater
    · rw [if_neg hsurvives]
      exact h.tail

end Identification

namespace Mesh

variable {K : Type} [Scalar K] {d : Nat}

theorem sweepOrder_perm (m : Mesh K d) : m.sweepOrder.Perm (List.range m.vertices.size) :=
  List.mergeSort_perm _ _

theorem nodup_sweepOrder (m : Mesh K d) : m.sweepOrder.Nodup :=
  m.sweepOrder_perm.nodup_iff.mpr List.nodup_range

theorem mem_sweepOrder {m : Mesh K d} {v : Nat} : v ∈ m.sweepOrder ↔ v < m.vertices.size := by
  rw [m.sweepOrder_perm.mem_iff, List.mem_range]

theorem sound_identify (m : Mesh K d) (tol : K) : (m.identify tol).Sound m tol [] :=
  (Identification.sound_discrete _).sweep m.nodup_sweepOrder fun _ hv => mem_sweepOrder.mp hv

end Mesh
end HexMesh
