import Mathlib.Algebra.Field.Rat
import Mathlib.Algebra.Order.Ring.Rat
import Mathlib.Data.List.Pairwise
import HexMesh.Proofs.Number.Ordered
import HexMesh.Proofs.Identification.Separation

/-!
Identification in exact arithmetic.

In an ordered field closeness is symmetric and bounds the difference of the first
coordinates.  So the early end of the sweep drops no candidate that is close, and the
survivors are as far apart as if every vertex had been compared with all later ones.
Closeness is not transitive, which is why a vertex is only near to the survivor that
stands for it and not to everything that survivor stands for.
-/

namespace HexMesh
namespace Mesh

variable {K : Type} [Field K] [LinearOrder K] {d : Nat} {m : Mesh K d} {tol : K} {a b : Nat}
  {r : Identification} {vs : List Nat}

theorem close_iff :
    m.close tol a b = true ↔
      ∀ i : Fin d, |(m.position a).coords.get i - (m.position b).coords.get i| ≤ tol := by
  rw [close, List.all_eq_true]
  constructor
  · intro h i
    have hi := h _ (Vector.mem_toList_iff.mpr (Vector.getElem_mem i.isLt))
    rw [Vector.getElem_zipWith] at hi
    exact of_decide_eq_true hi
  · intro h x hx
    obtain ⟨i, hi, rfl⟩ := Vector.mem_iff_getElem.mp (Vector.mem_toList_iff.mp hx)
    rw [Vector.getElem_zipWith]
    exact decide_eq_true (h ⟨i, hi⟩)

theorem pairwise_sweepOrder (m : Mesh K d) :
    m.sweepOrder.Pairwise fun u v => m.leading u ≤ m.leading v := by
  refine (List.pairwise_mergeSort (fun a b c hab hbc => ?_) (fun a b => ?_) _).imp
    fun h => Scalar.rank_isLE.mp h
  · exact Scalar.rank_isLE.mpr ((Scalar.rank_isLE.mp hab).trans (Scalar.rank_isLE.mp hbc))
  · rw [Bool.or_eq_true]
    exact (le_total (m.leading a) (m.leading b)).imp Scalar.rank_isLE.mpr Scalar.rank_isLE.mpr

theorem close_symm (h : m.close tol a b = true) : m.close tol b a = true := by
  rw [close_iff] at h ⊢
  intro i
  rw [abs_sub_comm]
  exact h i

/-- Close vertices do not differ by more than the tolerance along the first axis, or are
all the same where there is no axis. -/
theorem leading_sub_le (htol : 0 ≤ tol) (h : m.close tol a b = true) :
    m.leading b - m.leading a ≤ tol := by
  cases d with
  | zero =>
    have hsame : m.leading b = m.leading a := by
      unfold leading
      rw [Vector.getElem?_eq_none (Nat.le_refl 0), Vector.getElem?_eq_none (Nat.le_refl 0)]
    rw [hsame, sub_self]
    exact htol
  | succ d =>
    have hfirst := close_iff.mp h 0
    rw [abs_sub_comm] at hfirst
    have hleading : ∀ v, m.leading v = (m.position v).coords.get 0 := by
      intro v
      unfold leading
      rw [Vector.getElem?_eq_getElem (Nat.succ_pos d)]
      rfl
    rw [hleading, hleading]
    exact (le_abs_self _).trans hfirst

variable [IsStrictOrderedRing K]

theorem lt_of_mem_dropWhile (hvs : vs.Pairwise fun u v => m.leading u ≤ m.leading v)
    {x : K} (hb : b ∈ vs.dropWhile fun v => !decide (tol < m.leading v - x)) :
    tol < m.leading b - x := by
  induction vs with
  | nil => cases hb
  | cons v rest ih =>
    obtain ⟨hv, hrest⟩ := List.pairwise_cons.mp hvs
    by_cases hexceeds : tol < m.leading v - x
    · rw [List.dropWhile_cons_of_neg (by simp only [hexceeds]; decide)] at hb
      rcases List.mem_cons.mp hb with rfl | hb
      · exact hexceeds
      · exact hexceeds.trans_le (sub_le_sub_right (hv b hb) x)
    · rw [List.dropWhile_cons_of_pos (by simp only [hexceeds]; decide)] at hb
      exact ih hrest hb

theorem absorb_takeWhile (htol : 0 ≤ tol) (hvs : vs.Pairwise fun u v => m.leading u ≤ m.leading v) :
    m.absorb tol a r (vs.takeWhile fun v => !decide (tol < m.leading v - m.leading a)) =
      m.absorb tol a r vs := by
  have hsplit : m.absorb tol a r vs = m.absorb tol a
      (m.absorb tol a r (vs.takeWhile fun v => !decide (tol < m.leading v - m.leading a)))
      (vs.dropWhile fun v => !decide (tol < m.leading v - m.leading a)) := by
    unfold absorb
    rw [← List.foldl_append, List.takeWhile_append_dropWhile]
  rw [hsplit]
  refine (Identification.absorb_eq_self fun b hb => ?_).symm
  rw [Bool.eq_false_iff]
  intro hclose
  exact (lt_of_mem_dropWhile hvs hb).not_ge (leading_sub_le htol hclose)

theorem sweep_eq_sweepAll (htol : 0 ≤ tol)
    (hvs : vs.Pairwise fun u v => m.leading u ≤ m.leading v) :
    m.sweep tol vs r = m.sweepAll tol vs r := by
  induction vs generalizing r with
  | nil => rfl
  | cons a later ih =>
    obtain ⟨-, hlater⟩ := List.pairwise_cons.mp hvs
    rw [sweep, sweepAll, ih hlater, absorb_takeWhile htol hlater]

theorem identify_eq_identifyAll (htol : 0 ≤ tol) : m.identify tol = m.identifyAll tol :=
  sweep_eq_sweepAll htol m.pairwise_sweepOrder

theorem not_close_of_mem_survivors (htol : 0 ≤ tol) :
    ∀ u ∈ (m.identify tol).survivors, ∀ v ∈ (m.identify tol).survivors, u ≠ v →
      m.close tol u v = false := by
  have hsize : (m.identify tol).representative.size = m.vertices.size := (m.sound_identify tol).size
  have hlt : ∀ v ∈ m.sweepOrder,
      v < (Identification.discrete m.vertices.size).representative.size := by
    intro v hv
    rw [Identification.discrete, Array.size_range]
    exact mem_sweepOrder.mp hv
  let apart (u v : Nat) : Prop := (m.identify tol).survives u = true →
    (m.identify tol).survives v = true → m.close tol u v = false
  have hsymm : Std.Symm apart := by
    refine ⟨fun u v huv hv hu => ?_⟩
    have hfalse := huv hu hv
    rw [Bool.eq_false_iff] at hfalse ⊢
    exact fun hclose => hfalse (close_symm hclose)
  have hpairwise : m.sweepOrder.Pairwise apart := by
    unfold apart
    rw [identify_eq_identifyAll htol]
    exact pairwise_sweepAll m.nodup_sweepOrder hlt
  intro u hu v hv huv
  obtain ⟨hulow, huself⟩ := Identification.mem_survivors.mp hu
  obtain ⟨hvlow, hvself⟩ := Identification.mem_survivors.mp hv
  exact hpairwise.forall (mem_sweepOrder.mpr (hsize ▸ hulow)) (mem_sweepOrder.mpr (hsize ▸ hvlow))
    huv (Identification.survives_iff.mpr huself) (Identification.survives_iff.mpr hvself)

/-- What identification does in exact arithmetic.  The sweep picks the representatives that
comparing each vertex with all later ones picks.  The vertices that are kept stand in
their old order at their old places, no two of them within the tolerance along every
axis; every vertex becomes a kept one that is within the tolerance along every axis.
Identifying a second time finds nothing. -/
theorem deduplicate_separates (m : Mesh K d) {tol : K} (htol : 0 ≤ tol) :
    m.identify tol = m.identifyAll tol ∧
    match m.deduplicate tol with
    | .ok (m', removed) =>
      ∃ (kept : List Nat) (f : Nat → Nat),
        kept.Pairwise (· < ·) ∧
        (∀ v, v ∈ kept ↔ v < m.vertices.size ∧ (m.identify tol).of v = v) ∧
        m'.vertices = (kept.map m.position).toArray ∧
        removed + m'.vertices.size = m.vertices.size ∧
        m'.cells = m.cells.map (·.map f) ∧
        (∀ v < m.vertices.size, kept[f v]? = some ((m.identify tol).of v) ∧ ∀ i : Fin d,
          |(m.position ((m.identify tol).of v)).coords.get i - (m.position v).coords.get i| ≤ tol) ∧
        (∀ u ∈ kept, ∀ v ∈ kept, u ≠ v →
          ∃ i : Fin d, tol < |(m.position u).coords.get i - (m.position v).coords.get i|) ∧
        m'.deduplicate tol = .ok (m', 0)
    | .error _ => ∃ k ∈ m.indicators, ∃ v ∈ k, m.vertices.size ≤ v := by
  refine ⟨identify_eq_identifyAll htol, ?_⟩
  cases h : m.deduplicate tol with
  | error e => exact exists_key_of_deduplicate_error h
  | ok result =>
    obtain ⟨m', removed⟩ := result
    have hsound := m.sound_identify tol
    have happart := not_close_of_mem_survivors (m := m) htol
    obtain ⟨f, hf⟩ := identifies_deduplicate h
    refine ⟨(m.identify tol).survivors, f, Identification.pairwise_survivors _, fun v => ?_,
      hf.vertices, ?_, hf.cells, fun v hv => ⟨hf.place v hv, ?_⟩, fun u hu v hv huv => ?_,
      (hf.separated happart).deduplicate_eq⟩
    · rw [Identification.mem_survivors, hsound.size]
    · have hle := (m.identify tol).length_survivors_le
      have hremoved := (deduplicate_cases h).1
      have hkept := hf.size_vertices
      rw [hsound.size] at hle
      omega
    · rcases hsound.near v with hself | hclose
      · intro i
        rw [hself, sub_self, abs_zero]
        exact htol
      · exact close_iff.mp hclose
    · by_contra hnone
      have hclose : m.close tol u v = true :=
        close_iff.mpr fun i => not_lt.mp fun hlt => hnone ⟨i, hlt⟩
      rw [happart u hu v hv huv] at hclose
      exact Bool.false_ne_true hclose

/-- A chain in which each vertex is close to the next one, but not to the one after that. -/
def chain : Mesh ℚ 1 :=
  { vertices := #[.x 0, .x 1, .x 2], cells := [#v[0, 1], #v[1, 2]] }

theorem deduplicate_separates_chain :
    (0 : ℚ) ≤ 1 ∧ chain.identify 1 = chain.identifyAll 1 ∧
      ∃ m' removed, chain.deduplicate 1 = .ok (m', removed) ∧
        m'.deduplicate 1 = .ok (m', 0) := by
  obtain ⟨hsame, hresult⟩ := deduplicate_separates chain (zero_le_one : (0 : ℚ) ≤ 1)
  refine ⟨zero_le_one, hsame, ?_⟩
  cases h : chain.deduplicate 1 with
  | error e =>
    obtain ⟨k, hk, -⟩ := exists_key_of_deduplicate_error h
    exact absurd hk Std.ExtTreeMap.not_mem_empty
  | ok result =>
    rw [h] at hresult
    obtain ⟨kept, f, -, -, -, -, -, -, -, hagain⟩ := hresult
    exact ⟨result.1, result.2, rfl, hagain⟩

end Mesh
end HexMesh
