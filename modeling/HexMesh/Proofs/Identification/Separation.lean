import HexMesh.Proofs.Identification.Deduplication

/-!
How identification keeps survivors apart.

`Mesh.sweepAll` compares every vertex that survives so far with all later ones.  What
it leaves alone is not close to anything it has visited before, whatever closeness is,
because a vertex never comes back once another one stands for it.  In turn, where no
vertices are close a sweep of either kind does nothing.
-/

namespace HexMesh

namespace Identification

variable {K : Type} [Scalar K] {d : Nat} {m : Mesh K d} {tol : K} {a v : Nat} {r : Identification}

/-! ## What is taken over stays taken over -/

theorem survives_of_step {b : Nat}
    (h : (if r.survives b && m.close tol a b then r.assign a b else r).survives v = true) :
    r.survives v = true := by
  by_cases hcond : (r.survives b && m.close tol a b) = true
  · rw [if_pos hcond] at h
    by_cases hv : v = b
    · rw [hv]
      exact (Bool.and_eq_true_iff.mp hcond).1
    · rw [survives_iff, assign, of, Array.getD_eq_getD_getElem?,
        Array.getElem?_setIfInBounds_ne (Ne.symm hv), ← Array.getD_eq_getD_getElem?] at h
      exact survives_iff.mpr h
  · rwa [if_neg hcond] at h

theorem survives_of_absorb {bs : List Nat} (h : (m.absorb tol a r bs).survives v = true) :
    r.survives v = true := by
  induction bs generalizing r with
  | nil => exact h
  | cons b rest ih => exact survives_of_step (ih h)

theorem size_absorb (bs : List Nat) :
    (m.absorb tol a r bs).representative.size = r.representative.size := by
  induction bs generalizing r with
  | nil => rfl
  | cons b rest ih =>
    rw [Mesh.absorb, List.foldl_cons]
    refine ih.trans ?_
    split
    · exact size_assign r a b
    · rfl

theorem not_survives_absorb {bs : List Nat} (hv : v < r.representative.size) (hmem : v ∈ bs)
    (hne : a ≠ v) (hclose : m.close tol a v = true) :
    (m.absorb tol a r bs).survives v = false := by
  induction bs generalizing r with
  | nil => cases hmem
  | cons b rest ih =>
    rw [Mesh.absorb, List.foldl_cons]
    by_cases hb : v = b
    · subst hb
      rw [Bool.eq_false_iff]
      intro hsurvives
      have hstep := survives_of_absorb hsurvives
      have hself := survives_of_step hstep
      rw [hself, hclose, Bool.and_self, if_pos rfl, survives_iff, of_assign hv, if_pos rfl] at hstep
      exact hne hstep
    · refine ih ?_ (List.mem_of_ne_of_mem hb hmem)
      split
      · rw [size_assign]
        exact hv
      · exact hv

theorem absorb_eq_self {bs : List Nat} (h : ∀ b ∈ bs, m.close tol a b = false) :
    m.absorb tol a r bs = r := by
  induction bs with
  | nil => rfl
  | cons b rest ih =>
    rw [Mesh.absorb, List.foldl_cons, h b List.mem_cons_self, Bool.and_false,
      if_neg Bool.false_ne_true]
    exact ih fun c hc => h c (List.mem_cons_of_mem b hc)

end Identification

namespace Mesh

variable {K : Type} [Scalar K] {d : Nat}

/-! ## The sweep without an early end -/

/-- Visit the vertices of a list, with all later ones as candidates. -/
def sweepAll (m : Mesh K d) (tol : K) : List Nat → Identification → Identification
  | [], r => r
  | a :: later, r => m.sweepAll tol later (if r.survives a then m.absorb tol a r later else r)

/-- Which vertices are identified when each one is compared with all later ones. -/
def identifyAll (m : Mesh K d) (tol : K) : Identification :=
  m.sweepAll tol m.sweepOrder (.discrete m.vertices.size)

variable {m m' : Mesh K d} {tol : K} {r : Identification} {vs : List Nat}

theorem survives_of_sweepAll {v : Nat} (h : (m.sweepAll tol vs r).survives v = true) :
    r.survives v = true := by
  induction vs generalizing r with
  | nil => exact h
  | cons a later ih =>
    have hfirst := ih h
    by_cases hsurvives : r.survives a = true
    · rw [if_pos hsurvives] at hfirst
      exact Identification.survives_of_absorb hfirst
    · rwa [if_neg hsurvives] at hfirst

/-- No survivor is close to one that was visited before it. -/
theorem pairwise_sweepAll (hvs : vs.Nodup) (hlt : ∀ v ∈ vs, v < r.representative.size) :
    vs.Pairwise fun u v => (m.sweepAll tol vs r).survives u = true →
      (m.sweepAll tol vs r).survives v = true → m.close tol u v = false := by
  induction vs generalizing r with
  | nil => exact List.Pairwise.nil
  | cons a later ih =>
    obtain ⟨halater, hlater⟩ := List.nodup_cons.mp hvs
    have hltLater : ∀ v ∈ later, v < r.representative.size := fun v hv =>
      hlt v (List.mem_cons_of_mem a hv)
    refine List.pairwise_cons.mpr ⟨fun v hv ha hvsurvives => ?_, ih hlater fun v hv => ?_⟩
    · have hself : r.survives a = true := survives_of_sweepAll ha
      rw [sweepAll, if_pos hself] at hvsurvives
      have hfirst := survives_of_sweepAll hvsurvives
      by_contra hclose
      have hclose : m.close tol a v = true := by simpa using hclose
      have hne : a ≠ v := fun he => halater (he ▸ hv)
      rw [Identification.not_survives_absorb (hltLater v hv) hv hne hclose] at hfirst
      exact Bool.false_ne_true hfirst
    · split
      · rw [Identification.size_absorb]
        exact hltLater v hv
      · exact hltLater v hv

/-! ## Where nothing is close -/

/-- No two different vertices are close. -/
def Separated (m : Mesh K d) (tol : K) : Prop :=
  ∀ u < m.vertices.size, ∀ v < m.vertices.size, u ≠ v → m.close tol u v = false

theorem Separated.sweep_eq (h : m.Separated tol) (hvs : vs.Nodup)
    (hlt : ∀ v ∈ vs, v < m.vertices.size) : m.sweep tol vs r = r := by
  induction vs generalizing r with
  | nil => rfl
  | cons a later ih =>
    obtain ⟨halater, hlater⟩ := List.nodup_cons.mp hvs
    have hltLater : ∀ v ∈ later, v < m.vertices.size := fun v hv =>
      hlt v (List.mem_cons_of_mem a hv)
    rw [sweep, ih hlater hltLater]
    split
    · apply Identification.absorb_eq_self
      intro b hb
      have hb : b ∈ later := List.takeWhile_subset _ hb
      exact h a (hlt a List.mem_cons_self) b (hltLater b hb) fun he => halater (he ▸ hb)
    · rfl

theorem Separated.deduplicate_eq (h : m.Separated tol) : m.deduplicate tol = .ok (m, 0) := by
  have hidentify : m.identify tol = .discrete m.vertices.size :=
    h.sweep_eq m.nodup_sweepOrder fun _ hv => mem_sweepOrder.mp hv
  have hsurvivors : (Identification.discrete m.vertices.size).survivors =
      List.range m.vertices.size := by
    refine (List.filter_eq_self.mpr fun v _ => ?_).trans (congrArg List.range Array.size_range)
    exact Identification.survives_iff.mpr (Identification.of_discrete _ v)
  have hremoved :
      m.vertices.size - (Identification.discrete m.vertices.size).survivors.length = 0 := by
    rw [hsurvivors, List.length_range, Nat.sub_self]
  unfold deduplicate
  rw [hidentify, if_pos hremoved]

theorem Identifies.separated {f : Nat → Nat} (h : m.Identifies m' r f)
    (hclose : ∀ u ∈ r.survivors, ∀ v ∈ r.survivors, u ≠ v → m.close tol u v = false) :
    m'.Separated tol := by
  have hnodup : r.survivors.Nodup := r.pairwise_survivors.imp fun hlt => Nat.ne_of_lt hlt
  intro i hi j hj hij
  rw [h.size_vertices] at hi hj
  unfold close
  rw [h.position_getElem hi, h.position_getElem hj]
  refine hclose _ (List.getElem_mem hi) _ (List.getElem_mem hj) fun he => hij ?_
  exact (List.Nodup.getElem_inj_iff hnodup).mp he

end Mesh
end HexMesh
