import HexMesh.Proofs.Workshop.Stored

/-!
The order in which stored indicators are taken.

Identification takes the stored indicators one by one, finds the new key of each and stores it
again.  Two keys may become one, and then the indicator that was taken last is the one that
stays.  So the result may depend on the order in which the table hands its entries out, which a
table of keys need not promise.

On the boundary it depends on this order exactly if two keys with different indicators become
the key of one face there, which is `orderFree_iff`.  Keys of faces never do: where two faces
become one, they are not on the boundary any more.
-/

namespace HexMesh

theorem getLast?_map_of_perm {α β : Type} {f : α → β} {xs ys : List α} (h : xs.Perm ys)
    (hagree : ∀ a ∈ xs, ∀ b ∈ xs, f a = f b) : xs.getLast?.map f = ys.getLast?.map f := by
  rcases List.eq_nil_or_concat' xs with rfl | ⟨before, a, rfl⟩
  · rw [h.nil_eq]
  · rcases List.eq_nil_or_concat' ys with rfl | ⟨before', b, rfl⟩
    · rw [h.eq_nil]
    · rw [List.getLast?_concat, List.getLast?_concat, Option.map_some, Option.map_some,
        hagree a (by simp) b (h.mem_iff.mpr (by simp))]

/-- The same vertices stand for the members of both keys. -/
def Identification.Unites (r : Identification) (k l : Key) : Prop :=
  Key.ofList (k.map r.of) = Key.ofList (l.map r.of)

instance (r : Identification) (k l : Key) : Decidable (r.Unites k l) :=
  inferInstanceAs (Decidable (_ = _))

namespace Mesh

variable {K : Type} {d : Nat} {m m' : Mesh K d}

/-- Stored keys that become the key of a face have one indicator, unless it becomes the key of
another face as well. -/
def ClashFree (m : Mesh K d) (r : Identification) : Prop :=
  ∀ x ∈ m.faces, (∀ y ∈ m.faces, r.Unites y.2 x.2 → y.1 = x.1) →
    ∀ e ∈ m.indicators.toList, ∀ e' ∈ m.indicators.toList,
      r.Unites e.1 x.2 → r.Unites e'.1 x.2 → e.2 = e'.2

instance (m : Mesh K d) (r : Identification) : Decidable (m.ClashFree r) :=
  inferInstanceAs (Decidable (∀ x ∈ m.faces, _ → ∀ e ∈ _, ∀ e' ∈ _, _ → _ → _))

theorem mem_indicators_of_mem_toList {e : Key × Indicator} (he : e ∈ m.indicators.toList) :
    e.1 ∈ m.indicators :=
  Std.ExtTreeMap.mem_iff_isSome_getElem?.mpr
    (Std.ExtTreeMap.mem_toList_iff_getElem?_eq_some.mp he ▸ rfl)

theorem snd_eq_of_mem_toList {e e' : Key × Indicator} (he : e ∈ m.indicators.toList)
    (he' : e' ∈ m.indicators.toList) (h : e.1 = e'.1) : e.2 = e'.2 := by
  have hstored := Std.ExtTreeMap.mem_toList_iff_getElem?_eq_some.mp he
  rw [h, Std.ExtTreeMap.mem_toList_iff_getElem?_eq_some.mp he'] at hstored
  exact (Option.some.inj hstored).symm

/-- Faces do not clash: two of them that come to one key are not on the boundary. -/
theorem KeysOnFaces.clashFree (hfaces : m.KeysOnFaces) (r : Identification) : m.ClashFree r := by
  intro x _ halone e he e' he' hunites hunites'
  have hkey {e : Key × Indicator} (he : e ∈ m.indicators.toList) (hunites : r.Unites e.1 x.2) :
      m.HasFace x.1 e.1 := by
    obtain ⟨s, hs⟩ := hfaces e.1 (mem_indicators_of_mem_toList he)
    exact halone (s, e.1) (mem_faces.mpr hs) hunites ▸ hs
  exact snd_eq_of_mem_toList he he' ((hkey he hunites).key_eq (hkey he' hunites'))

/-- A renumbered mesh, with the indicators in the order of a list. -/
def renumberInOrder (m : Mesh K d) (vertices : Array (Point K d)) (f : Nat → Nat)
    (order : List (Key × Indicator)) : Mesh K d :=
  { m.renumber vertices f with indicators := renumberIndicators f order }

section Renumbered

variable {vertices : Array (Point K d)} {f : Nat → Nat} {order order' : List (Key × Indicator)}

/-- The entry that was taken last decides. -/
theorem indicator_renumberInOrder (k : Key) :
    (m.renumberInOrder vertices f order).indicator k =
      (((order.filter fun e => Key.ofList (e.1.map f) = k).getLast?).map (·.2)).getD 0 := by
  rw [indicator, Std.ExtTreeMap.getD_eq_getD_getElem?]
  show ((KeyMap.ofEntries (order.map fun e => (Key.ofList (e.1.map f), e.2)))[k]?).getD 0 = _
  rw [KeyMap.getElem?_ofEntries_map]

theorem indicator_renumberInOrder_concat (e : Key × Indicator) :
    (m.renumberInOrder vertices f (order ++ [e])).indicator (Key.ofList (e.1.map f)) = e.2 := by
  rw [indicator_renumberInOrder, List.filter_append, List.filter_cons_of_pos (by simp),
    List.filter_nil, List.getLast?_concat]
  rfl

theorem isOuter_renumberInOrder {r : FaceRef} {k : Key} :
    (m.renumberInOrder vertices f order).IsOuter r k ↔ (m.renumber vertices f).IsOuter r k :=
  isOuter_congr rfl

/-- The boundary is the same in either order exactly if each face on it finds the same
indicator. -/
theorem boundaryFaces_renumberInOrder_eq_iff :
    (m.renumberInOrder vertices f order).boundaryFaces =
        (m.renumberInOrder vertices f order').boundaryFaces ↔
      ∀ r k, (m.renumber vertices f).IsOuter r k →
        (m.renumberInOrder vertices f order).indicator k =
          (m.renumberInOrder vertices f order').indicator k := by
  have houter : (m.renumberInOrder vertices f order').outerFaces =
      (m.renumberInOrder vertices f order).outerFaces := rfl
  rw [boundaryFaces, boundaryFaces, houter, List.map_inj_left]
  constructor
  · intro h r k hk
    have hface := h (r, k) (mem_outerFaces.mpr (isOuter_renumberInOrder.mpr hk))
    exact congrArg BoundaryFace.indicator hface
  · rintro h ⟨r, k⟩ hk
    rw [h r k (isOuter_renumberInOrder.mp (mem_outerFaces.mp hk))]

/-- All orders of some entries give the same boundary exactly if no two of them that come to
one face there have different indicators. -/
theorem forall_perm_boundaryFaces_iff :
    (∀ order', order'.Perm order → (m.renumberInOrder vertices f order').boundaryFaces =
        (m.renumberInOrder vertices f order).boundaryFaces) ↔
      ∀ r k, (m.renumber vertices f).IsOuter r k → ∀ e ∈ order, ∀ e' ∈ order,
        Key.ofList (e.1.map f) = k → Key.ofList (e'.1.map f) = k → e.2 = e'.2 := by
  constructor
  · intro h r k hk e he e' he' hek hek'
    -- Whichever of the two is taken last is the one that stays.
    have hlast {e : Key × Indicator} (he : e ∈ order) (hek : Key.ofList (e.1.map f) = k) :
        (m.renumberInOrder vertices f order).indicator k = e.2 := by
      have hperm : (order.erase e ++ [e]).Perm order :=
        (List.perm_append_singleton e _).trans (List.perm_cons_erase he).symm
      rw [← boundaryFaces_renumberInOrder_eq_iff.mp (h _ hperm) r k hk, ← hek]
      exact indicator_renumberInOrder_concat e
    rw [← hlast he hek, hlast he' hek']
  · intro h order' hperm
    refine boundaryFaces_renumberInOrder_eq_iff.mpr fun r k hk => ?_
    rw [indicator_renumberInOrder, indicator_renumberInOrder,
      getLast?_map_of_perm (hperm.filter _) fun e he e' he' => ?_]
    obtain ⟨he, hek⟩ := List.mem_filter.mp he
    obtain ⟨he', hek'⟩ := List.mem_filter.mp he'
    exact h r k hk e (hperm.mem_iff.mp he) e' (hperm.mem_iff.mp he') (of_decide_eq_true hek)
      (of_decide_eq_true hek')

end Renumbered

/-! ## Identification -/

variable [Scalar K] {tol : K}

/-- Identification with the stored indicators in the order of a list. -/
def deduplicateInOrder (m : Mesh K d) (tol : K) (order : List (Key × Indicator)) :
    Except (Fault K) (Mesh K d × Nat) :=
  let r := m.identify tol
  let survivors := r.survivors
  let removed := m.vertices.size - survivors.length
  if removed = 0 then .ok (m, 0)
  else if order.all (·.1.below m.vertices.size) then
    let numbers := r.renumbering
    .ok (m.renumberInOrder (survivors.map m.position).toArray (fun v => numbers.getD v 0) order,
      removed)
  else .error .outOfRange

theorem deduplicateInOrder_toList (m : Mesh K d) (tol : K) :
    m.deduplicateInOrder tol m.indicators.toList = m.deduplicate tol := by
  have hkeys : m.indicators.toList.all (·.1.below m.vertices.size) =
      m.indicators.keys.all (·.below m.vertices.size) := by
    rw [← Std.ExtTreeMap.map_fst_toList_eq_keys, List.all_map]
    rfl
  unfold deduplicateInOrder deduplicate
  rw [hkeys]
  rfl

/-- Identification gives one boundary, in whatever order the stored indicators are taken. -/
def OrderFree (m : Mesh K d) (tol : K) : Prop :=
  ∃ m' n, m.deduplicate tol = .ok (m', n) ∧ ∀ order, order.Perm m.indicators.toList →
    ∃ m'', m.deduplicateInOrder tol order = .ok (m'', n) ∧ m''.boundaryFaces = m'.boundaryFaces

/-- No face is in the way of another one exactly if the indicators agree that come to it. -/
theorem clashFree_iff (hm : m.WellFormed) {vertices : Array (Point K d)} {f : Nat → Nat}
    (hf : m.Identifies (m.renumber vertices f) (m.identify tol) f) :
    m.ClashFree (m.identify tol) ↔ ∀ r k, (m.renumber vertices f).IsOuter r k →
      ∀ e ∈ m.indicators.toList, ∀ e' ∈ m.indicators.toList,
        Key.ofList (e.1.map f) = k → Key.ofList (e'.1.map f) = k → e.2 = e'.2 := by
  have hunites {k l : Key} (hk : ∀ v ∈ k, v < m.vertices.size) (hl : ∀ v ∈ l, v < m.vertices.size) :
      Key.ofList (k.map f) = Key.ofList (l.map f) ↔ (m.identify tol).Unites k l :=
    hf.ofList_map_eq_iff hk hl
  have hstored {e : Key × Indicator} (he : e ∈ m.indicators.toList) :
      ∀ v ∈ e.1, v < m.vertices.size := hm.key_lt e.1 (mem_indicators_of_mem_toList he)
  constructor
  · intro h r k hk e he e' he' hek hek'
    obtain ⟨l, hl, rfl⟩ := hk.of_renumber
    have hlt := hl.1.lt_size hm.cell_lt
    refine h (r, l) (mem_faces.mpr hl.1) (fun y hy hsame => ?_) e he e' he'
      ((hunites (hstored he) hlt).mp hek)
      ((hunites (hstored he') hlt).mp hek')
    have hy := mem_faces.mp hy
    exact hk.2 _ (hasFace_renumber.mpr
      ⟨y.2, hy, (hunites (hy.lt_size hm.cell_lt) hlt).mpr hsame⟩)
  · intro h x hx halone e he e' he' hek hek'
    have hx := mem_faces.mp hx
    have hlt := hx.lt_size hm.cell_lt
    refine h x.1 (Key.ofList (x.2.map f)) ⟨hasFace_renumber.mpr ⟨x.2, hx, rfl⟩, fun s hs => ?_⟩
      e he e' he' ((hunites (hstored he) hlt).mpr hek)
      ((hunites (hstored he') hlt).mpr hek')
    obtain ⟨l, hl, hsame⟩ := hasFace_renumber.mp hs
    exact halone (s, l) (mem_faces.mpr hl) ((hunites (hl.lt_size hm.cell_lt) hlt).mp hsame)

theorem clashFree_of_survive (hm : m.WellFormed)
    (h : m.vertices.size ≤ (m.identify tol).survivors.length) : m.ClashFree (m.identify tol) := by
  have hself := m.identifies_self h
  refine (clashFree_iff hm (f := id) ⟨hself.vertices, rfl, hself.place⟩).mpr ?_
  intro r k _ e he e' he' hek hek'
  have hkey {e : Key × Indicator} (he : e ∈ m.indicators.toList) :
      Key.ofList (e.1.map id) = e.1 := by
    rw [List.map_id, Key.ofList_of_pairwise (hm.key_sorted _ (mem_indicators_of_mem_toList he))]
  have hsame : e.1 = e'.1 := by
    rw [← hkey he, ← hkey he', hek, hek']
  exact snd_eq_of_mem_toList he he' hsame

theorem orderFree_of_removed_eq_zero
    (h : m.vertices.size - (m.identify tol).survivors.length = 0) : m.OrderFree tol := by
  have hself (order : List (Key × Indicator)) : m.deduplicateInOrder tol order = .ok (m, 0) := by
    rw [deduplicateInOrder, if_pos h]
  exact ⟨m, 0, m.deduplicateInOrder_toList tol ▸ hself _, fun order _ => ⟨m, hself order, rfl⟩⟩

theorem deduplicateInOrder_of_removed (hm : m.WellFormed)
    (h : m.vertices.size - (m.identify tol).survivors.length ≠ 0) {order : List (Key × Indicator)}
    (horder : order.Perm m.indicators.toList) :
    m.deduplicateInOrder tol order =
      .ok (m.renumberInOrder ((m.identify tol).survivors.map m.position).toArray
          (fun v => (m.identify tol).renumbering.getD v 0) order,
        m.vertices.size - (m.identify tol).survivors.length) := by
  have hbelow : order.all (·.1.below m.vertices.size) = true := by
    refine List.all_eq_true.mpr fun e he => List.all_eq_true.mpr fun v hv => ?_
    have hkey := mem_indicators_of_mem_toList (horder.mem_iff.mp he)
    exact decide_eq_true (hm.key_lt _ hkey v hv)
  rw [deduplicateInOrder, if_neg h, if_pos hbelow]

theorem orderFree_iff (hm : m.WellFormed) : m.OrderFree tol ↔ m.ClashFree (m.identify tol) := by
  by_cases hremoved : m.vertices.size - (m.identify tol).survivors.length = 0
  · exact iff_of_true (orderFree_of_removed_eq_zero hremoved)
      (clashFree_of_survive hm (Nat.sub_eq_zero_iff_le.mp hremoved))
  · have hgives {order : List (Key × Indicator)} (horder : order.Perm m.indicators.toList) :=
      deduplicateInOrder_of_removed hm hremoved horder
    have hfirst := (m.deduplicateInOrder_toList tol).symm.trans (hgives (.refl _))
    rw [clashFree_iff hm (m.identifies_renumber tol), ← forall_perm_boundaryFaces_iff]
    constructor
    · rintro ⟨m', n, hm', hfaces⟩ order horder
      obtain ⟨m'', hm'', hsame⟩ := hfaces order horder
      cases hfirst.symm.trans hm'
      cases (hgives horder).symm.trans hm''
      exact hsame
    · exact fun h => ⟨_, _, hfirst, fun order horder => ⟨_, hgives horder, h order horder⟩⟩

/-- The mesh of a file has the same boundary after identification in whatever order its stored
indicators are taken, if the elements of the file that are faces are faces of its cells.  If some
are not, it has exactly if those that come to one face on the boundary have one indicator. -/
theorem read_orderFree [Numeral K] {bytes : List UInt8} (h : Msh.read d bytes = .ok m) (tol : K) :
    ∃ g, ({} : Msh.Gathered K d).after? (Line.ofBytes bytes) = some g ∧ m = g.mesh ∧
      ((∀ f ∈ g.faces.toList, ∃ r, m.HasFace r (Key.ofList f.1)) → m.OrderFree tol) ∧
      (m.OrderFree tol ↔ m.ClashFree (m.identify tol)) := by
  obtain ⟨g, hg, hm, hstored⟩ := exists_gathered_of_read h
  have hiff : m.OrderFree tol ↔ m.ClashFree (m.identify tol) := orderFree_iff (wellFormed_read h)
  refine ⟨g, hg, hm, fun hfaces => hiff.mpr ?_, hiff⟩
  exact KeysOnFaces.clashFree ((hstored fun k => ∃ r, m.HasFace r k).mpr hfaces) _

theorem identify_of_ascending (tol : K) (h : (List.range m.vertices.size).Pairwise fun a b =>
      (Scalar.rank (m.leading a) (m.leading b)).isLE) :
    m.identify tol = m.sweep tol (List.range m.vertices.size) (.discrete m.vertices.size) := by
  rw [identify, sweepOrder, List.mergeSort_of_pairwise h]

/-- Two squares with different vertices along their common side, which has one indicator for the
one square and another for the other. -/
def doubledFile : List (List Char) :=
  ["$MeshFormat", "2.2 0 8", "$EndMeshFormat", "$Nodes", "8", "1 0 0 0", "2 0 1 0", "3 1 0 0",
    "4 1 1 0", "5 1 0 0", "6 1 1 0", "7 2 0 0", "8 2 1 0", "$EndNodes", "$Elements", "5",
    "1 3 1 0 1 3 4 2", "2 3 1 0 5 7 8 6", "3 1 1 7 3 4", "4 1 1 8 6 5", "5 1 1 9 7 8",
    "$EndElements"].map String.toList

/-- The two sides become one, which is inside, and the third indicator stays. -/
theorem read_orderFree_doubled : ∃ m : Mesh ℚ 2, Msh.read 2 (Line.toBytes doubledFile) = .ok m ∧
    m.indicators.toList = [([2, 3], 7), ([4, 5], 8), ([6, 7], 9)] ∧
    (m.identify 0).survivors = [0, 1, 2, 3, 6, 7] ∧ m.OrderFree 0 := by
  have hmesh : (Msh.read (K := ℚ) 2 (Line.toBytes doubledFile)).toOption.map (fun m =>
      (m.indicators.toList, decide ((List.range m.vertices.size).Pairwise fun a b =>
          (Scalar.rank (m.leading a) (m.leading b)).isLE),
        (m.sweep 0 (List.range m.vertices.size) (.discrete m.vertices.size)).survivors,
        m.faces.map (·.2))) =
      some ([([2, 3], 7), ([4, 5], 8), ([6, 7], 9)], true, [0, 1, 2, 3, 6, 7],
        [[0, 1], [2, 3], [0, 2], [1, 3], [4, 5], [6, 7], [4, 6], [5, 7]]) := by
    rw [Msh.read, Line.ofBytes_toBytes (by decide)]
    decide +kernel
  have hgathered : (({} : Msh.Gathered ℚ 2).after? (Line.ofBytes (Line.toBytes doubledFile))).map
      (fun g => g.faces.toList.map fun f => Key.ofList f.1) = some [[2, 3], [4, 5], [6, 7]] := by
    rw [Line.ofBytes_toBytes (by decide)]
    decide +kernel
  obtain ⟨m, hread, hm⟩ := Option.map_eq_some_iff.mp hmesh
  have hread := toOption_eq_some_iff.mp hread
  simp only [Prod.mk.injEq, decide_eq_true_eq] at hm
  obtain ⟨hindicators, hascending, hsurvivors, hfaces⟩ := hm
  rw [← identify_of_ascending 0 hascending] at hsurvivors
  refine ⟨m, hread, hindicators, hsurvivors, ?_⟩
  obtain ⟨g, hg, -, horder, -⟩ := read_orderFree hread 0
  rw [hg] at hgathered
  refine horder fun f hf => ?_
  have hkey : Key.ofList f.1 ∈ [[2, 3], [4, 5], [6, 7]] :=
    Option.some.inj hgathered ▸ List.mem_map_of_mem hf
  have hface : Key.ofList f.1 ∈ m.faces.map (·.2) := by
    rw [hfaces]
    exact (by decide : [[2, 3], [4, 5], [6, 7]] ⊆ _) hkey
  obtain ⟨⟨r, k⟩, hr, hk⟩ := List.mem_map.mp hface
  exact ⟨r, hk ▸ mem_faces.mp hr⟩

/-! ## An element beside the mesh -/

/-- A square, an element along its right side, and an element between two more nodes that are at
the same places but belong to no cell. -/
def strayFile : List (List Char) :=
  ["$MeshFormat", "2.2 0 8", "$EndMeshFormat", "$Nodes", "6", "1 0 0 0", "2 0 1 0", "3 1 0 0",
    "4 1 1 0", "5 1 0 0", "6 1 1 0", "$EndNodes", "$Elements", "3", "1 3 1 0 1 3 4 2",
    "2 1 1 7 3 4", "3 1 1 8 5 6", "$EndElements"].map String.toList

/-- The right side ends with either of the two indicators. -/
theorem read_strayFile : ∃ m : Mesh ℚ 2, Msh.read 2 (Line.toBytes strayFile) = .ok m ∧
    m.indicators.toList = [([2, 3], 7), ([4, 5], 8)] ∧
    m.boundaryFaces.map (·.indicator) = [0, 7, 0, 0] ∧ ¬m.OrderFree 0 := by
  have hmesh : (Msh.read (K := ℚ) 2 (Line.toBytes strayFile)).toOption.map (fun m =>
      (m.indicators.toList, m.boundaryFaces.map (·.indicator),
        decide ((List.range m.vertices.size).Pairwise fun a b =>
          (Scalar.rank (m.leading a) (m.leading b)).isLE),
        decide (m.ClashFree
          (m.sweep 0 (List.range m.vertices.size) (.discrete m.vertices.size))))) =
      some ([([2, 3], 7), ([4, 5], 8)], [0, 7, 0, 0], true, false) := by
    rw [Msh.read, Line.ofBytes_toBytes (by decide)]
    decide +kernel
  obtain ⟨m, hread, hm⟩ := Option.map_eq_some_iff.mp hmesh
  have hread := toOption_eq_some_iff.mp hread
  simp only [Prod.mk.injEq, decide_eq_true_eq, decide_eq_false_iff_not] at hm
  obtain ⟨hindicators, hfaces, hascending, hclash⟩ := hm
  rw [← identify_of_ascending 0 hascending] at hclash
  exact ⟨m, hread, hindicators, hfaces, (orderFree_iff (wellFormed_read hread)).not.mpr hclash⟩

end Mesh
end HexMesh
