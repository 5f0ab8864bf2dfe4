import HexMesh.Topology.Key

/-!
What a table of keys holds after it was filled entry by entry.

A map filled by insertions answers with the last entry for a key, a tally with
the number of occurrences, and a numbering with a position in its own list of
keys.  The last of these is an invariant: `Numbering.Valid` says that the two
halves of a numbering describe the same bijection, and recording a key keeps it.
-/

namespace HexMesh

namespace Key

/-- Ascending lists without repetition are equal when they have the same members. -/
theorem eq_of_mem_iff {k l : Key} (hk : k.Pairwise (· ≤ ·)) (hl : l.Pairwise (· ≤ ·))
    (hknodup : k.Nodup) (hlnodup : l.Nodup) (h : ∀ v, v ∈ k ↔ v ∈ l) : k = l := by
  have hperm : k.Perm l := (List.perm_ext_iff_of_nodup hknodup hlnodup).mpr h
  exact hperm.eq_of_pairwise (fun _ _ _ _ => Nat.le_antisymm) hk hl

theorem ofList_map_ofList (f : Nat → Nat) (vs : List Nat) :
    ofList ((ofList vs).map f) = ofList (vs.map f) :=
  ofList_eq_ofList.mpr ((ofList_perm vs).map f)

theorem nodup_ofList {vs : List Nat} : (ofList vs).Nodup ↔ vs.Nodup :=
  (ofList_perm vs).nodup_iff

end Key

namespace KeyMap

variable {α : Type}

/-- Filling a map that may hold something already.  Of several entries for a key the last
one counts. -/
theorem getElem?_foldl_insert (entries : List (Key × α)) (t : KeyMap α) (k : Key) :
    (entries.foldl (fun m e => m.insert e.1 e.2) t)[k]? =
      (entries.reverse.lookup k).or t[k]? := by
  induction entries generalizing t with
  | nil => rfl
  | cons e rest ih =>
    obtain ⟨l, a⟩ := e
    rw [List.foldl_cons, ih, List.reverse_cons, List.lookup_append, Option.or_assoc,
      Std.ExtTreeMap.getElem?_insert, List.lookup_cons, List.lookup_nil]
    congr 1
    by_cases hk : l = k
    · subst hk
      simp
    · have hkl : (k == l) = false := by simpa using Ne.symm hk
      simp [hk, hkl]

theorem getElem?_foldl_insert_of_ne {entries : List (Key × α)} {k : Key} (t : KeyMap α)
    (h : ∀ e ∈ entries, e.1 ≠ k) :
    (entries.foldl (fun m e => m.insert e.1 e.2) t)[k]? = t[k]? := by
  have hnone : entries.reverse.lookup k = none := by
    rw [List.lookup_eq_none_iff]
    intro e he
    exact bne_iff_ne.mpr (Ne.symm (h e (List.mem_reverse.mp he)))
  rw [getElem?_foldl_insert, hnone, Option.none_or]

theorem getElem?_foldl_insert_of_agree {entries : List (Key × α)} {t : KeyMap α} {k : Key}
    {o : Option α} (ht : t[k]? = none) (hagree : ∀ a, (k, a) ∈ entries → o = some a)
    (hmem : ∀ a, o = some a → (k, a) ∈ entries) :
    (entries.foldl (fun m e => m.insert e.1 e.2) t)[k]? = o := by
  rw [getElem?_foldl_insert, ht, Option.or_none]
  cases h : entries.reverse.lookup k with
  | none =>
    cases o with
    | none => rfl
    | some a =>
      have hne := List.lookup_eq_none_iff.mp h (k, a) (List.mem_reverse.mpr (hmem a rfl))
      simp at hne
  | some b =>
    obtain ⟨before, behind, hsplit, -⟩ := List.lookup_eq_some_iff.mp h
    have hb : (k, b) ∈ entries.reverse := by simp [hsplit]
    exact (hagree b (List.mem_reverse.mp hb)).symm

theorem getElem?_foldl_insert_toList {s t : KeyMap α} {g : Key → Key} {k : Key}
    (ht : t[g k]? = none) (hinj : ∀ l ∈ s, g l = g k → l = k) :
    ((s.toList.map fun e => (g e.1, e.2)).foldl (fun m e => m.insert e.1 e.2) t)[g k]? = s[k]? := by
  refine getElem?_foldl_insert_of_agree ht (fun a ha => ?_) fun a ha => ?_
  · obtain ⟨⟨l, b⟩, hl, he⟩ := List.mem_map.mp ha
    obtain ⟨hkey, rfl⟩ := Prod.mk.inj he
    have hstored : s[l]? = some b := Std.ExtTreeMap.mem_toList_iff_getElem?_eq_some.mp hl
    have hmem : l ∈ s := Std.ExtTreeMap.mem_iff_isSome_getElem?.mpr (by rw [hstored]; rfl)
    rw [← hinj l hmem hkey]
    exact hstored
  · exact List.mem_map.mpr ⟨(k, a), Std.ExtTreeMap.mem_toList_iff_getElem?_eq_some.mpr ha, rfl⟩

/-- A map that is filled from a list remembers the last member with each key. -/
theorem getElem?_ofEntries_map {β : Type} (xs : List β) (key : β → Key) (value : β → α) (k : Key) :
    (ofEntries (xs.map fun x => (key x, value x)))[k]? =
      (xs.filter fun x => key x = k).getLast?.map value := by
  have hfill (t : KeyMap α) :
      ((xs.map fun x => (key x, value x)).foldl (fun m e => m.insert e.1 e.2) t)[k]? =
        ((xs.filter fun x => key x = k).getLast?.map value).or t[k]? := by
    induction xs generalizing t with
    | nil => rfl
    | cons x rest ih =>
      rw [List.map_cons, List.foldl_cons, ih, Std.ExtTreeMap.getElem?_insert]
      by_cases hx : key x = k
      · rw [List.filter_cons_of_pos (by simp [hx]), List.getLast?_cons]
        cases (rest.filter fun x => key x = k).getLast? <;> simp [hx]
      · rw [List.filter_cons_of_neg (by simp [hx]), if_neg (by simp [hx])]
  rw [ofEntries, hfill, Std.ExtTreeMap.getElem?_empty, Option.or_none]

theorem mem_of_getElem?_ofEntries {entries : List (Key × α)} {k : Key} {a : α}
    (h : (ofEntries entries)[k]? = some a) : (k, a) ∈ entries := by
  rw [ofEntries, getElem?_foldl_insert, Std.ExtTreeMap.getElem?_empty, Option.or_none,
    List.lookup_eq_some_iff] at h
  obtain ⟨before, behind, hsplit, -⟩ := h
  have hmem : (k, a) ∈ entries.reverse := by simp [hsplit]
  exact List.mem_reverse.mp hmem

theorem mem_ofEntries {entries : List (Key × α)} {k : Key} :
    k ∈ ofEntries entries ↔ ∃ a, (k, a) ∈ entries := by
  rw [Std.ExtTreeMap.mem_iff_isSome_getElem?, Option.isSome_iff_exists]
  constructor
  · intro h
    obtain ⟨a, ha⟩ := h
    exact ⟨a, mem_of_getElem?_ofEntries ha⟩
  · intro h
    obtain ⟨a, ha⟩ := h
    rw [ofEntries, getElem?_foldl_insert, Std.ExtTreeMap.getElem?_empty, Option.or_none]
    cases hlookup : entries.reverse.lookup k with
    | some b => exact ⟨b, rfl⟩
    | none =>
      have hne := List.lookup_eq_none_iff.mp hlookup (k, a) (List.mem_reverse.mpr ha)
      simp at hne

theorem forall_mem_ofEntries {entries : List (Key × α)} {p : Key → Prop}
    (h : ∀ e ∈ entries, p e.1) : ∀ k ∈ ofEntries entries, p k := by
  intro k hk
  obtain ⟨a, ha⟩ := mem_ofEntries.mp hk
  exact h (k, a) ha

theorem forall_mem_insert {t : KeyMap α} {p : Key → Prop} (ht : ∀ l ∈ t, p l) {k : Key} (hk : p k)
    (a : α) : ∀ l ∈ t.insert k a, p l := by
  intro l hl
  rcases Std.ExtTreeMap.mem_insert.mp hl with he | hl
  · rw [← Std.LawfulEqOrd.compare_eq_iff_eq.mp he]
    exact hk
  · exact ht l hl

theorem forall_mem_foldl_insert {β : Type} {key : β → Key} {value : β → α} {xs : List β}
    {t : KeyMap α} {p : Key → Prop} (ht : ∀ l ∈ t, p l) (hxs : ∀ x ∈ xs, p (key x)) :
    ∀ l ∈ xs.foldl (fun t x => t.insert (key x) (value x)) t, p l := by
  induction xs generalizing t with
  | nil => exact ht
  | cons x rest ih =>
    have ⟨hx, hrest⟩ := List.forall_mem_cons.mp hxs
    exact ih (forall_mem_insert ht hx (value x)) hrest

/-- Counting into a map that may hold counts already.  What is not counted gets no
entry. -/
theorem getElem?_foldl_tally {β : Type} [Ord α] [Std.TransOrd α] [Std.LawfulEqOrd α]
    [DecidableEq α] (f : β → α) (xs : List β) (t : Std.ExtTreeMap α Nat) (k : α) :
    (xs.foldl (fun t x => t.insert (f x) (t.getD (f x) 0 + 1)) t)[k]? =
      if xs.countP (f · = k) = 0 then t[k]? else some (xs.countP (f · = k) + t.getD k 0) := by
  induction xs generalizing t with
  | nil => rfl
  | cons x rest ih =>
    rw [List.foldl_cons, ih, List.countP_cons, Std.ExtTreeMap.getElem?_insert,
      Std.ExtTreeMap.getD_insert]
    by_cases hx : f x = k
    · subst hx
      simp only [Std.compare_self, if_true, decide_true]
      by_cases hrest : rest.countP (f · = f x) = 0
      · simp [hrest, Nat.add_comm]
      · rw [if_neg hrest, if_neg (by omega)]
        congr 1
        omega
    · simp [hx]

theorem getElem?_tally (keys : List Key) (k : Key) :
    (tally keys)[k]? = if keys.count k = 0 then none else some (keys.count k) := by
  have hcount : keys.countP (id · = k) = keys.count k := by
    rw [List.count]
    exact List.countP_congr fun l _ => by simp
  have hfold : (tally keys)[k]? = _ := getElem?_foldl_tally id keys ∅ k
  rw [hfold, hcount, Std.ExtTreeMap.getElem?_empty, Std.ExtTreeMap.getD_empty, Nat.add_zero]

theorem getD_tally (keys : List Key) (k : Key) : (tally keys).getD k 0 = keys.count k := by
  rw [Std.ExtTreeMap.getD_eq_getD_getElem?, getElem?_tally]
  by_cases hk : keys.count k = 0
  · rw [if_pos hk, hk]
    rfl
  · rw [if_neg hk]
    rfl

end KeyMap

namespace Numbering

/-- The two halves of a numbering describe one bijection between keys and numbers. -/
def Valid (n : Numbering) : Prop :=
  ∀ (k : Key) (i : Nat), n.index[k]? = some i ↔ n.keys[i]? = some k

theorem valid_empty : Valid {} := by
  intro k i
  simp

theorem Valid.mem_index {n : Numbering} (h : n.Valid) (k : Key) : k ∈ n.index ↔ k ∈ n.keys := by
  rw [Std.ExtTreeMap.mem_iff_isSome_getElem?, Option.isSome_iff_exists, Array.mem_iff_getElem?]
  exact exists_congr (h k)

theorem Valid.record {n : Numbering} (h : n.Valid) (k : Key) : (n.record k).Valid := by
  unfold Numbering.record
  by_cases hk : k ∈ n.index
  · rw [if_pos (by simpa using hk)]
    exact h
  · rw [if_neg (by simpa using hk)]
    intro l i
    rw [Std.ExtTreeMap.getElem?_insert, Array.getElem?_push]
    have hnew : n.index[k]? = none := by simpa using hk
    by_cases hl : k = l <;> by_cases hi : i = n.keys.size
    · simp [hl, hi]
    · -- The new key has no other number, since it had none before.
      subst hl
      have hno : n.keys[i]? ≠ some k := fun he => by simp [(h k i).mpr he] at hnew
      simp [hi, hno, Ne.symm hi]
    · -- The new number belongs to no other key, since the list ended before it.
      subst hi
      have hno : n.index[l]? ≠ some n.keys.size := fun he => by simpa using (h l _).mp he
      simp [hl, hno]
    · simpa [hl, hi] using h l i

theorem mem_keys_record {n : Numbering} (h : n.Valid) (k l : Key) :
    l ∈ (n.record k).keys ↔ l ∈ n.keys ∨ l = k := by
  unfold record
  by_cases hk : k ∈ n.index
  · rw [if_pos (by simpa using hk)]
    have hmem := (h.mem_index k).mp hk
    constructor
    · exact Or.inl
    · intro hx
      obtain hl | rfl := hx
      · exact hl
      · exact hmem
  · rw [if_neg (by simpa using hk), Array.mem_push]

theorem valid_foldl_record (ks : List Key) {n : Numbering} (h : n.Valid) :
    (ks.foldl record n).Valid ∧ ∀ l, l ∈ (ks.foldl record n).keys ↔ l ∈ n.keys ∨ l ∈ ks := by
  induction ks generalizing n with
  | nil => exact ⟨h, fun l => by simp⟩
  | cons k rest ih =>
    obtain ⟨hvalid, hmem⟩ := ih (h.record k)
    refine ⟨hvalid, fun l => ?_⟩
    rw [List.foldl_cons, hmem l, mem_keys_record h, List.mem_cons, or_assoc]

theorem valid_ofList (ks : List Key) : (ofList ks).Valid :=
  (valid_foldl_record ks valid_empty).1

theorem mem_keys_ofList {ks : List Key} {k : Key} : k ∈ (ofList ks).keys ↔ k ∈ ks := by
  rw [ofList, (valid_foldl_record ks valid_empty).2 k]
  simp

theorem Valid.getElem?_number {n : Numbering} (h : n.Valid) {k : Key} (hk : k ∈ n.keys) :
    n.keys[n.number k]? = some k := by
  obtain ⟨i, hi⟩ := Array.mem_iff_getElem?.mp hk
  rw [number, Std.ExtTreeMap.getD_eq_getD_getElem?, (h k i).mpr hi]
  exact hi

theorem Valid.number_lt {n : Numbering} (h : n.Valid) {k : Key} (hk : k ∈ n.keys) :
    n.number k < n.keys.size :=
  (Array.getElem?_eq_some_iff.mp (h.getElem?_number hk)).1

theorem Valid.number_eq {n : Numbering} (h : n.Valid) {k : Key} {i : Nat}
    (hi : n.keys[i]? = some k) : n.number k = i := by
  rw [number, Std.ExtTreeMap.getD_eq_getD_getElem?, (h k i).mpr hi]
  rfl

theorem Valid.number_inj {n : Numbering} (h : n.Valid) {k l : Key} (hk : k ∈ n.keys)
    (hl : l ∈ n.keys) (he : n.number k = n.number l) : k = l := by
  have hstand := h.getElem?_number hk
  rw [he, h.getElem?_number hl] at hstand
  exact (Option.some.inj hstand).symm

end Numbering
end HexMesh
