import HexMesh.Mesh.Fault

/-!
Computations that may end in a fault.

A chain of steps succeeds when every step does, and a list is processed when every
member is.  These two facts take apart whatever is written with `do` and `mapM`.
`Matches` compares two computations step by step.
-/

namespace HexMesh

variable {ε α β γ δ : Type}

theorem bind_eq_ok_iff {x : Except ε α} {f : α → Except ε β} {b : β} :
    x >>= f = .ok b ↔ ∃ a, x = .ok a ∧ f a = .ok b := by
  constructor
  · intro h
    cases x with
    | ok a => exact ⟨a, rfl, h⟩
    | error e => cases h
  · intro h
    obtain ⟨a, rfl, hf⟩ := h
    exact hf

theorem toOption_eq_some_iff {x : Except ε α} {a : α} : x.toOption = some a ↔ x = .ok a := by
  cases x <;> simp [Except.toOption]

theorem toOption_bind (x : Except ε α) (f : α → Except ε β) :
    (x >>= f).toOption = x.toOption.bind fun a => (f a).toOption := by
  cases x <;> rfl

theorem mapM_eq_ok_iff {f : α → Except ε β} {xs : List α} {ys : List β} :
    xs.mapM f = .ok ys ↔ xs.map f = ys.map .ok := by
  induction xs generalizing ys with
  | nil =>
    rw [List.mapM_nil, List.map_nil]
    constructor
    · intro h
      cases h
      rfl
    · intro h
      rw [List.map_eq_nil_iff.mp h.symm]
      rfl
  | cons x rest ih =>
    rw [List.mapM_cons, bind_eq_ok_iff, List.map_cons]
    constructor
    · intro h
      obtain ⟨y, hy, h⟩ := h
      obtain ⟨ys, hys, h⟩ := bind_eq_ok_iff.mp h
      cases h
      rw [hy, ih.mp hys, List.map_cons]
    · intro h
      cases ys with
      | nil => cases h
      | cons y ys =>
        obtain ⟨hy, hys⟩ := List.cons.inj h
        exact ⟨y, hy, bind_eq_ok_iff.mpr ⟨ys, ih.mpr hys, rfl⟩⟩

/-! ## Two computations -/

/-- Two computations end in the same fault or in related results. -/
inductive Matches (R : α → β → Prop) : Except ε α → Except ε β → Prop where
  | ok {a : α} {b : β} (related : R a b) : Matches R (.ok a) (.ok b)
  | error (e : ε) : Matches R (.error e) (.error e)

theorem Matches.refl (x : Except ε α) : Matches (· = ·) x x := by
  cases x with
  | ok a => exact .ok rfl
  | error e => exact .error e

theorem Matches.bind {R : α → β → Prop} {S : γ → δ → Prop} {x : Except ε α} {y : Except ε β}
    {f : α → Except ε γ} {g : β → Except ε δ} (h : Matches R x y)
    (next : ∀ a b, R a b → Matches S (f a) (g b)) : Matches S (x >>= f) (y >>= g) := by
  cases h with
  | ok related => exact next _ _ related
  | error e => exact .error e

/-! ## Vectors

Two ways to process a vector agree when the ways to process its list do. -/

theorem map_toList_mapM {m : Type → Type} [Monad m] [LawfulMonad m] {n : Nat} (f : α → m β)
    (xs : Vector α n) : Array.toList <$> (Vector.toArray <$> xs.mapM f) = xs.toList.mapM f := by
  rw [Vector.toArray_mapM, Array.toList_mapM, Vector.toList_toArray]

theorem mapM_vector_eq_ok {n : Nat} {f : α → Except ε β} {xs : Vector α n} {ys : Vector β n}
    (h : xs.toList.map f = ys.toList.map .ok) : xs.mapM f = .ok ys := by
  refine Vector.map_toArray_inj.mp (Array.map_toList_inj.mp ?_)
  rw [map_toList_mapM, mapM_eq_ok_iff.mpr h]
  rfl

end HexMesh
