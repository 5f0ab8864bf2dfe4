import HexMesh.Proofs.Mesh.Fault
import Mathlib.Order.Basic

/-!
Computations in which an access outside a list has no result.

A program that looks lists up with a default cannot show that it never needs the default.
Written with the accesses below, it has a result only if it does not.  When every access
stays inside its list, what remains is the program as it was, `Strict.total`.
-/

namespace HexMesh

/-- A computation that may end in a fault, or in no result at all when it accesses a list
outside its range. -/
abbrev Strict (ε α : Type) := ExceptT ε Option α

namespace Strict

variable {ε α β : Type}

/-- A computation without accesses. -/
def total (x : Except ε α) : Strict ε α := ExceptT.mk (some x)

/-- A value that must be there. -/
def known (o : Option α) : Strict ε α := ExceptT.mk (o.map .ok)

def entry (xs : List α) (i : Nat) : Strict ε α := known xs[i]?

/-- What stands from a place on, which may be the end of the list. -/
def suffix (xs : List α) (i : Nat) : Strict ε (List α) :=
  ExceptT.mk (if i ≤ xs.length then some (.ok (xs.drop i)) else none)

/-- A list with its halves exchanged; they must be equally long. -/
def swapHalves (xs : List α) : Strict ε (List α) :=
  let half := xs.length / 2
  ExceptT.mk (if half + half = xs.length then some (.ok (xs.drop half ++ xs.take half)) else none)

theorem total_bind (x : Except ε α) (f : α → Except ε β) :
    (total x >>= fun a => total (f a)) = total (x >>= f) := by
  cases x <;> rfl

theorem ok_bind (a : α) (f : α → Strict ε β) : total (.ok a) >>= f = f a := rfl

theorem known_eq {o : Option α} {a : α} (h : o = some a) :
    (known o : Strict ε α) = total (.ok a) := by
  rw [h]
  rfl

theorem entry_eq {xs : List α} {i : Nat} {a : α} (h : xs[i]? = some a) :
    (entry xs i : Strict ε α) = total (.ok a) := known_eq h

theorem entry_eq_getD {xs : List α} {i : Nat} (h : i < xs.length) (a : α) :
    (entry xs i : Strict ε α) = total (.ok (xs.getD i a)) := by
  rw [entry_eq (List.getElem?_eq_getElem h), List.getD_eq_getElem?_getD,
    List.getElem?_eq_getElem h, Option.getD_some]

theorem suffix_eq {xs : List α} {i : Nat} (h : i ≤ xs.length) :
    (suffix xs i : Strict ε (List α)) = total (.ok (xs.drop i)) := by
  rw [suffix, if_pos h]
  rfl

theorem mapM_total (f : α → Except ε β) (xs : List α) :
    xs.mapM (fun a => total (f a)) = total (xs.mapM f) := by
  induction xs with
  | nil => rfl
  | cons a rest ih =>
    rw [List.mapM_cons, List.mapM_cons, ih]
    cases f a with
    | error e => rfl
    | ok b => cases rest.mapM f <;> rfl

theorem mapM_of_total {f : α → Strict ε β} {g : α → β} {xs : List α}
    (h : ∀ a ∈ xs, f a = total (.ok (g a))) : xs.mapM f = total (.ok (xs.map g)) := by
  induction xs with
  | nil => rfl
  | cons a rest ih =>
    have ⟨ha, hrest⟩ := List.forall_mem_cons.mp h
    rw [List.mapM_cons, ha, ok_bind, ih hrest]
    rfl

theorem foldlM_total (f : β → α → Except ε β) (xs : List α) (b : β) :
    xs.foldlM (fun b a => total (f b a)) b = total (xs.foldlM f b) := by
  induction xs generalizing b with
  | nil => rfl
  | cons a rest ih =>
    rw [List.foldlM_cons, List.foldlM_cons, ← total_bind]
    exact bind_congr fun b => ih b

/-! ### Vectors -/

theorem mapM_total_vector {n : Nat} (f : α → Except ε β) (xs : Vector α n) :
    xs.mapM (fun a => total (f a)) = total (xs.mapM f) := by
  refine Vector.map_toArray_inj.mp (Array.map_toList_inj.mp ?_)
  have htotal : Array.toList <$> (Vector.toArray <$> total (xs.mapM f)) =
      total (Array.toList <$> (Vector.toArray <$> xs.mapM f)) := by
    cases xs.mapM f <;> rfl
  rw [htotal, map_toList_mapM, map_toList_mapM, mapM_total]

theorem mapM_of_total_vector {n : Nat} {f : α → Strict ε β} {g : α → β} {xs : Vector α n}
    (h : ∀ a ∈ xs.toList, f a = total (.ok (g a))) : xs.mapM f = total (.ok (xs.map g)) := by
  refine Vector.map_toArray_inj.mp (Array.map_toList_inj.mp ?_)
  rw [map_toList_mapM, mapM_of_total h, ← Vector.toList_map]
  rfl

theorem mapM_entry {n : Nat} {xs : List α} {place : Fin n → Nat} (h : ∀ i, place i < xs.length)
    (a : α) : (Vector.finRange n).mapM (fun i => entry xs (place i)) =
      (total (.ok (Vector.ofFn fun i => xs.getD (place i) a)) : Strict ε (Vector α n)) := by
  have hmap : (Vector.finRange n).map (fun i => xs.getD (place i) a) =
      Vector.ofFn fun i => xs.getD (place i) a := by
    refine Vector.ext fun i hi => ?_
    rw [Vector.getElem_map, Vector.getElem_ofFn, Vector.getElem_finRange]
  simp only [entry_eq_getD (h _) a]
  rw [← hmap]
  exact Vector.mapM_pure _

end Strict

end HexMesh
