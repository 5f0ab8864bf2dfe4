import Mathlib.Data.List.FinRange
import Mathlib.Data.Set.Function
import Mathlib.Order.Interval.Set.Defs
import Mathlib.Tactic.Ring

/-!
Numbers in blocks and in mixed radix.

A number below `m * n` is a block below `m` and a place below `n` in it.  In mixed radix
this is done once for each place.  The weight of a place is the product of the radices
before it; the digits of a number decide it, and every choice of digits is a number.
-/

namespace HexMesh

/-! ## Blocks -/

theorem block_div {i n r : Nat} (h : r < n) : (i * n + r) / n = i := by
  rw [Nat.add_comm, Nat.add_mul_div_right _ _ (Nat.zero_lt_of_lt h), Nat.div_eq_of_lt h,
    Nat.zero_add]

theorem block_lt {i m n r : Nat} (hi : i < m) (h : r < n) : i * n + r < m * n := by
  have hrow : (i + 1) * n ≤ m * n := Nat.mul_le_mul_right n hi
  rw [Nat.succ_mul] at hrow
  omega

theorem exists_block {j m n : Nat} (hj : j < m * n) :
    ∃ i < m, ∃ r : Fin n, i * n + r = j := by
  have hpos : 0 < n := Nat.pos_of_mul_pos_left (Nat.zero_lt_of_lt hj)
  exact ⟨_, (Nat.div_lt_iff_lt_mul hpos).mpr hj, ⟨j % n, Nat.mod_lt j hpos⟩, Nat.div_add_mod' _ _⟩

theorem block_inj {i j n r s : Nat} (hr : r < n) (hs : s < n) (h : i * n + r = j * n + s) :
    i = j ∧ r = s :=
  ⟨by rw [← block_div (i := i) hr, h, block_div hs],
    by rw [← Nat.mul_add_mod_of_lt (a := i) hr, h, Nat.mul_add_mod_of_lt hs]⟩

theorem map_range_blocks {α : Type} (f : Nat → α) (m n : Nat) :
    (List.range (m * n)).map f =
      (List.range m).flatMap fun i => (List.range n).map fun r => f (i * n + r) := by
  induction m with
  | zero => simp
  | succ m ih =>
    rw [Nat.succ_mul, List.range_add, List.map_append, ih, List.range_succ, List.flatMap_append,
      List.map_map, List.flatMap_singleton]
    rfl

/-- Renaming blocks of one length renames their members. -/
theorem bijOn_blocks {f : Nat → Nat} {a b n : Nat}
    (h : Set.BijOn f (Set.Iio a) (Set.Iio b)) :
    Set.BijOn (fun j => f (j / n) * n + j % n) (Set.Iio (a * n)) (Set.Iio (b * n)) := by
  rcases Nat.eq_zero_or_pos n with rfl | hn
  · exact Set.BijOn.mk (fun j hj => absurd hj (Nat.not_lt_zero j))
      (fun j hj => absurd hj (Nat.not_lt_zero j)) fun j hj => absurd hj (Nat.not_lt_zero j)
  have hdiv {j m : Nat} (hj : j < m * n) : j / n < m := (Nat.div_lt_iff_lt_mul hn).mpr hj
  refine ⟨fun j hj => ?_, fun i hi j hj he => ?_, fun j hj => ?_⟩
  · exact block_lt (h.mapsTo (hdiv hj)) (Nat.mod_lt _ hn)
  · obtain ⟨hblock, hrest⟩ := block_inj (Nat.mod_lt _ hn) (Nat.mod_lt _ hn) he
    rw [← Nat.div_add_mod' i n, ← Nat.div_add_mod' j n, hrest,
      h.injOn (hdiv hi) (hdiv hj) hblock]
  · obtain ⟨i, hi, hblock⟩ := h.surjOn (hdiv hj)
    refine ⟨i * n + j % n, block_lt hi (Nat.mod_lt _ hn), ?_⟩
    show f ((i * n + j % n) / n) * n + (i * n + j % n) % n = j
    rw [block_div (Nat.mod_lt _ hn), Nat.mul_add_mod_of_lt (Nat.mod_lt _ hn), hblock,
      Nat.div_add_mod']

/-! ## Mixed radix -/

namespace Radix

variable {d : Nat} {radix : Vector Nat d}

/-- The weight of a place: the product of the radices before it. -/
def weight (radix : Vector Nat d) (place : Nat) : Nat :=
  (radix.toList.take place).foldl (· * ·) 1

/-- The digit of a number at a place. -/
def digit (radix : Vector Nat d) (n : Nat) (a : Fin d) : Nat :=
  n / weight radix a % radix.get a

/-- The number with given digits. -/
def number (radix : Vector Nat d) (f : Fin d → Nat) : Nat :=
  (List.finRange d).foldl (fun n (a : Fin d) => n + f a * weight radix a) 0

/-- The number with given digits at the first places and zeros behind them. -/
def leading (radix : Vector Nat d) (f : Fin d → Nat) (places : Nat) : Nat :=
  ((List.finRange d).take places).foldl (fun n (a : Fin d) => n + f a * weight radix a) 0

theorem weight_succ (radix : Vector Nat d) {n : Nat} (h : n < d) :
    weight radix (n + 1) = weight radix n * radix.get ⟨n, h⟩ := by
  have hget : radix.toList[n]? = some (radix.get ⟨n, h⟩) := by
    rw [Vector.getElem?_toList, Vector.getElem?_eq_getElem h]
    rfl
  rw [weight, List.take_add_one, hget, Option.toList_some, List.foldl_append]
  rfl

theorem leading_succ (radix : Vector Nat d) (f : Fin d → Nat) {n : Nat} (h : n < d) :
    leading radix f (n + 1) = leading radix f n + f ⟨n, h⟩ * weight radix n := by
  have hget : (List.finRange d)[n]? = some ⟨n, h⟩ := by
    rw [List.getElem?_eq_getElem (by rwa [List.length_finRange]), List.getElem_finRange]
    rfl
  rw [leading, List.take_add_one, hget, Option.toList_some, List.foldl_append]
  rfl

theorem leading_eq_number (radix : Vector Nat d) (f : Fin d → Nat) :
    leading radix f d = number radix f := by
  rw [leading, List.take_of_length_le (by simp), number]

theorem weight_dvd (radix : Vector Nat d) {m n : Nat} (hmn : m ≤ n) (hn : n ≤ d) :
    weight radix m ∣ weight radix n := by
  induction n, hmn using Nat.le_induction with
  | base => exact Nat.dvd_refl _
  | succ n hmn ih =>
    rw [weight_succ radix hn]
    exact Nat.dvd_mul_right_of_dvd (ih (Nat.le_of_succ_le hn)) _

/-- The first digits stay below the weight of the next place. -/
theorem leading_lt {f : Fin d → Nat} (h : ∀ a, f a < radix.get a) {n : Nat} (hn : n ≤ d) :
    leading radix f n < weight radix n := by
  induction n with
  | zero => exact Nat.zero_lt_one
  | succ n ih =>
    have hlow := ih (Nat.le_of_succ_le hn)
    have hdigit := block_lt (h ⟨n, hn⟩) hlow
    rw [leading_succ radix f hn, weight_succ radix hn, Nat.mul_comm (weight radix n), Nat.add_comm]
    exact hdigit

theorem number_lt {f : Fin d → Nat} (h : ∀ a, f a < radix.get a) :
    number radix f < weight radix d :=
  leading_eq_number radix f ▸ leading_lt h (Nat.le_refl d)

theorem digit_lt {n : Nat} (h : n < weight radix d) (a : Fin d) :
    digit radix n a < radix.get a := by
  refine Nat.mod_lt _ (Nat.pos_of_ne_zero fun hzero => ?_)
  have hdvd := weight_dvd radix (Nat.succ_le_of_lt a.isLt) (Nat.le_refl d)
  rw [weight_succ radix a.isLt] at hdvd
  have hradix : radix.get ⟨a, a.isLt⟩ = 0 := hzero
  rw [hradix, Nat.mul_zero, Nat.zero_dvd] at hdvd
  omega

/-- A later place adds a multiple of the radix to the quotient. -/
theorem digit_add_mul_weight (radix : Vector Nat d) {a : Fin d} {m : Nat} (ha : a < m)
    (hm : m ≤ d) (n k : Nat) : digit radix (n + k * weight radix m) a = digit radix n a := by
  obtain ⟨q, hq⟩ := weight_dvd radix (Nat.succ_le_of_lt ha) hm
  have hmultiple : k * weight radix m = k * q * radix.get a * weight radix a := by
    rw [hq, weight_succ radix a.isLt]
    show k * (weight radix a * radix.get a * q) = _
    ring
  rcases Nat.eq_zero_or_pos (weight radix a) with hzero | hpos
  · rw [digit, digit, hzero, Nat.div_zero, Nat.div_zero]
  · rw [digit, digit, hmultiple, Nat.add_mul_div_right _ _ hpos, Nat.add_mul_mod_self_right]

theorem digit_leading {f : Fin d → Nat} (h : ∀ a, f a < radix.get a) {n : Nat} (hn : n ≤ d)
    {a : Fin d} (ha : a < n) : digit radix (leading radix f n) a = f a := by
  induction n with
  | zero => exact absurd ha (Nat.not_lt_zero _)
  | succ n ih =>
    rw [leading_succ radix f hn]
    rcases Nat.lt_succ_iff_lt_or_eq.mp ha with hlt | heq
    · rw [digit_add_mul_weight radix hlt (Nat.le_of_succ_le hn)]
      exact ih (Nat.le_of_succ_le hn) hlt
    · subst heq
      have hlow := leading_lt h (Nat.le_of_lt a.isLt)
      rw [digit, Nat.add_mul_div_right _ _ (Nat.zero_lt_of_lt hlow), Nat.div_eq_of_lt hlow,
        Nat.zero_add]
      exact Nat.mod_eq_of_lt (h a)

@[simp] theorem digit_number {f : Fin d → Nat} (h : ∀ a, f a < radix.get a) (a : Fin d) :
    digit radix (number radix f) a = f a :=
  leading_eq_number radix f ▸ digit_leading h (Nat.le_refl d) a.isLt

/-- The digits decide a number. -/
theorem ext_digit {m n : Nat} (hm : m < weight radix d) (hn : n < weight radix d)
    (h : ∀ a, digit radix m a = digit radix n a) : m = n := by
  have hmod : ∀ e ≤ d, m % weight radix e = n % weight radix e := by
    intro e he
    induction e with
    | zero =>
      show m % 1 = n % 1
      rw [Nat.mod_one, Nat.mod_one]
    | succ e ih =>
      have hdigit : m / weight radix e % radix.get ⟨e, he⟩ =
          n / weight radix e % radix.get ⟨e, he⟩ := h ⟨e, he⟩
      rw [weight_succ radix he, Nat.mod_mul, Nat.mod_mul, ih (Nat.le_of_succ_le he), hdigit]
  rw [← Nat.mod_eq_of_lt hm, hmod d (Nat.le_refl d), Nat.mod_eq_of_lt hn]

/-! One more place leaves the weights and the digits before it as they are. -/

theorem weight_push (radix : Vector Nat d) (r : Nat) {n : Nat} (h : n ≤ d) :
    weight (radix.push r) n = weight radix n := by
  rw [weight, weight, Vector.toList_push, List.take_append_of_le_length (by simpa using h)]

theorem weight_push_last (radix : Vector Nat d) (r : Nat) :
    weight (radix.push r) (d + 1) = weight radix d * r := by
  rw [weight_succ _ (Nat.lt_succ_self d), weight_push _ _ (Nat.le_refl d)]
  congr 1
  exact Vector.getElem_push_eq

theorem number_push (radix : Vector Nat d) (r : Nat) (f : Fin (d + 1) → Nat) :
    number (radix.push r) f =
      number radix (fun a => f a.castSucc) + f (Fin.last d) * weight radix d := by
  rw [number, List.finRange_succ_last, List.foldl_append, List.foldl_map]
  have hplaces : (fun n (a : Fin d) =>
      n + f a.castSucc * weight (radix.push r) a.castSucc.val) = fun n (a : Fin d) =>
        n + f a.castSucc * weight radix a := by
    funext n a
    rw [Fin.val_castSucc, weight_push _ _ (Nat.le_of_lt a.isLt)]
  rw [hplaces]
  show _ + f (Fin.last d) * weight (radix.push r) d = _
  rw [weight_push _ _ (Nat.le_refl d)]
  rfl

theorem digit_push_castSucc (radix : Vector Nat d) (r n : Nat) (a : Fin d) :
    digit (radix.push r) n a.castSucc = digit radix n a := by
  rw [digit, digit, Fin.val_castSucc, weight_push _ _ (Nat.le_of_lt a.isLt)]
  congr 1
  exact Vector.getElem_push_lt a.isLt

theorem digit_push_last (radix : Vector Nat d) (r n : Nat) :
    digit (radix.push r) n (Fin.last d) = n / weight radix d % r := by
  rw [digit, Fin.val_last, weight_push _ _ (Nat.le_refl d)]
  congr 1
  exact Vector.getElem_push_eq

end Radix
end HexMesh
