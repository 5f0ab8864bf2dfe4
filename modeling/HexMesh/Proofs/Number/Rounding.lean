import Mathlib.Algebra.Order.Field.Basic
import Mathlib.Tactic.FieldSimp
import Mathlib.Tactic.Linarith
import Mathlib.Tactic.Ring
import HexMesh.Proofs.Number.Rational
import HexMesh.Proofs.Text.Numerals

/-!
What a numeral with a fixed number of places says.

Such a numeral stands for one of the multiples of a power of ten that are nearest to the
number.  How a tie is decided plays no part in the bounds here: a number between two integers
stays between them when it is rounded, since the integers have numerals of their own.
-/

namespace HexMesh

namespace Decimal

variable {K : Type} [Field K]

/-- The numeral is finite and stands for the number. -/
def Says (x : K) : Decimal → Prop
  | finite negative digits exponent =>
    x = (if negative then -1 else 1) * (digits : K) * (10 : K) ^ exponent
  | infinite _ | undefined => False

theorem Says.unique {x y : K} {a : Decimal} (hx : a.Says x) (hy : a.Says y) : x = y := by
  cases a with
  | finite negative digits exponent => exact hx.trans hy.symm
  | infinite negative => exact hx.elim
  | undefined => exact hx.elim

/-- The text is read as a numeral that stands for the number. -/
def Reads (x : K) (text : String) : Prop := ∃ a, read? text.toList = some a ∧ a.Says x

theorem Reads.unique {x y : K} {text : String} (hx : Reads x text) (hy : Reads y text) : x = y := by
  obtain ⟨a, ha, hx⟩ := hx
  obtain ⟨b, hb, hy⟩ := hy
  cases ha.symm.trans hb
  exact hx.unique hy

/-- Writing a numeral keeps what it stands for. -/
theorem Says.reads {x : K} {a : Decimal} (h : a.Says x) : Reads x a.text := by
  cases a with
  | finite negative digits exponent =>
    refine ⟨_, by rw [text, String.toList_ofList, read?_chars], ?_⟩
    cases exponent with
    | ofNat k =>
      have hmin : min (Int.ofNat k) 0 = 0 := Int.min_eq_right (Int.natCast_nonneg k)
      have hscale : (10 : K) ^ Int.ofNat k = 10 ^ k := zpow_natCast 10 k
      have hx : x = _ * (digits : K) * 10 ^ Int.ofNat k := h
      show x = _ * ((digits * 10 ^ k : Nat) : K) * 10 ^ min (Int.ofNat k) 0
      rw [hx, hmin, hscale, zpow_zero, mul_one, mul_assoc]
      push_cast
      rfl
    | negSucc k =>
      have hmin : min (Int.negSucc k) 0 = Int.negSucc k :=
        Int.min_eq_left (Int.le_of_lt (Int.negSucc_lt_zero k))
      have hscale : digits * 10 ^ (Int.negSucc k).toNat = digits := Nat.mul_one digits
      rw [hmin, hscale]
      exact h
  | infinite negative => exact h.elim
  | undefined => exact h.elim

end Decimal

/-- Scalars whose numerals with a fixed number of places stand for nearest numbers. -/
class Numeral.RoundsToNearest (K : Type) [Field K] [LinearOrder K] [Numeral K] : Prop where
  exists_rounded : ∀ (places : Nat) (x : K), ∃ n : Int,
    (Numeral.rounded places x).Says ((n : K) / 10 ^ places) ∧ |x * 10 ^ places - n| ≤ 1 / 2

section Between

variable {K : Type} [Field K] [LinearOrder K] [IsStrictOrderedRing K]

/-- An integer nearest to a number is not beyond an integer that the number is not beyond. -/
theorem le_of_abs_sub_le_half {x : K} {n bound : Int} (hn : |x - n| ≤ 1 / 2)
    (hx : (bound : K) ≤ x) : bound ≤ n := by
  by_contra hlt
  have hstep : (n : K) + 1 ≤ bound := by exact_mod_cast Int.add_one_le_of_lt (not_le.mp hlt)
  have hupper := (abs_le.mp hn).2
  linarith

theorem Numeral.exists_fixed_between [Numeral K] [Numeral.RoundsToNearest K] (places : Nat)
    {x : K} {low high : Int} (hlow : (low : K) ≤ x) (hhigh : x ≤ (high : K)) :
    ∃ y : K, Decimal.Reads y (Numeral.fixed places x) ∧ (low : K) ≤ y ∧ y ≤ (high : K) := by
  obtain ⟨n, hspell, hn⟩ := RoundsToNearest.exists_rounded places x
  have hpos : (0 : K) < 10 ^ places := by positivity
  have hbelow : low * 10 ^ places ≤ n :=
    le_of_abs_sub_le_half hn (by push_cast; exact mul_le_mul_of_nonneg_right hlow hpos.le)
  have habove : -(high * 10 ^ places) ≤ -n := by
    refine le_of_abs_sub_le_half (x := -(x * 10 ^ places)) ?_ ?_
    · rw [Int.cast_neg, ← neg_sub', abs_neg]
      exact hn
    · push_cast
      exact neg_le_neg (mul_le_mul_of_nonneg_right hhigh hpos.le)
  refine ⟨_, hspell.reads, (le_div_iff₀ hpos).mpr ?_, (div_le_iff₀ hpos).mpr ?_⟩
  · exact_mod_cast hbelow
  · exact_mod_cast neg_le_neg_iff.mp habove

end Between

/-! ## Rational numbers -/

/-- Twice the error is at most the denominator. -/
theorem roundHalfEven_spec (num : Nat) {den : Nat} (h : 0 < den) :
    2 * num ≤ 2 * (roundHalfEven num den * den) + den ∧
      2 * (roundHalfEven num den * den) ≤ 2 * num + den := by
  have hdiv : num / den * den + num % den = num := Nat.div_add_mod' num den
  have hmod := Nat.mod_lt num h
  unfold roundHalfEven
  dsimp only
  split
  case isTrue => omega
  case isFalse hover =>
    have hnext : (num / den + 1) * den = num / den * den + den := Nat.succ_mul _ _
    split
    case isTrue htie =>
      -- A tie goes to the quotient or to the number after it.
      rcases Nat.mod_two_eq_zero_or_one (num / den) with heven | hodd
      · rw [heven, Nat.add_zero]
        omega
      · rw [hodd, hnext]
        omega
    case isFalse =>
      rw [hnext]
      omega

namespace Rational

theorem abs_sub_roundHalfEven_le (num : Nat) {den : Nat} (h : 0 < den) :
    |(num : ℚ) / den - roundHalfEven num den| ≤ 1 / 2 := by
  have hden : (0 : ℚ) < den := by exact_mod_cast h
  obtain ⟨hupper, hlower⟩ := roundHalfEven_spec num h
  have hupper : (2 : ℚ) * num ≤ 2 * (roundHalfEven num den * den) + den := by exact_mod_cast hupper
  have hlower : (2 : ℚ) * (roundHalfEven num den * den) ≤ 2 * num + den := by exact_mod_cast hlower
  rw [abs_sub_le_iff, sub_le_iff_le_add, div_le_iff₀ hden, sub_le_comm, le_div_iff₀ hden]
  constructor <;> linarith

theorem natAbs_num_mul_div (x : ℚ) (n : Nat) :
    ((x.num.natAbs * n : Nat) : ℚ) / x.den = |x| * n := by
  have habs : (x.num.natAbs : ℚ) / x.den = |x| := by
    rw [Nat.cast_natAbs, ← Nat.abs_cast x.den, Int.cast_abs, ← abs_div, Rat.num_div_den]
  rw [Nat.cast_mul, mul_div_right_comm, habs]

instance : Numeral.RoundsToNearest ℚ where
  exists_rounded places x := by
    have herror := abs_sub_roundHalfEven_le (x.num.natAbs * 10 ^ places) x.den_pos
    rw [natAbs_num_mul_div, Nat.cast_pow] at herror
    generalize hdigits : roundHalfEven (x.num.natAbs * 10 ^ places) x.den = digits at herror
    have hspell (n : Int) (hn : (n : ℚ) = (if decide (x < 0) then -1 else 1) * (digits : ℚ)) :
        (Numeral.rounded places x).Says ((n : ℚ) / 10 ^ places) := by
      show (n : ℚ) / 10 ^ places = _ * _ * _
      rw [hdigits, hn, zpow_neg, zpow_natCast, div_eq_mul_inv]
    rcases lt_or_ge x 0 with hx | hx
    · refine ⟨-digits, hspell _ (by simp [hx]), ?_⟩
      rw [abs_of_neg hx] at herror
      have hneg : x * 10 ^ places - ((-digits : Int) : ℚ) = -(-x * 10 ^ places - digits) := by
        push_cast
        ring
      rw [hneg, abs_neg]
      exact_mod_cast herror
    · refine ⟨digits, hspell _ (by simp [hx]), ?_⟩
      rw [abs_of_nonneg hx] at herror
      exact_mod_cast herror

end Rational
end HexMesh
