import Mathlib.Algebra.Group.Nat.Defs
import Mathlib.Data.List.TakeWhile
import HexMesh.Proofs.Text.Fields

/-!
Numerals are read as they were written.

A finite numeral is written without an exponent, as digits with at most one point among them.
Reading counts the digits behind the point, so that it finds the numeral again, but for zeros
that stand for a positive exponent.  `Decimal.Prints` is that for any numeral: what the text has
to be, said by the reader and not by the writer.
-/

namespace HexMesh
namespace Decimal

theorem ofDigits_toDigits (n : Nat) : ofDigits (Nat.toDigits 10 n) = n :=
  Nat.ofDigitChars_ten_toDigits

/-- Leading zeros do not count. -/
theorem ofDigits_padded (k n : Nat) :
    ofDigits (List.replicate k '0' ++ Nat.toDigits 10 n) = n := by
  rw [ofDigits, Nat.ofDigitChars_append, Nat.ofDigitChars_replicate_zero, Nat.mul_zero]
  exact ofDigits_toDigits n

/-- What is written with a point has digits on both sides of it, at least one of them before. -/
theorem pointed_eq (n places : Nat) : ∃ whole part : List Char, whole ≠ [] ∧
    (∀ c ∈ whole ++ part, c.isDigit = true) ∧ part.length = places ∧ ofDigits (whole ++ part) = n ∧
      pointed n places = whole ++ '.' :: part := by
  let padded := List.replicate (places + 1 - (Nat.toDigits 10 n).length) '0' ++ Nat.toDigits 10 n
  have hlength : places < padded.length := by
    rw [List.length_append, List.length_replicate]
    omega
  have hpadded : padded.take (padded.length - places) ++ padded.drop (padded.length - places) =
      padded := List.take_append_drop _ _
  refine ⟨padded.take (padded.length - places), padded.drop (padded.length - places), ?_, ?_, ?_,
    ?_, rfl⟩
  · refine List.ne_nil_of_length_pos ?_
    rw [List.length_take]
    omega
  · rw [hpadded]
    intro c hc
    rcases List.mem_append.mp hc with hc | hc
    · rw [List.eq_of_mem_replicate hc]
      rfl
    · exact isDigit_toDigits n c hc
  · rw [List.length_drop]
    omega
  · rw [hpadded]
    exact ofDigits_padded _ n

theorem magnitude?_digits {whole : List Char} (hne : whole ≠ [])
    (hwhole : ∀ c ∈ whole, c.isDigit = true) : magnitude? whole = some (ofDigits whole, 0) := by
  have htake : whole.takeWhile Char.isDigit = whole := List.takeWhile_eq_self_iff.mpr hwhole
  have hdrop : whole.dropWhile Char.isDigit = [] := List.dropWhile_eq_nil_iff.mpr hwhole
  simp [magnitude?, htake, hdrop, fraction, exponent?, hne]

theorem magnitude?_point {whole part : List Char} (hne : whole ≠ [])
    (hdigits : ∀ c ∈ whole ++ part, c.isDigit = true) :
    magnitude? (whole ++ '.' :: part) = some (ofDigits (whole ++ part), -(part.length : Int)) := by
  have hwhole : ∀ c ∈ whole, c.isDigit = true := fun c hc => hdigits c (List.mem_append_left _ hc)
  have hpart : ∀ c ∈ part, c.isDigit = true := fun c hc => hdigits c (List.mem_append_right _ hc)
  have hpoint : Char.isDigit '.' = false := rfl
  have htake : (whole ++ '.' :: part).takeWhile Char.isDigit = whole := by
    rw [List.takeWhile_append_of_pos hwhole, List.takeWhile_cons_of_neg (by simp [hpoint]),
      List.append_nil]
  have hdrop : (whole ++ '.' :: part).dropWhile Char.isDigit = '.' :: part := by
    rw [List.dropWhile_append_of_pos hwhole, List.dropWhile_cons_of_neg (by simp [hpoint])]
  have hrest : fraction ('.' :: part) = (part, []) := by
    rw [fraction, List.takeWhile_eq_self_iff.mpr hpart, List.dropWhile_eq_nil_iff.mpr hpart]
  simp [magnitude?, htake, hdrop, hrest, exponent?, hne]

/-- A numeral without sign starts with a digit, and what it says is read from it. -/
theorem positional_eq (n : Nat) (e : Int) : ∃ (c : Char) (rest : List Char), c.isDigit = true ∧
    positional n e = c :: rest ∧
      magnitude? (positional n e) = some (n * 10 ^ e.toNat, min e 0) := by
  have hhead {cs : List Char} (hne : cs ≠ []) (hcs : ∀ c ∈ cs, c.isDigit = true) :
      ∃ (c : Char) (rest : List Char), c.isDigit = true ∧ cs = c :: rest := by
    obtain ⟨c, rest, rfl⟩ := List.exists_cons_of_ne_nil hne
    exact ⟨c, rest, hcs c List.mem_cons_self, rfl⟩
  cases e with
  | ofNat k =>
    have hdigits := isDigit_toDigits (n * 10 ^ k)
    obtain ⟨c, rest, hc, hcs⟩ := hhead Nat.toDigits_ne_nil hdigits
    refine ⟨c, rest, hc, hcs, ?_⟩
    have hmin : min (Int.ofNat k) 0 = 0 := Int.min_eq_right (Int.natCast_nonneg k)
    have hread := magnitude?_digits Nat.toDigits_ne_nil hdigits
    rw [ofDigits_toDigits] at hread
    rw [hmin]
    exact hread
  | negSucc k =>
    obtain ⟨whole, part, hne, hdigits, hlength, hvalue, hpointed⟩ := pointed_eq n (k + 1)
    obtain ⟨c, rest, hc, rfl⟩ :=
      hhead hne fun c hc => hdigits c (List.mem_append_left _ hc)
    refine ⟨c, rest ++ '.' :: part, hc, hpointed, ?_⟩
    have hmin : min (Int.negSucc k) 0 = -((k + 1 : Nat) : Int) :=
      Int.min_eq_left (Int.le_of_lt (Int.negSucc_lt_zero k))
    have hscale : n * 10 ^ (Int.negSucc k).toNat = n := Nat.mul_one n
    show magnitude? (pointed n (k + 1)) = _
    rw [hpointed, magnitude?_point hne hdigits, hvalue, hlength, hmin, hscale]

/-- A text that starts with a digit is none of the words for special values. -/
theorem unsigned?_of_isDigit (negative : Bool) {c : Char} (hc : c.isDigit = true)
    (rest : List Char) : unsigned? negative (c :: rest) =
      (magnitude? (c :: rest)).map fun m => finite negative m.1 m.2 := by
  have hrange := toNat_of_isDigit hc
  have hlower : c.toLower = c := by
    unfold Char.toLower
    rw [dif_neg]
    intro hupper
    have hupper : 65 ≤ c.toNat ∧ c.toNat ≤ 90 := hupper
    omega
  have hletter {l : Char} (hl : 58 ≤ l.toNat) : c ≠ l := by
    rintro rfl
    omega
  have hn := hletter (by decide : 58 ≤ ('n').toNat)
  have hi := hletter (by decide : 58 ≤ ('i').toNat)
  simp [unsigned?, hlower, hn, hi]

/-- What is read from a written numeral. -/
theorem read?_chars (negative : Bool) (n : Nat) (e : Int) :
    read? (finite negative n e).chars =
      some (finite negative (n * 10 ^ e.toNat) (min e 0)) := by
  obtain ⟨c, rest, hc, hcs, hread⟩ := positional_eq n e
  have hrange := toNat_of_isDigit hc
  have hunsigned : unsigned? negative (positional n e) =
      some (finite negative (n * 10 ^ e.toNat) (min e 0)) := by
    rw [hcs, unsigned?_of_isDigit negative hc, ← hcs, hread]
    rfl
  cases negative with
  | true => exact hunsigned
  | false =>
    show read? (positional n e) = _
    rw [← hunsigned, hcs, read?]
    · rintro _ ⟨rfl, -⟩
      exact absurd hrange (by decide)
    · rintro _ ⟨rfl, -⟩
      exact absurd hrange (by decide)

/-! ## Printed numerals -/

/-- The same numeral with a power of ten that is at most one. -/
def multipliedOut : Decimal → Decimal
  | finite negative n e => finite negative (n * 10 ^ e.toNat) (min e 0)
  | d => d

/-- The text is a numeral that stands for the same.  It has no exponent, and so as many digits
behind its point as the power of ten asks for. -/
structure Prints (d : Decimal) (text : String) : Prop where
  read : read? text.toList = some d.multipliedOut
  bare : ∀ c ∈ text.toList, c ≠ 'e' ∧ c ≠ 'E'

theorem mem_positional {n : Nat} {e : Int} {c : Char} (hc : c ∈ positional n e) :
    c.isDigit = true ∨ c = '.' := by
  cases e with
  | ofNat k => exact .inl (isDigit_toDigits _ c hc)
  | negSucc k =>
    obtain ⟨whole, part, -, hdigits, -, -, hpointed⟩ := pointed_eq n (k + 1)
    have hc : c ∈ whole ++ '.' :: part := hpointed ▸ hc
    rcases List.mem_append.mp hc with hc | hc
    · exact .inl (hdigits c (List.mem_append_left _ hc))
    · rcases List.mem_cons.mp hc with rfl | hc
      · exact .inr rfl
      · exact .inl (hdigits c (List.mem_append_right _ hc))

theorem prints_text (d : Decimal) : d.Prints d.text := by
  cases d with
  | undefined => exact ⟨by decide, by simp [text, chars]⟩
  | infinite negative =>
    cases negative <;> exact ⟨by decide, by simp [text, chars, signMark]⟩
  | finite negative n e =>
    refine ⟨by rw [text, String.toList_ofList, read?_chars, multipliedOut], fun c hc => ?_⟩
    rw [text, String.toList_ofList, chars, List.mem_append] at hc
    rcases hc with hsign | hc
    · cases negative with
      | true => exact List.mem_singleton.mp hsign ▸ ⟨by decide, by decide⟩
      | false => exact absurd hsign List.not_mem_nil
    · rcases mem_positional hc with hdigit | rfl
      · exact ⟨fun he => absurd (he ▸ hdigit) (by decide),
          fun he => absurd (he ▸ hdigit) (by decide)⟩
      · exact ⟨by decide, by decide⟩

end Decimal
end HexMesh
