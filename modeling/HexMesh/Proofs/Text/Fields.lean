import HexMesh.Text.Blank
import HexMesh.Number.Decimal
import HexMesh.Proofs.Text.Lines

/-!
Words and the fields of a line.

Words joined by single spaces are the fields of the line, and the numerals of natural
numbers and of scalars are words.
-/

namespace HexMesh

/-! ## Words -/

/-- A text that is a field of its own: not empty and without blanks. -/
structure Word (w : List Char) : Prop where
  ne_nil : w ≠ []
  not_blank : ∀ c ∈ w, isBlank c = false

theorem word_iff {w : List Char} : Word w ↔ (!w.isEmpty && w.all (!isBlank ·)) = true := by
  rw [Bool.and_eq_true, List.all_eq_true]
  simp only [Bool.not_eq_true', List.isEmpty_eq_false_iff]
  exact ⟨fun h => ⟨h.ne_nil, h.not_blank⟩, fun h => ⟨h.1, h.2⟩⟩

-- as a test of each character in turn, and not of all characters there are
instance (w : List Char) : Decidable (Word w) := decidable_of_iff _ word_iff.symm

/-- Words with a space between every two. -/
def spaced (words : List (List Char)) : List Char := [' '].intercalate words

theorem pieces_cons {c : Char} (hc : isBlank c = false) {cs run : List Char}
    {rest : List (List Char)} (h : pieces cs = run :: rest) :
    pieces (c :: cs) = (c :: run) :: rest := by
  unfold pieces at h ⊢
  rw [List.foldr_cons, h, hc]
  rfl

theorem pieces_append {w : List Char} (h : ∀ c ∈ w, isBlank c = false) (rest : List Char) :
    pieces (w ++ ' ' :: rest) = w :: pieces rest := by
  induction w with
  | nil => rfl
  | cons c w ih =>
    have ⟨hc, hw⟩ := List.forall_mem_cons.mp h
    exact pieces_cons hc (ih hw)

theorem pieces_of_not_blank {w : List Char} (h : ∀ c ∈ w, isBlank c = false) : pieces w = [w] := by
  induction w with
  | nil => rfl
  | cons c w ih =>
    have ⟨hc, hw⟩ := List.forall_mem_cons.mp h
    exact pieces_cons hc (ih hw)

theorem fields_spaced {words : List (List Char)} (h : ∀ w ∈ words, Word w) :
    fields (spaced words) = words := by
  have hkeep : words.filter (!·.isEmpty) = words :=
    List.filter_eq_self.mpr fun w hw => by simpa using (h w hw).ne_nil
  cases words with
  | nil => rfl
  | cons w rest =>
    have hpieces : pieces (spaced (w :: rest)) = w :: rest := by
      clear hkeep
      induction rest generalizing w with
      | nil =>
        rw [spaced, List.intercalate_singleton]
        exact pieces_of_not_blank (h w List.mem_cons_self).not_blank
      | cons v rest ih =>
        have ⟨hw, hrest⟩ := List.forall_mem_cons.mp h
        rw [spaced, List.intercalate_cons_cons, List.append_assoc]
        show pieces (w ++ ' ' :: spaced (v :: rest)) = _
        rw [pieces_append hw.not_blank, ih v hrest]
    rw [fields, hpieces, hkeep]

theorem trim_of_not_blank {w : List Char} (h : ∀ c ∈ w, isBlank c = false) : trim w = w := by
  have hdrop {v : List Char} (hv : ∀ c ∈ v, isBlank c = false) : v.dropWhile isBlank = v := by
    cases v with
    | nil => rfl
    | cons c rest => rw [List.dropWhile_cons_of_neg (by simp [hv c List.mem_cons_self])]
  rw [trim, hdrop h, hdrop fun c hc => h c (List.mem_reverse.mp hc), List.reverse_reverse]

theorem Word.cons {c : Char} {w : List Char} (hc : isBlank c = false) (h : Word w) :
    Word (c :: w) where
  ne_nil := List.cons_ne_nil c w
  not_blank := List.forall_mem_cons.mpr ⟨hc, h.not_blank⟩

theorem Word.unbroken {w : List Char} (h : Word w) : Line.Unbroken w :=
  ⟨fun hmem => absurd (h.not_blank _ hmem) (by decide),
    fun hmem => absurd (h.not_blank _ hmem) (by decide)⟩

theorem unbroken_spaced {words : List (List Char)} (h : ∀ w ∈ words, Word w) :
    Line.Unbroken (spaced words) := by
  have hmem {c : Char} (hc : c ∈ spaced words) : c = ' ' ∨ ∃ w ∈ words, c ∈ w := by
    clear h
    induction words with
    | nil => cases hc
    | cons w rest ih =>
      cases rest with
      | nil =>
        rw [spaced, List.intercalate_singleton] at hc
        exact Or.inr ⟨w, List.mem_cons_self, hc⟩
      | cons v rest =>
        rw [spaced, List.intercalate_cons_cons, List.mem_append, List.mem_append,
          List.mem_singleton] at hc
        rcases hc with (hc | hc) | hc
        · exact Or.inr ⟨w, List.mem_cons_self, hc⟩
        · exact Or.inl hc
        · rcases ih hc with hc | ⟨u, hu, hc⟩
          · exact Or.inl hc
          · exact Or.inr ⟨u, List.mem_cons_of_mem w hu, hc⟩
  refine ⟨fun hc => ?_, fun hc => ?_⟩
  · rcases hmem hc with hc | ⟨w, hw, hc⟩
    · cases hc
    · exact (h w hw).unbroken.1 hc
  · rcases hmem hc with hc | ⟨w, hw, hc⟩
    · cases hc
    · exact (h w hw).unbroken.2 hc

/-! ## Natural numbers -/

theorem not_isBlank {c : Char} (h : 32 < c.toNat ∧ c.toNat < 133) : isBlank c = false := by
  simp only [isBlank, Bool.or_eq_false_iff, Bool.and_eq_false_iff, decide_eq_false_iff_not,
    beq_eq_false_iff_ne]
  omega

theorem toNat_of_isDigit {c : Char} (h : c.isDigit = true) : 48 ≤ c.toNat ∧ c.toNat ≤ 57 := by
  simp only [Char.isDigit, Bool.and_eq_true, decide_eq_true_eq] at h
  exact h

theorem not_isBlank_of_isDigit {c : Char} (h : c.isDigit = true) : isBlank c = false := by
  have hrange := toNat_of_isDigit h
  exact not_isBlank (by omega)

theorem isDigit_toDigits (n : Nat) : ∀ c ∈ Nat.toDigits 10 n, c.isDigit = true :=
  fun _ hc => Nat.isDigit_of_mem_toDigits (by decide) (by decide) hc

theorem word_toDigits (n : Nat) : Word (Nat.toDigits 10 n) where
  ne_nil := Nat.toDigits_ne_nil
  not_blank c hc := not_isBlank_of_isDigit (isDigit_toDigits n c hc)

theorem readNat?_toDigits {n bound : Nat} (h : n < bound) :
    readNat? bound (Nat.toDigits 10 n) = some n := by
  have hdigits : Decimal.digits? (Nat.toDigits 10 n) = some n := by
    have hall : (Nat.toDigits 10 n).all Char.isDigit = true :=
      List.all_eq_true.mpr (isDigit_toDigits n)
    have hne : (Nat.toDigits 10 n).isEmpty = false := by simp [Nat.toDigits_ne_nil]
    rw [Decimal.digits?, hall, hne, Decimal.ofDigits, Nat.ofDigitChars_ten_toDigits]
    rfl
  have hplus (rest : List Char) : Nat.toDigits 10 n ≠ '+' :: rest := by
    intro hcons
    have hdigit := isDigit_toDigits n '+' (hcons ▸ List.mem_cons_self)
    cases hdigit
  rw [readNat?, hdigits, Option.filter_some, if_pos (decide_eq_true h)]
  exact hplus

/-! ## Scalars -/

namespace Decimal

theorem not_isBlank_of_digits? {cs : List Char} {n : Nat} (h : digits? cs = some n) :
    ∀ c ∈ cs, isBlank c = false := by
  intro c hc
  unfold digits? at h
  split at h
  · cases h
  next hall =>
    simp only [Bool.or_eq_true, Bool.not_eq_true', not_or, Bool.not_eq_true, Bool.not_eq_false,
      List.all_eq_true] at hall
    exact not_isBlank_of_isDigit (hall.2 c hc)

theorem not_isBlank_of_signed? {cs : List Char} {n : Int} (h : signed? cs = some n) :
    ∀ c ∈ cs, isBlank c = false := by
  unfold signed? at h
  split at h
  next rest =>
    obtain ⟨m, hm, -⟩ := Option.map_eq_some_iff.mp h
    exact List.forall_mem_cons.mpr ⟨by decide, not_isBlank_of_digits? hm⟩
  next rest =>
    obtain ⟨m, hm, -⟩ := Option.map_eq_some_iff.mp h
    obtain ⟨n, hn, -⟩ := Option.bind_eq_some_iff.mp hm
    exact List.forall_mem_cons.mpr ⟨by decide, not_isBlank_of_digits? hn⟩
  next =>
    obtain ⟨m, hm, -⟩ := Option.map_eq_some_iff.mp h
    exact not_isBlank_of_digits? hm

theorem not_isBlank_of_exponent? {cs : List Char} {e : Int} (h : exponent? cs = some e) :
    ∀ c ∈ cs, isBlank c = false := by
  cases cs with
  | nil => exact fun _ hc => absurd hc List.not_mem_nil
  | cons c rest =>
    rw [exponent?] at h
    by_cases hmark : (c == 'e' || c == 'E') = true
    · rw [if_pos hmark] at h
      refine List.forall_mem_cons.mpr ⟨?_, not_isBlank_of_signed? h⟩
      simp only [Bool.or_eq_true, beq_iff_eq] at hmark
      rcases hmark with rfl | rfl <;> decide
    · rw [if_neg hmark] at h
      cases h

theorem mem_fraction (cs : List Char) :
    ∀ c ∈ cs, c = '.' ∨ c ∈ (fraction cs).1 ∨ c ∈ (fraction cs).2 := by
  intro c hc
  unfold fraction
  split
  next rest =>
    rcases List.mem_cons.mp hc with rfl | hc
    · exact Or.inl rfl
    · rw [← List.takeWhile_append_dropWhile (p := Char.isDigit) (l := rest)] at hc
      exact Or.inr (List.mem_append.mp hc)
  next => exact Or.inr (Or.inr hc)

theorem isDigit_of_mem_fraction {cs : List Char} {c : Char} (hc : c ∈ (fraction cs).1) :
    c.isDigit = true := by
  unfold fraction at hc
  split at hc
  · exact List.all_eq_true.mp List.all_takeWhile c hc
  · cases hc

theorem word_of_magnitude? {cs : List Char} {m : Nat × Int} (h : magnitude? cs = some m) :
    Word cs := by
  have hne : cs ≠ [] := by
    rintro rfl
    cases h
  have hsplit := List.takeWhile_append_dropWhile (p := Char.isDigit) (l := cs)
  have hfraction := mem_fraction (cs.dropWhile Char.isDigit)
  have hdigit (c : Char) (hc : c ∈ (fraction (cs.dropWhile Char.isDigit)).1) :
      c.isDigit = true := isDigit_of_mem_fraction hc
  unfold magnitude? at h
  dsimp only at h
  generalize fraction (cs.dropWhile Char.isDigit) = parts at h hfraction hdigit
  obtain ⟨part, rest⟩ := parts
  split at h
  · cases h
  next hsome =>
    obtain ⟨e, he, -⟩ := Option.map_eq_some_iff.mp h
    refine ⟨hne, fun c hc => ?_⟩
    rw [← hsplit, List.mem_append] at hc
    rcases hc with hc | hc
    · exact not_isBlank_of_isDigit (List.all_eq_true.mp List.all_takeWhile c hc)
    · rcases hfraction c hc with rfl | hc | hc
      · decide
      · exact not_isBlank_of_isDigit (hdigit c hc)
      · exact not_isBlank_of_exponent? he c hc

theorem not_isBlank_of_toLower {c : Char} (h : isBlank c.toLower = false) : isBlank c = false := by
  unfold Char.toLower at h
  split at h
  next hupper =>
    have hrange : 65 ≤ c.toNat ∧ c.toNat ≤ 90 := hupper
    exact not_isBlank (by omega)
  next => exact h

theorem word_of_map_toLower {cs : List Char} (h : Word (cs.map Char.toLower)) : Word cs where
  ne_nil := by
    rintro rfl
    exact h.ne_nil rfl
  not_blank c hc := not_isBlank_of_toLower (h.not_blank _ (List.mem_map_of_mem hc))

theorem word_of_unsigned? {negative : Bool} {cs : List Char} {x : Decimal}
    (h : unsigned? negative cs = some x) : Word cs := by
  unfold unsigned? at h
  dsimp only at h
  split at h
  next hword =>
    refine word_of_map_toLower ?_
    rw [hword]
    decide
  split at h
  next hword =>
    refine word_of_map_toLower ?_
    simp only [Bool.or_eq_true, decide_eq_true_eq] at hword
    rcases hword with hword | hword <;> rw [hword] <;> decide
  next =>
    obtain ⟨m, hm, -⟩ := Option.map_eq_some_iff.mp h
    exact word_of_magnitude? hm

theorem word_of_read? {cs : List Char} {x : Decimal} (h : read? cs = some x) : Word cs := by
  unfold read? at h
  split at h
  · exact (word_of_unsigned? h).cons (by decide)
  · exact (word_of_unsigned? h).cons (by decide)
  · exact word_of_unsigned? h

end Decimal
end HexMesh
