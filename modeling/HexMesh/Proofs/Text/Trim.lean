import HexMesh.Proofs.Text.Fields

/-!
Blanks at the ends of a line and between its fields.

The fields of a line do not see the blanks at its ends, so a trimmed line has the fields of the
whole line.  The other way round the fields tell a trimmed line only if there is a single one:
a line is a word between blanks exactly if this word is its only field (`trim_eq_iff_fields`).
-/

namespace HexMesh

/-! ## Fields -/

theorem pieces_blank {c : Char} (hc : isBlank c = true) (cs : List Char) :
    pieces (c :: cs) = [] :: pieces cs := by
  rw [pieces, List.foldr_cons, if_pos hc]
  rfl

theorem fields_blank {c : Char} (hc : isBlank c = true) (cs : List Char) :
    fields (c :: cs) = fields cs := by
  rw [fields, pieces_blank hc]
  rfl

theorem exists_pieces (cs : List Char) : ∃ run rest, pieces cs = run :: rest := by
  induction cs with
  | nil => exact ⟨[], [], rfl⟩
  | cons c cs ih =>
    obtain ⟨run, rest, h⟩ := ih
    cases hc : isBlank c with
    | true => exact ⟨[], pieces cs, pieces_blank hc cs⟩
    | false => exact ⟨c :: run, rest, pieces_cons hc h⟩

theorem pieces_append_blank (cs : List Char) {c : Char} (hc : isBlank c = true) :
    pieces (cs ++ [c]) = pieces cs ++ [[]] := by
  induction cs with
  | nil => exact pieces_blank hc []
  | cons b cs ih =>
    obtain ⟨run, rest, h⟩ := exists_pieces cs
    rw [List.cons_append]
    cases hb : isBlank b with
    | true => rw [pieces_blank hb, pieces_blank hb, ih, List.cons_append]
    | false =>
      rw [h, List.cons_append] at ih
      rw [pieces_cons hb ih, pieces_cons hb h, List.cons_append]

theorem fields_append_blank (cs : List Char) {c : Char} (hc : isBlank c = true) :
    fields (cs ++ [c]) = fields cs := by
  rw [fields, pieces_append_blank cs hc, List.filter_append]
  exact List.append_nil _

theorem fields_dropWhile (cs : List Char) : fields (cs.dropWhile isBlank) = fields cs := by
  induction cs with
  | nil => rfl
  | cons c cs ih =>
    cases hc : isBlank c with
    | true => rw [List.dropWhile_cons_of_pos hc, ih, fields_blank hc]
    | false => rw [List.dropWhile_cons_of_neg (by simp [hc])]

theorem fields_reverse_dropWhile (cs : List Char) :
    fields (cs.dropWhile isBlank).reverse = fields cs.reverse := by
  induction cs with
  | nil => rfl
  | cons c cs ih =>
    cases hc : isBlank c with
    | true =>
      rw [List.dropWhile_cons_of_pos hc, ih, List.reverse_cons, fields_append_blank _ hc]
    | false => rw [List.dropWhile_cons_of_neg (by simp [hc])]

theorem fields_trim (cs : List Char) : fields (trim cs) = fields cs := by
  rw [trim, fields_reverse_dropWhile, List.reverse_reverse, fields_dropWhile]

theorem fields_congr {cs ds : List Char} (h : trim cs = trim ds) : fields cs = fields ds := by
  rw [← fields_trim, h, fields_trim]

theorem Word.fields_eq {w : List Char} (h : Word w) : fields w = [w] := by
  have hne : w.isEmpty = false := List.isEmpty_eq_false_iff.mpr h.ne_nil
  rw [fields, pieces_of_not_blank h.not_blank, List.filter_cons, hne]
  rfl

/-! ## Trimmed lines -/

theorem trim_of_blank {cs : List Char} (h : ∀ c ∈ cs, isBlank c = true) : trim cs = [] := by
  have hdrop : cs.dropWhile isBlank = [] := by
    rw [← List.append_nil cs, List.dropWhile_append_of_pos h]
    rfl
  rw [trim, hdrop]
  rfl

theorem trim_append_blank (cs : List Char) {c : Char} (hc : isBlank c = true) :
    trim (cs ++ [c]) = trim cs := by
  rw [trim, trim, List.dropWhile_append]
  cases hempty : (cs.dropWhile isBlank).isEmpty with
  | true =>
    rw [if_pos rfl, List.isEmpty_iff.mp hempty, List.dropWhile_cons_of_pos hc]
    rfl
  | false =>
    rw [if_neg Bool.false_ne_true, List.reverse_append]
    exact congrArg List.reverse (List.dropWhile_cons_of_pos hc)

theorem trim_word_append {w rest : List Char} (hw : Word w)
    (hrest : ∀ c ∈ rest, isBlank c = true) : trim (w ++ rest) = w := by
  have hfront : (w ++ rest).dropWhile isBlank = w ++ rest := by
    obtain ⟨c, v, rfl⟩ := List.exists_cons_of_ne_nil hw.ne_nil
    exact List.dropWhile_cons_of_neg (by simp [hw.not_blank c List.mem_cons_self])
  have hback : (w ++ rest).reverse.dropWhile isBlank = w.reverse.dropWhile isBlank := by
    rw [List.reverse_append]
    exact List.dropWhile_append_of_pos fun c hc => hrest c (List.mem_reverse.mp hc)
  have htrim := trim_of_not_blank hw.not_blank
  have hwfront : w.dropWhile isBlank = w := by
    obtain ⟨c, v, rfl⟩ := List.exists_cons_of_ne_nil hw.ne_nil
    exact List.dropWhile_cons_of_neg (by simp [hw.not_blank c List.mem_cons_self])
  rw [trim, hfront, hback]
  rwa [trim, hwfront] at htrim

theorem blank_of_fields_eq_nil {cs : List Char} (h : fields cs = []) :
    ∀ c ∈ cs, isBlank c = true := by
  induction cs with
  | nil => exact fun _ hc => absurd hc List.not_mem_nil
  | cons c cs ih =>
    cases hc : isBlank c with
    | true =>
      rw [fields_blank hc] at h
      exact List.forall_mem_cons.mpr ⟨hc, ih h⟩
    | false =>
      obtain ⟨run, rest, hpieces⟩ := exists_pieces cs
      rw [fields, pieces_cons hc hpieces] at h
      cases h

theorem pieces_eq_cons {cs run : List Char} {rest : List (List Char)}
    (h : pieces cs = run :: rest) :
    cs = run ∧ rest = [] ∨ ∃ c ds, isBlank c = true ∧ cs = run ++ c :: ds ∧ pieces ds = rest := by
  induction cs generalizing run with
  | nil =>
    cases h
    exact Or.inl ⟨rfl, rfl⟩
  | cons c cs ih =>
    cases hc : isBlank c with
    | true =>
      rw [pieces_blank hc] at h
      cases h
      exact Or.inr ⟨c, cs, hc, rfl, rfl⟩
    | false =>
      obtain ⟨run', rest', h'⟩ := exists_pieces cs
      rw [pieces_cons hc h'] at h
      cases h
      rcases ih h' with ⟨rfl, hrest⟩ | ⟨b, ds, hb, rfl, hrest⟩
      · exact Or.inl ⟨rfl, hrest⟩
      · exact Or.inr ⟨b, ds, hb, rfl, hrest⟩

theorem trim_of_fields {cs w : List Char} (hw : Word w) (h : fields cs = [w]) : trim cs = w := by
  induction cs with
  | nil => cases h
  | cons c cs ih =>
    cases hc : isBlank c with
    | true =>
      rw [fields_blank hc] at h
      rw [← ih h, trim, trim, List.dropWhile_cons_of_pos hc]
    | false =>
      obtain ⟨run, rest, hpieces⟩ := exists_pieces cs
      have hline := pieces_cons hc hpieces
      rw [fields, hline] at h
      obtain ⟨rfl, hrest⟩ := List.cons.inj h
      rcases pieces_eq_cons hline with ⟨hcs, -⟩ | ⟨b, ds, hb, hcs, hds⟩
      · rw [hcs]
        exact trim_of_not_blank hw.not_blank
      · rw [hcs]
        refine trim_word_append hw (List.forall_mem_cons.mpr ⟨hb, blank_of_fields_eq_nil ?_⟩)
        rw [fields, hds]
        exact hrest

/-- A line with a single field is this word between blanks. -/
theorem trim_eq_iff_fields {cs w : List Char} (hw : Word w) : trim cs = w ↔ fields cs = [w] := by
  constructor
  · intro h
    rw [← fields_trim, h, hw.fields_eq]
  · exact trim_of_fields hw

/-! ## A number on a line of its own -/

theorem word_of_readNat? {bound n : Nat} {cs : List Char} (h : readNat? bound cs = some n) :
    Word cs where
  ne_nil := by
    rintro rfl
    cases h
  not_blank := by
    obtain ⟨hdigits, -⟩ := Option.filter_eq_some_iff.mp h
    split at hdigits
    next rest =>
      exact List.forall_mem_cons.mpr ⟨by decide, Decimal.not_isBlank_of_digits? hdigits⟩
    next => exact Decimal.not_isBlank_of_digits? hdigits

theorem readNat?_trim_eq_some_iff {bound n : Nat} {cs : List Char} :
    readNat? bound (trim cs) = some n ↔ ∃ w, fields cs = [w] ∧ readNat? bound w = some n := by
  constructor
  · intro h
    exact ⟨trim cs, (trim_eq_iff_fields (word_of_readNat? h)).mp rfl, h⟩
  · intro h
    obtain ⟨w, hfields, hw⟩ := h
    rw [(trim_eq_iff_fields (word_of_readNat? hw)).mpr hfields]
    exact hw

theorem readNat?_trim_congr (bound : Nat) {cs ds : List Char} (h : fields cs = fields ds) :
    readNat? bound (trim cs) = readNat? bound (trim ds) := by
  refine Option.ext fun n => ?_
  rw [readNat?_trim_eq_some_iff, readNat?_trim_eq_some_iff, h]

end HexMesh
