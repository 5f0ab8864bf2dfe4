import HexMesh.Proofs.Text.Lines

/-!
Where the lines of a file end.

The end of a line may be a line feed or a carriage return and a line feed.  Writing it in the
other way changes at most one thing about the text of the line: a carriage return that stood
before it is counted to the text or to the line end.  A file can be cut behind any line.
-/

namespace HexMesh
namespace Line

/-! ## Bytes of a text -/

theorem eq_encode_of_decode {bytes : List UInt8} {cs : List Char} (h : decode bytes = some cs) :
    bytes = encode cs := by
  rw [decode, Option.map_eq_some_iff] at h
  obtain ⟨s, hs, rfl⟩ := h
  rw [String.fromUTF8?] at hs
  split at hs
  · cases hs
    rw [encode, String.toUTF8_eq_toByteArray, String.ofList_toList]
    rfl
  · cases hs

/-- A carriage return is a byte of its own, so it can be taken off a text and put back. -/
theorem decode_append_return (bytes : List UInt8) :
    decode (bytes ++ [13]) = (decode bytes).map (· ++ ['\r']) := by
  have hreturn : encode ['\r'] = [13] := by rw [encode_eq]; rfl
  cases h : decode bytes with
  | some cs =>
    rw [eq_encode_of_decode h, ← hreturn, ← encode_append, decode_encode]
    rfl
  | none =>
    cases h' : decode (bytes ++ [13]) with
    | none => rfl
    | some ds =>
      exfalso
      have hbytes := eq_encode_of_decode h'
      rcases List.eq_nil_or_concat ds with rfl | ⟨es, c, rfl⟩
      · rw [encode_eq] at hbytes
        cases List.append_eq_nil_iff.mp hbytes |>.2
      · -- The last byte belongs to the last character, which is then the carriage return.
        rw [List.concat_eq_append, encode_append] at hbytes
        have hlast : (13 : UInt8) ∈ encode [c] := by
          have hne : encode [c] ≠ [] := by
            rw [encode_eq]
            simp
          obtain ⟨start, last, hchar⟩ := (List.eq_nil_or_concat _).resolve_left hne
          rw [List.concat_eq_append] at hchar
          rw [hchar, ← List.append_assoc] at hbytes
          have hlast := (List.append_inj' hbytes rfl).2
          rw [hchar, ← hlast]
          exact List.mem_append_right _ List.mem_cons_self
        obtain ⟨e, he, hnumber⟩ := mem_of_mem_encode (by decide) hlast
        rw [List.mem_singleton] at he
        subst he
        obtain rfl : e = '\r' := Char.toNat_inj.mp hnumber
        rw [hreturn] at hbytes
        rw [List.append_cancel_right hbytes, decode_encode] at h
        cases h

/-! ## Line feeds -/

/-- A line feed ends the line that it stands in, and what comes behind it is cut on its own. -/
theorem exists_cut (bytes : List UInt8) : ∃ lines line, ∀ last rest, 10 ∉ last →
    cut (bytes ++ (last ++ 10 :: rest)) = lines ++ (true, line ++ last) :: cut rest := by
  induction bytes with
  | nil => exact ⟨[], [], fun last rest h => cut_append h rest⟩
  | cons b bytes ih =>
    obtain ⟨lines, line, hcut⟩ := ih
    by_cases hb : b = 10
    · subst hb
      exact ⟨(true, []) :: lines, line, fun last rest h =>
        congrArg ((true, []) :: ·) (hcut last rest h)⟩
    · cases lines with
      | nil => exact ⟨[], b :: line, fun last rest h => cut_cons hb (hcut last rest h)⟩
      | cons first lines =>
        exact ⟨(first.1, b :: first.2) :: lines, line, fun last rest h =>
          cut_cons hb (hcut last rest h)⟩

/-- With a carriage return before a line feed, the line is the same or has gained one in its
text. -/
theorem ofBytes_lineEnd (bytes rest : List UInt8) : ∃ before line line',
    ofBytes (bytes ++ 10 :: rest) = before ++ line :: ofBytes rest ∧
    ofBytes (bytes ++ 13 :: 10 :: rest) = before ++ line' :: ofBytes rest ∧
    (line' = line ∨ ∃ text, line = some text ∧ line' = some (text ++ ['\r'])) := by
  obtain ⟨lines, line, hcut⟩ := exists_cut bytes
  have hfeed := hcut [] rest List.not_mem_nil
  have hreturn := hcut [13] rest (by decide)
  refine ⟨lines.map fun l => decode (withoutReturn l), decode (withoutReturn (true, line)),
    decode line, ?_, ?_, ?_⟩
  · rw [List.append_nil] at hfeed
    rw [ofBytes, List.nil_append] at *
    rw [hfeed, List.map_append]
    rfl
  · have hline : withoutReturn (true, line ++ [13]) = line := by
      rw [withoutReturn, if_pos (List.getLast?_concat ..), List.dropLast_concat]
    show (cut (bytes ++ ([13] ++ 10 :: rest))).map _ = _
    rw [hreturn, List.map_append, List.map_cons, hline]
    rfl
  · by_cases hlast : line.getLast? = some 13
    · obtain ⟨start, rfl⟩ := List.getLast?_eq_some_iff.mp hlast
      rw [withoutReturn, if_pos hlast, List.dropLast_concat, decode_append_return]
      cases decode start with
      | none => exact Or.inl rfl
      | some text => exact Or.inr ⟨text, rfl, rfl⟩
    · rw [withoutReturn, if_neg hlast]
      exact Or.inl rfl

/-! ## The first lines of a file -/

/-- The bytes of a file up to and with the end of its line `n`. -/
def firstLines : Nat → List UInt8 → List UInt8
  | 0, _ => []
  | _, [] => []
  | n + 1, b :: bytes => b :: if b = 10 then firstLines n bytes else firstLines (n + 1) bytes

theorem cut_firstLines (n : Nat) (bytes : List UInt8) :
    cut (firstLines n bytes) = (cut bytes).take n := by
  induction bytes generalizing n with
  | nil => cases n <;> rfl
  | cons b bytes ih =>
    cases n with
    | zero => rfl
    | succ n =>
      rw [firstLines]
      by_cases hb : b = 10
      · subst hb
        rw [if_pos rfl]
        exact congrArg ((true, []) :: ·) (ih n)
      · rw [if_neg hb]
        have hrest := ih (n + 1)
        cases hcut : cut bytes with
        | nil =>
          rw [hcut] at hrest
          have hlone {bs : List UInt8} (h : cut bs = []) : cut (b :: bs) = [(false, [b])] := by
            unfold cut at h ⊢
            rw [List.foldr_cons, h, if_neg hb]
          rw [hlone hrest, hlone hcut, List.take_succ_cons, List.take_nil]
        | cons line lines =>
          rw [hcut] at hrest
          rw [cut_cons hb hrest, cut_cons hb hcut]
          rfl

theorem ofBytes_firstLines (n : Nat) (bytes : List UInt8) :
    ofBytes (firstLines n bytes) = (ofBytes bytes).take n := by
  rw [ofBytes, ofBytes, cut_firstLines, List.map_take]

end Line
end HexMesh
