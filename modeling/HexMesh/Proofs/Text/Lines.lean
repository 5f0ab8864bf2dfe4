import HexMesh.Text.Lines

/-!
Lines that were written are read back, as long as no line contains a line end.

The bytes of a character other than a line feed do not contain the byte of a line feed, and
the same goes for carriage returns, so the bytes of a text can be cut where the text can.
-/

namespace HexMesh
namespace Line

/-- The bytes of a text. -/
def encode (cs : List Char) : List UInt8 := (String.ofList cs).toUTF8.data.toList

/-- The bytes of a file of some lines, each of which ends with a line feed. -/
def toBytes (lines : List (List Char)) : List UInt8 := encode (lines.flatMap (· ++ ['\n']))

theorem encode_eq (cs : List Char) : encode cs = cs.flatMap String.utf8EncodeChar := by
  rw [encode, String.toUTF8_eq_toByteArray, String.toByteArray_ofList, List.utf8Encode,
    List.toList_data_toByteArray]

theorem encode_append (cs ds : List Char) : encode (cs ++ ds) = encode cs ++ encode ds := by
  rw [encode_eq, encode_eq, encode_eq, List.flatMap_append]

theorem decode_encode (cs : List Char) : decode (encode cs) = some cs := by
  have hbytes : (⟨(encode cs).toArray⟩ : ByteArray) = (String.ofList cs).toByteArray := by
    rw [encode, Array.toArray_toList, String.toUTF8_eq_toByteArray]
  rw [decode, hbytes, String.fromUTF8?, dif_pos (String.ofList cs).isValidUTF8, Option.map_some]
  exact congrArg some String.toList_ofList

/-- A byte of seven bits stands for the character with its number and for nothing else. -/
theorem mem_utf8EncodeChar {c : Char} {b : UInt8} (hb : b.toNat < 128)
    (h : b ∈ String.utf8EncodeChar c) : c.toNat = b.toNat := by
  have hhigh {n : Nat} (hn : n % 256 ≥ 128) : b ≠ UInt8.ofNat n := by
    rintro rfl
    rw [UInt8.toNat_ofNat'] at hb
    omega
  unfold String.utf8EncodeChar at h
  dsimp only at h
  split at h
  next hc =>
    rw [List.mem_singleton.mp h, UInt8.toNat_ofNat']
    have hc : c.toNat ≤ 127 := hc
    show c.toNat = c.toNat % 256
    omega
  split at h
  · simp only [List.mem_cons, List.not_mem_nil, or_false] at h
    rcases h with h | h <;> exact absurd h (hhigh (by omega))
  split at h
  · simp only [List.mem_cons, List.not_mem_nil, or_false] at h
    rcases h with h | h | h <;> exact absurd h (hhigh (by omega))
  · simp only [List.mem_cons, List.not_mem_nil, or_false] at h
    rcases h with h | h | h | h <;> exact absurd h (hhigh (by omega))

theorem mem_of_mem_encode {cs : List Char} {b : UInt8} (hb : b.toNat < 128) (h : b ∈ encode cs) :
    ∃ c ∈ cs, c.toNat = b.toNat := by
  rw [encode_eq] at h
  obtain ⟨c, hc, h⟩ := List.mem_flatMap.mp h
  exact ⟨c, hc, mem_utf8EncodeChar hb h⟩

theorem cut_cons {b : UInt8} (hb : b ≠ 10) {bytes line : List UInt8} {ended : Bool}
    {rest : List (Bool × List UInt8)} (h : cut bytes = (ended, line) :: rest) :
    cut (b :: bytes) = (ended, b :: line) :: rest := by
  unfold cut at h ⊢
  rw [List.foldr_cons, h, if_neg hb]

theorem cut_append {line : List UInt8} (h : 10 ∉ line) (rest : List UInt8) :
    cut (line ++ 10 :: rest) = (true, line) :: cut rest := by
  induction line with
  | nil => rfl
  | cons b line ih =>
    have hb : b ≠ 10 := fun he => h (he ▸ List.mem_cons_self)
    exact cut_cons hb (ih fun hmem => h (List.mem_cons_of_mem b hmem))

/-- No character ends a line. -/
def Unbroken (line : List Char) : Prop := '\n' ∉ line ∧ '\r' ∉ line

instance (line : List Char) : Decidable (Unbroken line) :=
  inferInstanceAs (Decidable ('\n' ∉ line ∧ '\r' ∉ line))

theorem not_mem_encode {line : List Char} {c : Char} (hc : c.toNat < 128) (h : c ∉ line) :
    UInt8.ofNat c.toNat ∉ encode line := by
  intro hmem
  have hsmall : (UInt8.ofNat c.toNat).toNat = c.toNat := by
    rw [UInt8.toNat_ofNat']
    omega
  obtain ⟨e, he, hnumber⟩ := mem_of_mem_encode (by omega) hmem
  exact h (Char.toNat_inj.mp (hnumber.trans hsmall) ▸ he)

theorem toBytes_cons (line : List Char) (rest : List (List Char)) :
    toBytes (line :: rest) = encode line ++ 10 :: toBytes rest := by
  rw [toBytes, List.flatMap_cons, encode_append, encode_append, List.append_assoc]
  rfl

theorem ofBytes_toBytes {lines : List (List Char)} (h : ∀ line ∈ lines, Unbroken line) :
    ofBytes (toBytes lines) = lines.map some := by
  have hcut : cut (toBytes lines) = lines.map fun line => (true, encode line) := by
    induction lines with
    | nil => rfl
    | cons line rest ih =>
      have ⟨hline, hrest⟩ := List.forall_mem_cons.mp h
      rw [toBytes_cons, cut_append (not_mem_encode (c := '\n') (by decide) hline.1), ih hrest,
        List.map_cons]
  rw [ofBytes, hcut, List.map_map]
  refine List.map_congr_left fun line hline => ?_
  have hreturn : (encode line).getLast? ≠ some 13 := fun hlast =>
    not_mem_encode (c := '\r') (by decide) (h line hline).2 (List.mem_of_getLast? hlast)
  show decode (withoutReturn (true, encode line)) = some line
  rw [withoutReturn, if_neg hreturn, decode_encode]

end Line
end HexMesh
