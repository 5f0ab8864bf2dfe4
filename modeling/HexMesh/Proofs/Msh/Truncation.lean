import HexMesh.Proofs.Number.Rational
import HexMesh.Proofs.Msh.Markers
import HexMesh.Proofs.Text.LineEnds

/-!
Files that were cut off.

An accepted file is read line by line without a fault, so the reader also gets to the end of its
first `k` lines.  If a section is open there, the reader waits for a line of it or for its end,
and says so with the number of the last line (`read_firstLines`).
-/

namespace HexMesh
namespace Msh

variable {K : Type} {d : Nat}

section Missing

variable {g : Gathered K d} {name : List Char}

theorem Gathered.missing?_of_within (h : g.mode.Within (some name)) : ∃ fault,
    g.missing? = some fault ∧
      (fault = .missingMarker (String.ofList (closingMarker name)) ∨
        ∃ item, fault = .endOfFile item) := by
  unfold missing?
  generalize g.mode = mode at h ⊢
  cases h with
  | closing => exact ⟨_, rfl, Or.inl rfl⟩
  | format | nodeCount | node | elementCount | element => exact ⟨_, rfl, Or.inr ⟨_, rfl⟩⟩

end Missing

variable [Scalar K] [Numeral K] {bytes : List UInt8} {m : Mesh K d}

theorem openSection_of_read (h : read d bytes = .ok m) :
    openSection (Line.ofBytes bytes) = none := by
  obtain ⟨g, hscan, hcomplete, -⟩ := (read_eq_ok_iff (dimension_of_read h)).mp h
  have hwithin := within_scan (scan_eq_ok_iff.mpr hscan)
  rw [hcomplete.mode] at hwithin
  generalize openSection (Line.ofBytes bytes) = current at hwithin
  cases hwithin
  rfl

/-- A file that is cut off inside a section is refused at its last line, whichever section it is
and whatever the last line is. -/
theorem read_firstLines (h : read d bytes = .ok m) {k : Nat} {name : List Char}
    (hopen : openSection ((Line.ofBytes bytes).take k) = some name) : ∃ fault,
    read (K := K) d (Line.firstLines k bytes) = .error (.line k fault) ∧
      (fault = .missingMarker (String.ofList (closingMarker name)) ∨
        ∃ item, fault = .endOfFile item) := by
  -- The whole file closes all of its sections, so the cut is before its end.
  have hk : k ≤ (Line.ofBytes bytes).length := by
    by_contra hk
    rw [List.take_of_length_le (by omega), openSection_of_read h] at hopen
    cases hopen
  obtain ⟨g, hscan, -⟩ := (read_eq_ok_iff (dimension_of_read h)).mp h
  obtain ⟨g₁, hfirst⟩ := exists_scan_take (scan_eq_ok_iff.mpr hscan) k
  have hwithin := within_scan hfirst
  rw [hopen] at hwithin
  obtain ⟨fault, hmissing, hfault⟩ := Gathered.missing?_of_within hwithin
  refine ⟨fault, ?_, hfault⟩
  have hlength : ((Line.ofBytes bytes).take k).length = k := List.length_take_of_le hk
  rw [read, readLines_eq (dimension_of_read h), Line.ofBytes_firstLines, hfirst, hlength]
  show g₁.finish k = _
  rw [Gathered.finish, hmissing]

/-- A file with a section of notes in which the name of another section is noted. -/
def notedFile : List (List Char) :=
  ["$MeshFormat", "2 0 8", "$EndMeshFormat", "$Nodes", "4", "5 0 0 0", "6 2 0 0", "7 2 2 0",
    "8 0 2 0", "$EndNodes", "$Elements", "1", "1 3 0 5 6 7 8", "$EndElements", "$Notes", "$Nodes",
    "$EndNotes"].map String.toList

theorem read_firstLines_notes : ∃ m : Mesh ℚ 2,
    read 2 (Line.toBytes notedFile) = .ok m ∧
    openSection ((Line.ofBytes (Line.toBytes notedFile)).take 16) = some "Notes".toList ∧
    ∃ fault, read (K := ℚ) 2 (Line.firstLines 16 (Line.toBytes notedFile)) =
        .error (.line 16 fault) ∧
      (fault = .missingMarker (String.ofList (closingMarker "Notes".toList)) ∨
        ∃ item, fault = .endOfFile item) := by
  have hlines : Line.ofBytes (Line.toBytes notedFile) = notedFile.map some :=
    Line.ofBytes_toBytes (by decide)
  have hopen : openSection ((Line.ofBytes (Line.toBytes notedFile)).take 16) =
      some "Notes".toList := by
    rw [hlines]
    decide +kernel
  have hread : (read (K := ℚ) 2 (Line.toBytes notedFile)).toOption.isSome = true := by
    rw [read, hlines]
    decide +kernel
  obtain ⟨m, hm⟩ := Option.isSome_iff_exists.mp hread
  exact ⟨m, toOption_eq_some_iff.mp hm, hopen, read_firstLines (toOption_eq_some_iff.mp hm) hopen⟩

end Msh
end HexMesh
