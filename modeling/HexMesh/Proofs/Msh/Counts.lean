import HexMesh.Proofs.Number.Rational
import HexMesh.Proofs.Msh.Layout
import HexMesh.Proofs.Msh.Omission

/-!
Sections with a wrong count.

A count that is too large makes the reader take the end of the section for an entry, which it never
is.  A count that is too small is not noticed there: the entries behind it are passed over on the
way to the end of the section, and the file is read as if they were not in it
(`read_count`).  Whether it is still accepted depends on what later sections say.
-/

namespace HexMesh
namespace Msh

variable {K : Type} {d : Nat}

/-! ## Counted sections and their files -/

/-- A section that tells the number of its entries, and the lines before and after it. -/
structure CountedSection where
  kind : Counted
  before : List Line
  opening : List Char
  entries : List (List Char)
  closing : List Char
  after : List Line
  outside : openSection before = none
  opens : trim opening = '$' :: kind.name
  closes : trim closing = closingMarker kind.name

/-- The lines of the file in which the section has some entries and a line for their count. -/
def CountedSection.file (s : CountedSection) (count : List Char) (entries : List (List Char)) :
    List Line :=
  s.before ++ ((s.opening :: count :: entries ++ [s.closing]).map some ++ s.after)

namespace CountedSection

variable [Scalar K] [Numeral K] {s : CountedSection} {g g₁ : Gathered K d} {count : List Char}
  {entries : List (List Char)}

theorem mode_before (h : ({} : Gathered K d).after? s.before = some g) : g.mode = .outside :=
  outside_of_scan s.outside (scan_eq_ok_iff.mpr h)

/-- What a count that does not go beyond the entries leaves of them. -/
theorem after?_file {n : Nat} (hbefore : ({} : Gathered K d).after? s.before = some g)
    (hcount : readNat? wordBound (trim count) = some n) (hn : n ≤ entries.length)
    (hpassed : ∀ text ∈ entries.drop n, trim text ≠ closingMarker s.kind.name) :
    ({} : Gathered K d).after? (s.file count entries) =
      (s.kind.takeAll g (entries.take n)).toOption.bind fun g₁ =>
        ({ g₁ with mode := .outside } : Gathered K d).after? s.after := by
  rw [file, Gathered.after?_append, hbefore, Option.bind_some, Gathered.after?_append,
    s.kind.after?_section (mode_before hbefore) s.opens hcount hn s.closes hpassed]
  cases s.kind.takeAll g (entries.take n) <;> rfl

theorem exists_of_read {bytes : List UInt8} {m : Mesh K d} (hread : read d bytes = .ok m)
    (hlines : Line.ofBytes bytes = s.file count s.entries)
    (hcount : readNat? wordBound (trim count) = some s.entries.length) :
    ∃ g g₁ g₂ : Gathered K d, ({} : Gathered K d).after? s.before = some g ∧
      s.kind.takeAll g s.entries = .ok g₁ ∧
      ({ g₁ with mode := .outside } : Gathered K d).after? s.after = some g₂ ∧ g₂.Complete := by
  obtain ⟨g₂, hscan, hcomplete, -⟩ := (read_eq_ok_iff (dimension_of_read hread)).mp hread
  rw [hlines] at hscan
  have hbefore : (({} : Gathered K d).after? s.before).isSome = true := by
    rw [file, Gathered.after?_append] at hscan
    obtain ⟨g, hg, -⟩ := Option.bind_eq_some_iff.mp hscan
    rw [hg]
    rfl
  obtain ⟨g, hg⟩ := Option.isSome_iff_exists.mp hbefore
  rw [after?_file hg hcount (Nat.le_refl _) (by simp), List.take_length] at hscan
  obtain ⟨g₁, htaken, hafter⟩ := Option.bind_eq_some_iff.mp hscan
  exact ⟨g, g₁, g₂, hg, toOption_eq_some_iff.mp htaken, hafter, hcomplete⟩

theorem read_overcount (hd : d = 2 ∨ d = 3) {bytes : List UInt8}
    (hlines : Line.ofBytes bytes = s.file count entries) {n : Nat}
    (hbefore : ({} : Gathered K d).after? s.before = some g)
    (hcount : readNat? wordBound (trim count) = some n) (hn : entries.length < n)
    (htaken : s.kind.takeAll g entries = .ok g₁) : ∃ fault,
      read (K := K) d bytes = .error (.line (s.before.length + entries.length + 3) fault) := by
  have hread : ({ g with mode := s.kind.countMode } : Gathered K d).readLine count =
      .ok (s.kind.left g n) := by
    rw [s.kind.readLine_count rfl, natural_eq_ok_iff.mpr hcount,
      ← s.kind.left_withMode g s.kind.countMode]
    rfl
  have hfront : ({} : Gathered K d).after?
      (s.before ++ some s.opening :: some count :: entries.map some) =
        some (s.kind.left g₁ (n - entries.length)) := by
    rw [Gathered.after?_append, hbefore, Option.bind_some,
      Gathered.after?_cons_of_eq (s.kind.readLine_opens (mode_before hbefore) s.opens),
      Gathered.after?_cons_of_eq hread, s.kind.after?_entries g (Nat.le_of_lt hn), htaken]
    rfl
  -- At least one more entry is waited for where the section ends.
  obtain ⟨more, hmore⟩ : ∃ more, n - entries.length = more + 1 := ⟨n - entries.length - 1, by omega⟩
  have hmode : (s.kind.left g₁ (n - entries.length)).mode = s.kind.entryMode more := by
    rw [hmore, s.kind.left_succ]
  obtain ⟨fault, hfault⟩ := s.kind.readLine_entry_marker hmode s.closes
  have hsplit : Line.ofBytes bytes = (s.before ++ some s.opening :: some count ::
      entries.map some) ++ some s.closing :: s.after := by
    simp [hlines, file]
  have herror := read_error_of_after? hd hsplit hfront hfault
  simp only [List.length_append, List.length_cons, List.length_map] at herror
  exact ⟨fault, herror⟩

theorem read_badCount (hd : d = 2 ∨ d = 3) {bytes : List UInt8}
    (hlines : Line.ofBytes bytes = s.file count entries)
    (hbefore : ({} : Gathered K d).after? s.before = some g)
    (hcount : readNat? wordBound (trim count) = none) :
    read (K := K) d bytes = .error (.line (s.before.length + 2)
      (.badField s.kind.countItem (String.ofList (trim count)))) := by
  have hfront : ({} : Gathered K d).after? (s.before ++ [some s.opening]) =
      some { g with mode := s.kind.countMode } := by
    rw [Gathered.after?_append, hbefore]
    exact Gathered.after?_cons_of_eq (s.kind.readLine_opens (mode_before hbefore) s.opens) []
  have hsplit : Line.ofBytes bytes = (s.before ++ [some s.opening]) ++
      some count :: ((entries ++ [s.closing]).map some ++ s.after) := by
    simp [hlines, file]
  have hfault : ({ g with mode := s.kind.countMode } : Gathered K d).readLine count =
      .error (.badField s.kind.countItem (String.ofList (trim count))) := by
    rw [s.kind.readLine_count rfl, natural_eq_error _ _ hcount]
    rfl
  simpa using read_error_of_after? hd hsplit hfront hfault

end CountedSection

variable [Scalar K] [Numeral K]

open CountedSection in
/-- In an accepted file whose section has as many entries as it counts, the count is changed.
If it is no number any more or a larger one, the file is refused.  If it is a smaller one, the
entries behind it are passed over, and the file is read as if they were not in it. -/
theorem read_count {bytes bytes' : List UInt8} {m : Mesh K d} (hread : read d bytes = .ok m)
    {s : CountedSection} {count count' : List Char}
    (hlines : Line.ofBytes bytes = s.file count s.entries)
    (hcount : readNat? wordBound (trim count) = some s.entries.length)
    (hlines' : Line.ofBytes bytes' = s.file count' s.entries) :
    (readNat? wordBound (trim count') = none →
      read (K := K) d bytes' = .error (.line (s.before.length + 2)
        (.badField s.kind.countItem (String.ofList (trim count'))))) ∧
    (∀ n, readNat? wordBound (trim count') = some n → s.entries.length < n → ∃ fault,
      read (K := K) d bytes' = .error (.line (s.before.length + s.entries.length + 3) fault)) ∧
    (∀ n, readNat? wordBound (trim count') = some n → n < s.entries.length →
      ReadsWithout K d bytes' s.kind ∧
      ∀ bytes'', Line.ofBytes bytes'' = s.file count' (s.entries.take n) →
        (read (K := K) d bytes').toOption = (read (K := K) d bytes'').toOption) := by
  have hd := dimension_of_read hread
  obtain ⟨g, g₁, g₂, hbefore, htaken, hafter, hcomplete⟩ := exists_of_read hread hlines hcount
  have hentries := Counted.trim_ne_of_takeAll htaken
  refine ⟨read_badCount hd hlines' hbefore,
    fun n hn hmore => read_overcount hd hlines' hbefore hn hmore htaken,
    fun n hn hfewer => ⟨?_, ?_⟩⟩
  · -- Behind the section the readers of both files differ in the entries that were passed over.
    obtain ⟨g₃, hfirst⟩ := Counted.exists_takeAll_take htaken n
    have hsame := (sameBut_of_takeAll htaken).1.of_both (sameBut_of_takeAll hfirst).1
    have hseen := (sameBut_of_takeAll hfirst).2.trans (sameBut_of_takeAll htaken).2.symm
    have hfront : ({} : Gathered K d).after? (s.before ++
        (s.opening :: count' :: s.entries ++ [s.closing]).map some) =
          some { g₃ with mode := .outside } := by
      rw [Gathered.after?_append, hbefore, Option.bind_some,
        s.kind.after?_section (mode_before hbefore) s.opens hn (Nat.le_of_lt hfewer) s.closes
          fun text htext => hentries text (List.mem_of_mem_drop htext), hfirst]
      rfl
    have hbeside : Beside (SameBut s.kind) { g₁ with mode := .outside }
        { g₃ with mode := .outside } :=
      ⟨rfl, hseen, indifferent_sameBut s.kind g₁ g₃ .outside .outside _ _ hsame⟩
    exact readsWithout_of_after? hd (hlines'.trans (List.append_assoc ..).symm) hfront hbeside
      hafter hcomplete
  · intro bytes'' hlines''
    have hlength : (s.entries.take n).length = n := List.length_take_of_le (Nat.le_of_lt hfewer)
    refine toOption_read_congr ?_
    rw [hlines', hlines'', after?_file hbefore hn (Nat.le_of_lt hfewer)
      fun text htext => hentries text (List.mem_of_mem_drop htext),
      after?_file hbefore hn (Nat.le_of_eq hlength.symm) (by simp), List.take_take, Nat.min_self]

/-- A strip of two squares, with a count of its elements. -/
def stripFile (count : String) : List (List Char) :=
  ["$MeshFormat", "2.2 0 8", "$EndMeshFormat", "$Nodes", "6", "1 0 0 0", "2 1 0 0", "3 2 0 0",
    "4 0 1 0", "5 1 1 0", "6 2 1 0", "$EndNodes", "$Elements", count, "1 3 2 0 0 1 2 5 4",
    "2 3 2 0 0 2 3 6 5", "$EndElements"].map String.toList

def stripElements : CountedSection where
  kind := .elements
  before := ((stripFile "2").take 12).map some
  opening := "$Elements".toList
  entries := ["1 3 2 0 0 1 2 5 4", "2 3 2 0 0 2 3 6 5"].map String.toList
  closing := "$EndElements".toList
  after := []
  outside := by decide +kernel
  opens := by decide +kernel
  closes := by decide +kernel

theorem read_count_strip : ∃ m : Mesh ℚ 2,
    read 2 (Line.toBytes (stripFile "2")) = .ok m ∧
    (∃ fault, read (K := ℚ) 2 (Line.toBytes (stripFile "3")) = .error (.line 17 fault)) ∧
    ReadsWithout ℚ 2 (Line.toBytes (stripFile "1")) .elements := by
  have hlines (count : String) (h : ∀ line ∈ stripFile count, Line.Unbroken line) :
      Line.ofBytes (Line.toBytes (stripFile count)) =
        stripElements.file count.toList stripElements.entries :=
    Line.ofBytes_toBytes h
  have hread : (read (K := ℚ) 2 (Line.toBytes (stripFile "2"))).toOption.isSome = true := by
    rw [read, hlines "2" (by decide)]
    decide +kernel
  obtain ⟨m, hm⟩ := Option.isSome_iff_exists.mp hread
  refine ⟨m, toOption_eq_some_iff.mp hm, ?_, ?_⟩
  · exact (read_count (toOption_eq_some_iff.mp hm) (hlines "2" (by decide)) (by decide +kernel)
      (hlines "3" (by decide))).2.1 3 (by decide +kernel) (by decide)
  · exact ((read_count (toOption_eq_some_iff.mp hm) (hlines "2" (by decide)) (by decide +kernel)
      (hlines "1" (by decide))).2.2 1 (by decide +kernel) (by decide)).1

/-- With a count of one the second square of the strip is left out, and the file is accepted. -/
theorem read_stripFile_fewer : ∃ m m' : Mesh ℚ 2,
    read 2 (Line.toBytes (stripFile "2")) = .ok m ∧ m.cells.length = 2 ∧
    read 2 (Line.toBytes (stripFile "1")) = .ok m' ∧ m'.cells.length = 1 := by
  have hcells (count : String) (n : Nat) (h : ∀ line ∈ stripFile count, Line.Unbroken line)
      (hread : (readLines (K := ℚ) 2 ((stripFile count).map some)).toOption.map
        (·.cells.length) = some n) :
      ∃ m : Mesh ℚ 2, read 2 (Line.toBytes (stripFile count)) = .ok m ∧ m.cells.length = n := by
    rw [← Line.ofBytes_toBytes h] at hread
    obtain ⟨m, hm, hlength⟩ := Option.map_eq_some_iff.mp hread
    exact ⟨m, toOption_eq_some_iff.mp hm, hlength⟩
  obtain ⟨m, hread, hm⟩ := hcells "2" 2 (by decide) (by decide +kernel)
  obtain ⟨m', hread', hm'⟩ := hcells "1" 1 (by decide) (by decide +kernel)
  exact ⟨m, m', hread, hm, hread', hm'⟩

end Msh
end HexMesh
