import HexMesh.Proofs.Msh.Scan

/-!
Reading without faults.

Which mesh a file gives, if it gives one, does not depend on the numbers of its lines.
`Gathered.after?` reads lines and keeps nothing of a fault, so it can be taken apart anywhere;
whether a file is accepted, and with which mesh, is a question about `after?` alone
(`toOption_read`, `read_eq_ok_iff`).
-/

namespace HexMesh
namespace Msh

variable {K : Type} [Scalar K] [Numeral K] {d : Nat} {g g' : Gathered K d}

namespace Gathered

/-- What was gathered after some more lines, or nothing if one of them is refused. -/
def after? (g : Gathered K d) (lines : List Line) : Option (Gathered K d) :=
  lines.foldlM (fun g line => line.bind fun text => (g.readLine text).toOption) g

theorem after?_cons (g : Gathered K d) (text : List Char) (rest : List Line) :
    g.after? (some text :: rest) = (g.readLine text).toOption.bind (·.after? rest) := rfl

theorem after?_append (g : Gathered K d) (a b : List Line) :
    g.after? (a ++ b) = (g.after? a).bind (·.after? b) := List.foldlM_append

theorem after?_cons_of_eq {text : List Char} (h : g.readLine text = .ok g') (rest : List Line) :
    g.after? (some text :: rest) = g'.after? rest := by
  rw [after?_cons, h]
  rfl

theorem toOption_step (g : Gathered K d) (line : Line) (n : Nat) :
    (g.step (line, n)).toOption = line.bind fun text => (g.readLine text).toOption := by
  cases line with
  | none => rfl
  | some text =>
    rw [step, Option.bind_some]
    cases g.readLine text <;> rfl

theorem toOption_run (g : Gathered K d) (first : Nat) (lines : List Line) :
    (g.run first lines).toOption = g.after? lines := by
  induction lines generalizing g first with
  | nil => rfl
  | cons line rest ih =>
    show (g.step (line, first) >>= fun g => g.run (first + 1) rest).toOption = _
    rw [toOption_bind, toOption_step]
    exact Option.bind_congr fun g _ => ih g (first + 1)

/-- The mesh of a file that ends here, unless something is missing. -/
def mesh? (g : Gathered K d) : Option (Mesh K d) := (g.finish 0).toOption

omit [Numeral K] in
theorem toOption_finish (g : Gathered K d) (lineCount : Nat) :
    (g.finish lineCount).toOption = g.mesh? := by
  rw [mesh?, finish, finish]
  cases g.missing? <;> rfl

/-- Nothing is missing if the file ends here. -/
structure Complete (g : Gathered K d) : Prop where
  mode : g.mode = .outside
  formatSeen : g.formatSeen = true
  cells : g.cells.isEmpty = false

omit [Numeral K] in
theorem finish_eq_ok_iff_complete {lineCount : Nat} {m : Mesh K d} :
    g.finish lineCount = .ok m ↔ g.Complete ∧ m = g.mesh := by
  have hmissing : g.missing? = none ↔ g.mode = .outside := by
    unfold missing?
    cases g.mode <;> simp
  rw [finish_eq_ok_iff, hmissing]
  constructor
  · intro h
    obtain ⟨hmode, hseen, hcells, hmesh⟩ := h
    exact ⟨⟨hmode, hseen, hcells⟩, hmesh⟩
  · intro h
    obtain ⟨hcomplete, hmesh⟩ := h
    exact ⟨hcomplete.mode, hcomplete.formatSeen, hcomplete.cells, hmesh⟩

theorem after?_skip {marker : List Char} (hmode : g.mode = .closing marker)
    {texts : List (List Char)} (h : ∀ text ∈ texts, trim text ≠ marker) :
    g.after? (texts.map some) = some g := by
  induction texts with
  | nil => rfl
  | cons text rest ih =>
    have ⟨htext, hrest⟩ := List.forall_mem_cons.mp h
    have hskip : g.readLine text = .ok g := by
      simp only [readLine, hmode]
      rw [if_neg htext]
    rw [List.map_cons, after?_cons_of_eq hskip, ih hrest]

end Gathered

theorem toOption_scan (d : Nat) (lines : List Line) :
    (scan (K := K) d lines).toOption = ({} : Gathered K d).after? lines :=
  Gathered.toOption_run _ _ _

theorem scan_eq_ok_iff {lines : List Line} :
    scan d lines = .ok g ↔ ({} : Gathered K d).after? lines = some g := by
  rw [← toOption_scan, toOption_eq_some_iff]

theorem exists_scan_take {lines : List Line} (h : scan d lines = .ok g) (n : Nat) :
    ∃ g₁ : Gathered K d, scan d (lines.take n) = .ok g₁ := by
  rw [← List.take_append_drop n lines, scan, Gathered.run_append, bind_eq_ok_iff] at h
  obtain ⟨g₁, hfirst, -⟩ := h
  exact ⟨g₁, hfirst⟩

theorem scan_take_succ {lines : List Line} {n : Nat} {text : List Char}
    (h : scan d (lines.take n) = .ok g) (line : lines[n]? = some (some text))
    (hread : g.readLine text = .ok g') : scan d (lines.take (n + 1)) = .ok g' := by
  rw [scan, Gathered.run_take_succ line, ← scan, h]
  exact Gathered.step_eq_ok_iff.mpr ⟨text, rfl, hread⟩

variable {bytes : List UInt8} {m : Mesh K d}

theorem read_of_dimension (hd : d ≠ 2 ∧ d ≠ 3) (bytes : List UInt8) :
    read (K := K) d bytes = .error (.fileDimension d) := by
  rw [read, readLines, if_pos hd]
  rfl

theorem dimension_of_read (h : read d bytes = .ok m) : d = 2 ∨ d = 3 := by
  by_contra hd
  rw [read_of_dimension (by omega)] at h
  cases h

/-- A file is accepted if its lines lead the reader to a place where nothing is missing. -/
theorem read_eq_ok_iff (hd : d = 2 ∨ d = 3) : read d bytes = .ok m ↔
    ∃ g, ({} : Gathered K d).after? (Line.ofBytes bytes) = some g ∧ g.Complete ∧ m = g.mesh := by
  rw [read, readLines_eq hd, bind_eq_ok_iff]
  simp only [scan_eq_ok_iff, Gathered.finish_eq_ok_iff_complete]

theorem read_of_complete (hd : d = 2 ∨ d = 3)
    (h : ({} : Gathered K d).after? (Line.ofBytes bytes) = some g) (hcomplete : g.Complete) :
    read d bytes = .ok g.mesh :=
  (read_eq_ok_iff hd).mpr ⟨g, h, hcomplete, rfl⟩

/-- Which mesh a file gives, and whether it gives one. -/
theorem toOption_read (hd : d = 2 ∨ d = 3) (bytes : List UInt8) :
    (read (K := K) d bytes).toOption =
      (({} : Gathered K d).after? (Line.ofBytes bytes)).bind Gathered.mesh? := by
  rw [read, readLines_eq hd, toOption_bind, toOption_scan]
  exact Option.bind_congr fun g _ => g.toOption_finish _

end Msh
end HexMesh
