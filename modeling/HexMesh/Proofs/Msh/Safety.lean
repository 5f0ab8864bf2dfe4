import HexMesh.Proofs.Msh.Strict
import HexMesh.Proofs.Text.Lines
import HexMesh.Number.Binary64

/-!
What reading can end in.

A file is read to a sound mesh or refused for one of five reasons, and each reason says how
far the reader had come.  Nothing else happens: by `strictRead_eq` no access fails.
-/

namespace HexMesh
namespace Msh

open HexMesh.Cube

variable {K : Type} [Scalar K] [Numeral K] {d : Nat}

/-! ## Where a run stops -/

/-- A run stops at a line after it has gone through all lines before it. -/
theorem exists_of_scan_error {lines : List Line} {f : Fault K} (h : scan d lines = .error f) :
    ∃ n g line, scan d (lines.take n) = .ok g ∧ lines[n]? = some line ∧
      Gathered.step (d := d) g (line, n + 1) = .error f := by
  -- By induction on how many lines are read: the last of them is bad, or one before it is.
  have hprefix : ∀ n ≤ lines.length, scan (K := K) d (lines.take n) = .error f →
      ∃ n g line, scan d (lines.take n) = .ok g ∧ lines[n]? = some line ∧
        Gathered.step (d := d) g (line, n + 1) = .error f := by
    intro n
    induction n with
    | zero =>
      intro _ h
      cases h
    | succ n ih =>
      intro hn h
      have hline : lines[n]? = some lines[n] := List.getElem?_eq_getElem hn
      rw [scan, Gathered.run_take_succ hline] at h
      cases hbefore : scan (K := K) d (lines.take n) with
      | error f' =>
        refine ih (Nat.le_of_lt hn) ?_
        rw [scan] at hbefore
        rw [hbefore] at h
        cases h
        exact hbefore
      | ok g =>
        rw [scan] at hbefore
        rw [hbefore] at h
        rw [Nat.add_comm] at h
        exact ⟨n, g, lines[n], hbefore, hline, h⟩
  refine hprefix lines.length (Nat.le_refl _) ?_
  rw [List.take_length]
  exact h

/-- A fault at a line is the end of the run. -/
theorem scan_error {lines : List Line} {n : Nat} {g : Gathered K d} {text : List Char}
    {f : LineFault K} (before : scan d (lines.take n) = .ok g)
    (line : lines[n]? = some (some text)) (fault : g.readLine text = .error f) :
    scan d lines = .error (.line (n + 1) f) := by
  have hsplit := List.take_append_drop (n + 1) lines
  have hstep : g.step (some text, 1 + n) = .error (.line (n + 1) f) := by
    rw [Gathered.step, fault, Nat.add_comm]
  rw [← hsplit, scan, Gathered.run_append, Gathered.run_take_succ line]
  rw [scan] at before
  rw [before]
  show (g.step (some text, 1 + n)) >>= _ = _
  rw [hstep]
  rfl

theorem decode_eq_none_iff {bytes : List UInt8} :
    Line.decode bytes = none ↔ ¬(ByteArray.mk bytes.toArray).IsValidUTF8 := by
  rw [Line.decode, Option.map_eq_none_iff, String.fromUTF8?]
  split
  next h => simpa using h
  next h => simpa using h

/-! ## Faults -/

/-- The reasons for which a file is refused. -/
inductive Stops (K : Type) [Scalar K] [Numeral K] (d : Nat) (bytes : List UInt8) :
    Fault K → Prop where
  /-- The line after `n` good ones is not the UTF-8 form of a text. -/
  | unreadable {n : Nat} {g : Gathered K d} {mark : Bool × List UInt8}
      (before : scan d ((Line.ofBytes bytes).take n) = .ok g)
      (line : (Line.cut bytes)[n]? = some mark)
      (invalid : ¬(ByteArray.mk (Line.withoutReturn mark).toArray).IsValidUTF8) :
      Stops K d bytes (.unreadable "stream did not contain valid UTF-8")
  /-- The line after `n` good ones is wrong, and the fault names it. -/
  | line {n : Nat} {g : Gathered K d} {text : List Char} {fault : LineFault K}
      (before : scan d ((Line.ofBytes bytes).take n) = .ok g)
      (line : (Line.ofBytes bytes)[n]? = some (some text))
      (found : g.readLine text = .error fault) : Stops K d bytes (.line (n + 1) fault)
  /-- All lines are good, but the last section is not closed. -/
  | ends {g : Gathered K d} {fault : LineFault K}
      (complete : scan d (Line.ofBytes bytes) = .ok g) (missing : g.missing? = some fault)
      (nonempty : 0 < (Line.ofBytes bytes).length) :
      Stops K d bytes (.line (Line.ofBytes bytes).length fault)
  /-- The file is complete, but no line opens the section that tells the format. -/
  | missingFormat {g : Gathered K d} (complete : scan d (Line.ofBytes bytes) = .ok g)
      (outside : g.mode = .outside) (absent : ∀ n, ¬OpensFormat K d (Line.ofBytes bytes) n) :
      Stops K d bytes (.line 0 .missingFormat)
  /-- The file is complete, but no line holds an element of the type of cells. -/
  | noCells {g : Gathered K d} (complete : scan d (Line.ofBytes bytes) = .ok g)
      (outside : g.mode = .outside)
      (absent : ∀ n number rest,
        ¬IsElement K d (Line.ofBytes bytes) n (number :: cellType d :: rest)) :
      Stops K d bytes .noCells

omit [Scalar K] [Numeral K] in
theorem mode_of_missing? {g : Gathered K d} (h : g.missing? = none) : g.mode = .outside := by
  unfold Gathered.missing? at h
  split at h
  · assumption
  all_goals cases h

theorem stops_of_scan {bytes : List UInt8} {fault : Fault K}
    (h : scan d (Line.ofBytes bytes) = .error fault) : Stops K d bytes fault := by
  obtain ⟨n, g, line, before, hline, hstep⟩ := exists_of_scan_error h
  cases line with
  | none =>
    cases hstep
    rw [Line.ofBytes, List.getElem?_map, Option.map_eq_some_iff] at hline
    obtain ⟨mark, hmark, hdecode⟩ := hline
    exact .unreadable before hmark (decode_eq_none_iff.mp hdecode)
  | some text =>
    rw [Gathered.step] at hstep
    cases hread : g.readLine text with
    | ok g' =>
      rw [hread] at hstep
      cases hstep
    | error fault =>
      rw [hread] at hstep
      cases hstep
      exact .line before hline hread

theorem stops_of_finish {bytes : List UInt8} {g : Gathered K d} {fault : Fault K}
    (complete : scan d (Line.ofBytes bytes) = .ok g)
    (h : g.finish (Line.ofBytes bytes).length = .error fault) : Stops K d bytes fault := by
  rw [Gathered.finish] at h
  cases hmissing : g.missing? with
  | some f =>
    rw [hmissing] at h
    cases h
    refine .ends complete hmissing (List.length_pos_iff.mpr fun hnil => ?_)
    rw [hnil] at complete
    cases complete
    cases hmissing
  | none =>
    have outside := mode_of_missing? hmissing
    rw [hmissing] at h
    by_cases hseen : g.formatSeen = true
    · by_cases hempty : g.cells.isEmpty = true
      · simp only [hseen, hempty, Bool.not_true, Bool.false_eq_true, if_false, if_true] at h
        cases h
        refine .noCells complete outside fun n number rest hline => ?_
        have hpos := scan_cells_pos complete hline
        rw [Array.isEmpty_iff_size_eq_zero.mp hempty] at hpos
        cases hpos
      · simp only [hseen, hempty, Bool.not_true, Bool.false_eq_true, if_false] at h
        cases h
    · simp only [hseen, Bool.not_false, if_true] at h
      cases h
      refine .missingFormat complete outside fun n hline => ?_
      rcases scan_formatMet complete hline with hmet | hmet | hmet
      · exact hseen hmet
      · cases outside.symm.trans hmet
      · cases outside.symm.trans hmet

theorem stops_of_read {bytes : List UInt8} (hd : d = 2 ∨ d = 3) {fault : Fault K}
    (h : read d bytes = .error fault) : Stops K d bytes fault := by
  rw [read, readLines_eq hd] at h
  cases hscan : scan (K := K) d (Line.ofBytes bytes) with
  | error f =>
    rw [hscan] at h
    cases h
    exact stops_of_scan hscan
  | ok g =>
    rw [hscan] at h
    exact stops_of_finish hscan h

/-! ## Sound meshes -/

/-- What a mesh read from a file is like. -/
structure Reads (K : Type) [Scalar K] [Numeral K] (d : Nat) (bytes : List UInt8) (m : Mesh K d) :
    Prop where
  cells_ne_nil : m.cells ≠ []
  length_cell : ∀ c ∈ m.cells, c.toList.length = 2 ^ d
  cell_lt : ∀ c ∈ m.cells, ∀ v ∈ c.toList, v < m.vertices.size
  key_lt : ∀ k ∈ m.indicators, ∀ v ∈ k, v < m.vertices.size
  /-- Each cell stands on an element line with exactly the type of cells. -/
  cell_line : ∀ c ∈ m.cells, ∃ (n number : Nat) (tags nodes : List Nat),
    IsElement K d (Line.ofBytes bytes) n
      (number :: cellType d :: tags.length :: (tags ++ nodes)) ∧ nodes.length = 2 ^ d
  /-- Each indicator stands on an element line with exactly the type of faces. -/
  indicator_line : ∀ (k : Key) (i : Indicator), m.indicators[k]? = some i →
    ∃ (n number : Nat) (tags nodes : List Nat),
      IsElement K d (Line.ofBytes bytes) n
        (number :: faceType d :: tags.length :: (tags ++ nodes)) ∧
      nodes.length = k.length ∧ k.length = 2 ^ (d - 1) ∧ i.toNat = tags.headD 0

theorem reads_of_read {bytes : List UInt8} (hd : d = 2 ∨ d = 3) {m : Mesh K d}
    (h : read d bytes = .ok m) : Reads K d bytes m := by
  rw [read, readLines_eq hd, bind_eq_ok_iff] at h
  obtain ⟨g, hscan, hfinish⟩ := h
  obtain ⟨-, -, hempty, rfl⟩ := Gathered.finish_eq_ok_iff.mp hfinish
  obtain ⟨valid, sourced⟩ := scan_valid hscan
  have hsound := valid.wellFormed_mesh
  have hmesh := g.mesh_eq
  refine ⟨?_, fun c _ => Vector.length_toList, hsound.cell_lt, hsound.key_lt, fun c hc => ?_,
    fun k i hi => ?_⟩
  · rw [hmesh]
    simpa using hempty
  · rw [hmesh] at hc
    obtain ⟨c, hmem, rfl⟩ := List.mem_map.mp hc
    exact sourced.cells c (Array.mem_toList_iff.mp hmem)
  · rw [hmesh] at hi
    have hentry := KeyMap.mem_of_getElem?_ofEntries hi
    obtain ⟨f, hf, he⟩ := List.mem_map.mp hentry
    cases he
    rw [Key.length_ofList]
    exact sourced.faces f (Array.mem_toList_iff.mp hf)

/-! ## Elements that are refused -/

theorem read_error {bytes : List UInt8} (hd : d = 2 ∨ d = 3) {fault : Fault K}
    (h : scan d (Line.ofBytes bytes) = .error fault) : read d bytes = .error fault := by
  rw [read, readLines_eq hd, h]
  rfl

/-- What an element line must not say.  No number on it is taken by its remainder. -/
theorem read_refuses {bytes : List UInt8} (hd : d = 2 ∨ d = 3) {n number type count : Nat}
    {rest : List Nat}
    (h : IsElement K d (Line.ofBytes bytes) n (number :: type :: count :: rest)) :
    (2 ^ 32 ≤ type → read (K := K) d bytes = .error (.line (n + 1) .elementType)) ∧
    (type < 2 ^ 32 → rest.length < count →
      read (K := K) d bytes = .error (.line (n + 1) .elementTags)) ∧
    (type = faceType d → rest.length = count + 2 ^ (d - 1) →
      2 ^ 32 ≤ (rest.take count).headD 0 →
      read (K := K) d bytes =
        .error (.line (n + 1) (.physicalTag ((rest.take count).headD 0)))) := by
  obtain ⟨g, more, text, before, mode, line, spells⟩ := h
  have hnumbers : (fields text).mapM (natural (K := K) wordBound .elementField) =
      .ok (number :: type :: count :: rest) := mapM_natural_eq_ok_iff.mpr spells
  have hrefuse {f : LineFault K} (hf : (readElement (K := K) text >>= g.addElement) = .error f) :
      read (K := K) d bytes = .error (.line (n + 1) f) := by
    refine read_error hd (scan_error before line ?_)
    rw [Gathered.readLine, mode]
    show (readElement (K := K) text >>= fun e => g.addElement e >>= fun g => _) = _
    rw [← bind_assoc, hf]
    rfl
  have helement : readElement (K := K) text = if 2 ^ 32 ≤ type then .error .elementType
      else if rest.length < count then .error .elementTags
      else .ok { type, physical := (rest.take count).headD 0, nodes := rest.drop count } := by
    rw [readElement, hnumbers]
    rfl
  refine ⟨fun htype => hrefuse ?_, fun htype hcount => hrefuse ?_,
    fun htype hlength hphysical => hrefuse ?_⟩
  · rw [helement, if_pos htype]
    rfl
  · rw [helement, if_neg (Nat.not_le.mpr htype), if_pos hcount]
    rfl
  · have hsmall : type < 2 ^ 32 := by
      rw [htype]
      rcases hd with rfl | rfl <;> decide
    have hcell : type ≠ cellType d := by
      rw [htype]
      rcases hd with rfl | rfl <;> decide
    have hnodes : (rest.drop count).length = cornerCount (d - 1) := by
      rw [List.length_drop, hlength, Nat.add_sub_cancel_left]
      rfl
    have hcount : ¬rest.length < count := by
      rw [hlength]
      exact Nat.not_lt.mpr (Nat.le_add_right _ _)
    rw [helement, if_neg (Nat.not_le.mpr hsmall), if_neg hcount]
    show g.addElement _ = _
    rw [Gathered.addElement, if_neg hcell, if_pos htype, if_neg (not_not.mpr hnodes)]
    exact if_pos hphysical

/-- Reading never accesses anything outside its range, whatever the bytes are.  It gives a
sound mesh or a fault that tells how far it came, and no number of an element is cut down to
a shorter word on the way. -/
theorem read_safe (hd : d = 2 ∨ d = 3) (bytes : List UInt8) :
    strictRead (K := K) d bytes = Strict.total (read d bytes) ∧
    (∀ m, read d bytes = .ok m → Reads K d bytes m) ∧
    (∀ fault, read d bytes = .error fault → Stops K d bytes fault) ∧
    (∀ n number type count rest,
      IsElement K d (Line.ofBytes bytes) n (number :: type :: count :: rest) →
      (2 ^ 32 ≤ type → read (K := K) d bytes = .error (.line (n + 1) .elementType)) ∧
      (type < 2 ^ 32 → rest.length < count →
        read (K := K) d bytes = .error (.line (n + 1) .elementTags)) ∧
      (type = faceType d → rest.length = count + 2 ^ (d - 1) →
        2 ^ 32 ≤ (rest.take count).headD 0 →
        read (K := K) d bytes =
          .error (.line (n + 1) (.physicalTag ((rest.take count).headD 0))))) :=
  ⟨strictRead_eq hd bytes, fun _ => reads_of_read hd, fun _ => stops_of_read hd,
    fun _ _ _ _ _ => read_refuses hd⟩

/-- A file whose only element claims more tags than any line could hold. -/
def overcount : List (List Char) :=
  ["$Elements".toList, "1".toList, "1 3 18446744073709551615 1".toList]

theorem read_safe_overcount :
    (2 = 2 ∨ 2 = 3) ∧
    IsElement Float 2 (Line.ofBytes (Line.toBytes overcount)) 2 [1, 3, 2 ^ 64 - 1, 1] ∧
    read (K := Float) 2 (Line.toBytes overcount) = .error (.line 3 .elementTags) ∧
    Stops Float 2 (Line.toBytes overcount) (.line 3 .elementTags) := by
  have hlines : Line.ofBytes (Line.toBytes overcount) = overcount.map some :=
    Line.ofBytes_toBytes (by decide)
  have hline : IsElement Float 2 (Line.ofBytes (Line.toBytes overcount)) 2
      [1, 3, 2 ^ 64 - 1, 1] := by
    rw [hlines]
    exact ⟨_, 0, _, rfl, rfl, rfl, by decide⟩
  obtain ⟨-, -, hstops, hrefuses⟩ := read_safe (K := Float) (Or.inl rfl) (Line.toBytes overcount)
  have hread := (hrefuses 2 1 3 (2 ^ 64 - 1) [1] hline).2.1 (by decide) (by decide)
  exact ⟨Or.inl rfl, hline, hread, hstops _ hread⟩

end Msh
end HexMesh
