import HexMesh.Msh.Reader
import HexMesh.Proofs.Mesh.Cell
import HexMesh.Proofs.Mesh.Fault

/-!
What one line of a mesh file does, and what a run over many lines keeps.

`Gathered.Takes` lists everything a line can do to what was gathered before it.  A
property of runs is proved once for each entry of that list and lifted by
`scan_induction`; `readLines` is such a run followed by a look at what is missing.
-/

namespace HexMesh
namespace Msh

open HexMesh.Cube

variable {K : Type} {d : Nat}

/-! ## Numbers on a line -/

/-- The fields of a line are numerals of these words of 64 bits. -/
def Spells (line : List Char) (numbers : List Nat) : Prop :=
  (fields line).map (readNat? wordBound) = numbers.map some

instance (line : List Char) (numbers : List Nat) : Decidable (Spells line numbers) :=
  inferInstanceAs (Decidable ((fields line).map (readNat? wordBound) = numbers.map some))

theorem natural_eq_ok_iff {bound n : Nat} {item : Item} {field : List Char} :
    natural (K := K) bound item field = .ok n ↔ readNat? bound field = some n := by
  unfold natural
  cases readNat? bound field with
  | none => simp [badField]
  | some m => simp

theorem mapM_natural_eq_ok_iff {item : Item} {line : List Char} {numbers : List Nat} :
    (fields line).mapM (natural (K := K) wordBound item) = .ok numbers ↔
      Spells line numbers := by
  rw [mapM_eq_ok_iff, Spells]
  generalize fields line = words
  induction words generalizing numbers with
  | nil => cases numbers <;> simp
  | cons w rest ih =>
    cases numbers with
    | nil => simp
    | cons n numbers =>
      rw [List.map_cons, List.map_cons, List.map_cons, List.map_cons, List.cons.injEq,
        List.cons.injEq, natural_eq_ok_iff, ih]

/-- An element line gives the element that its numbers list: a running number, the type,
how many tags follow, these tags, and the nodes.  The first tag is the physical one. -/
theorem readElement_eq_ok_iff {line : List Char} {e : Element} :
    readElement (K := K) line = .ok e ↔ ∃ (number : Nat) (tags : List Nat),
      Spells line (number :: e.type :: tags.length :: (tags ++ e.nodes)) ∧
        e.type < halfWordBound ∧ e.physical = tags.headD 0 := by
  rw [readElement, bind_eq_ok_iff]
  constructor
  · intro h
    obtain ⟨numbers, hnumbers, h⟩ := h
    rw [mapM_natural_eq_ok_iff] at hnumbers
    match numbers, h with
    | number :: type :: count :: rest, h =>
      by_cases htype : halfWordBound ≤ type
      · simp only [htype, if_true] at h
        cases h
      · by_cases hcount : rest.length < count
        · simp only [htype, hcount, if_true, if_false] at h
          cases h
        · simp only [htype, hcount, if_false] at h
          cases h
          refine ⟨number, rest.take count, ?_, Nat.not_le.mp htype, rfl⟩
          rw [List.length_take, Nat.min_eq_left (by omega), List.take_append_drop]
          exact hnumbers
  · intro h
    obtain ⟨number, tags, hspells, htype, hphysical⟩ := h
    refine ⟨_, mapM_natural_eq_ok_iff.mpr hspells, ?_⟩
    simp only [Nat.not_le.mpr htype, if_false, List.length_append,
      Nat.not_lt.mpr (Nat.le_add_right _ _), List.take_left', List.drop_left', hphysical.symm]
    rfl

/-! ## Taking in an element -/

namespace Gathered

variable {g g' : Gathered K d}

theorem resolve_eq_ok_iff {tags vs : List Nat} :
    g.resolve tags = .ok vs ↔ tags.map (g.vertexOfTag[·]?) = vs.map some := by
  rw [resolve, mapM_eq_ok_iff]
  induction tags generalizing vs with
  | nil => cases vs <;> simp
  | cons t rest ih =>
    cases vs with
    | nil => simp
    | cons v vs =>
      rw [List.map_cons, List.map_cons, List.map_cons, List.map_cons, List.cons.injEq,
        List.cons.injEq, ih]
      refine and_congr_left fun _ => ?_
      cases g.vertexOfTag[t]? with
      | none => simp
      | some w => simp

/-- What taking in an element can do. -/
inductive Gains (g : Gathered K d) (e : Element) : Gathered K d → Prop where
  | cell {vs : List Nat} (type : e.type = cellType d) (count : e.nodes.length = cornerCount d)
      (found : e.nodes.map (g.vertexOfTag[·]?) = vs.map some) :
      Gains g e { g with cells := g.cells.push (Cell.ofFn fun v => vs.getD (nodePlace v) 0) }
  | face {vs : List Nat} (noCell : e.type ≠ cellType d) (type : e.type = faceType d)
      (count : e.nodes.length = cornerCount (d - 1)) (physical : e.physical < halfWordBound)
      (found : e.nodes.map (g.vertexOfTag[·]?) = vs.map some) :
      Gains g e { g with faces := g.faces.push (vs, e.physical.toUInt32) }
  | other (noCell : e.type ≠ cellType d) (noFace : e.type ≠ faceType d) : Gains g e g

theorem addElement_eq_ok_iff {e : Element} : g.addElement e = .ok g' ↔ g.Gains e g' := by
  constructor
  · intro h
    unfold addElement at h
    by_cases hcell : e.type = cellType d
    · rw [if_pos hcell] at h
      by_cases hcount : e.nodes.length = cornerCount d
      · rw [if_neg (not_not.mpr hcount)] at h
        obtain ⟨vs, hvs, h⟩ := bind_eq_ok_iff.mp h
        cases h
        exact .cell hcell hcount (resolve_eq_ok_iff.mp hvs)
      · rw [if_pos hcount] at h
        cases h
    · rw [if_neg hcell] at h
      by_cases hface : e.type = faceType d
      · rw [if_pos hface] at h
        by_cases hcount : e.nodes.length = cornerCount (d - 1)
        · rw [if_neg (not_not.mpr hcount)] at h
          by_cases hphysical : halfWordBound ≤ e.physical
          · rw [if_pos hphysical] at h
            cases h
          · rw [if_neg hphysical] at h
            obtain ⟨vs, hvs, h⟩ := bind_eq_ok_iff.mp h
            cases h
            exact .face hcell hface hcount (Nat.not_le.mp hphysical) (resolve_eq_ok_iff.mp hvs)
        · rw [if_pos hcount] at h
          cases h
      · rw [if_neg hface] at h
        cases h
        exact .other hcell hface
  · intro h
    cases h with
    | cell type count found =>
      rw [addElement, if_pos type, if_neg (not_not.mpr count), resolve_eq_ok_iff.mpr found]
      rfl
    | face noCell type count physical found =>
      rw [addElement, if_neg noCell, if_pos type, if_neg (not_not.mpr count),
        if_neg (Nat.not_le.mpr physical), resolve_eq_ok_iff.mpr found]
      rfl
    | other noCell noFace =>
      rw [addElement, if_neg noCell, if_neg noFace]
      rfl

/-! ## Taking in a line -/

variable [Scalar K] [Numeral K]

/-- What a line can do.  Only a node and an element change what was gathered; every other
line moves the reader on. -/
inductive Takes (g : Gathered K d) (line : List Char) : Gathered K d → Prop where
  | blank (mode : g.mode = .outside) (empty : trim line = []) : Takes g line g
  | opens {next : Mode} (mode : g.mode = .outside)
      (format : trim line = "$MeshFormat".toList → next = .format) :
      Takes g line { g with mode := next }
  | format (mode : g.mode = .format) (valid : checkFormat (K := K) line = .ok ()) :
      Takes g line { g with mode := .closing formatMarker }
  | closes {marker : List Char} (mode : g.mode = .closing marker) (found : trim line = marker) :
      Takes g line
        { g with mode := .outside, formatSeen := g.formatSeen || marker = formatMarker }
  | skips {marker : List Char} (mode : g.mode = .closing marker) (other : trim line ≠ marker) :
      Takes g line g
  | nodeCount {count : Nat} (mode : g.mode = .nodeCount)
      (read : readNat? wordBound (trim line) = some count) : Takes g line (g.nodesLeft count)
  | node {more tag : Nat} {p : Point K d} (mode : g.mode = .node more)
      (read : readNode line = .ok (tag, p)) : Takes g line ((g.addNode tag p).nodesLeft more)
  | elementCount {count : Nat} (mode : g.mode = .elementCount)
      (read : readNat? wordBound (trim line) = some count) : Takes g line (g.elementsLeft count)
  | element {more : Nat} {e : Element} {g₁ : Gathered K d} (mode : g.mode = .element more)
      (read : readElement (K := K) line = .ok e) (gains : g.Gains e g₁) :
      Takes g line (g₁.elementsLeft more)

theorem takes_of_opening {line : List Char} (mode : g.mode = .outside)
    (h : g.opening line = .ok g') : g.Takes line g' := by
  unfold opening at h
  by_cases hformat : trim line = "$MeshFormat".toList
  · simp only [hformat, if_true] at h
    cases h
    exact .opens mode fun _ => rfl
  simp only [hformat, if_false] at h
  by_cases hnodes : trim line = "$Nodes".toList
  · simp only [hnodes, if_true] at h
    cases h
    exact .opens mode fun he => absurd he hformat
  simp only [hnodes, if_false] at h
  by_cases helements : trim line = "$Elements".toList
  · simp only [helements, if_true] at h
    cases h
    exact .opens mode fun he => absurd he hformat
  simp only [helements, if_false] at h
  by_cases hother :
      ("$".toList.isPrefixOf (trim line) && !"$End".toList.isPrefixOf (trim line)) = true
  · rw [if_pos hother] at h
    cases h
    exact .opens mode fun he => absurd he hformat
  rw [if_neg hother] at h
  by_cases hempty : (trim line).isEmpty = true
  · rw [if_pos hempty] at h
    cases h
    exact .blank mode (List.isEmpty_iff.mp hempty)
  · rw [if_neg hempty] at h
    cases h

theorem takes_of_readLine {line : List Char} (h : g.readLine line = .ok g') :
    g.Takes line g' := by
  unfold readLine at h
  split at h
  next mode => exact takes_of_opening mode h
  next mode =>
    obtain ⟨⟨⟩, hvalid, h⟩ := bind_eq_ok_iff.mp h
    cases h
    exact .format mode hvalid
  next marker mode =>
    by_cases hfound : trim line = marker
    · rw [if_pos hfound] at h
      cases h
      exact .closes mode hfound
    · rw [if_neg hfound] at h
      cases h
      exact .skips mode hfound
  next mode =>
    obtain ⟨count, hcount, h⟩ := bind_eq_ok_iff.mp h
    cases h
    exact .nodeCount mode (natural_eq_ok_iff.mp hcount)
  next more mode =>
    obtain ⟨⟨tag, p⟩, hnode, h⟩ := bind_eq_ok_iff.mp h
    cases h
    exact .node mode hnode
  next mode =>
    obtain ⟨count, hcount, h⟩ := bind_eq_ok_iff.mp h
    cases h
    exact .elementCount mode (natural_eq_ok_iff.mp hcount)
  next more mode =>
    obtain ⟨e, he, h⟩ := bind_eq_ok_iff.mp h
    obtain ⟨g₁, hgains, h⟩ := bind_eq_ok_iff.mp h
    cases h
    exact .element mode he (addElement_eq_ok_iff.mp hgains)

/-! ## Runs -/

/-- Reading lines, the first of which has a given number. -/
def run (g : Gathered K d) (first : Nat) (lines : List Line) : Except (Fault K) (Gathered K d) :=
  (lines.zipIdx first).foldlM step g

theorem run_append (g : Gathered K d) (first : Nat) (a b : List Line) :
    g.run first (a ++ b) = g.run first a >>= fun g => g.run (first + a.length) b := by
  rw [run, List.zipIdx_append, List.foldlM_append]
  rfl

theorem run_take_succ {g : Gathered K d} {lines : List Line} {first n : Nat} {line : Line}
    (h : lines[n]? = some line) :
    g.run first (lines.take (n + 1)) =
      g.run first (lines.take n) >>= fun g => g.step (line, first + n) := by
  have hn : n ≤ lines.length := Nat.le_of_lt (List.getElem?_eq_some_iff.mp h).1
  rw [List.take_add_one, h, Option.toList_some, run_append, List.length_take,
    Nat.min_eq_left hn]
  refine bind_congr fun g => ?_
  show [(line, first + n)].foldlM step g = _
  rw [List.foldlM_cons]
  exact bind_pure _

theorem step_eq_ok_iff {line : Line} {n : Nat} :
    g.step (line, n) = .ok g' ↔ ∃ text, line = some text ∧ g.readLine text = .ok g' := by
  cases line with
  | none => simp [step]
  | some text =>
    rw [step]
    cases h : g.readLine text with
    | ok g₁ => simp [h]
    | error f => simp [h]

end Gathered

variable [Scalar K] [Numeral K]

/-- What the reader has gathered after some lines of a file. -/
def scan (d : Nat) (lines : List Line) : Except (Fault K) (Gathered K d) :=
  ({} : Gathered K d).run 1 lines

/-- A property of what was gathered that holds before the first line and is kept by every
line holds after each line. -/
theorem scan_induction {lines : List Line} {P : Nat → Gathered K d → Prop} (start : P 0 {})
    (next : ∀ n g g' text, scan d (lines.take n) = .ok g → lines[n]? = some (some text) →
      g.Takes text g' → P n g → P (n + 1) g') :
    ∀ n ≤ lines.length, ∀ g, scan d (lines.take n) = .ok g → P n g := by
  intro n
  induction n with
  | zero =>
    intro _ g h
    cases h
    exact start
  | succ n ih =>
    intro hn g' h
    have hline : lines[n]? = some lines[n] := List.getElem?_eq_getElem hn
    rw [scan, Gathered.run_take_succ hline, bind_eq_ok_iff] at h
    obtain ⟨g, hg, hstep⟩ := h
    obtain ⟨text, htext, hread⟩ := Gathered.step_eq_ok_iff.mp hstep
    rw [htext] at hline
    exact next n g g' text hg hline (Gathered.takes_of_readLine hread) (ih (Nat.le_of_lt hn) g hg)

/-- A property that some line brings about and every line keeps holds at the end. -/
theorem scan_after {lines : List Line} {g : Gathered K d} (h : scan d lines = .ok g) {n : Nat}
    {g₁ : Gathered K d} {text : List Char} (before : scan d (lines.take n) = .ok g₁)
    (line : lines[n]? = some (some text)) {P : Gathered K d → Prop}
    (start : ∀ g', g₁.Takes text g' → P g')
    (next : ∀ g g' text, g.Takes text g' → P g → P g') : P g := by
  have hn : n < lines.length := (List.getElem?_eq_some_iff.mp line).1
  rw [← List.take_length (l := lines)] at h
  -- Up to line `n` nothing is claimed, which is what makes the induction start.
  refine scan_induction (P := fun i g => n < i → P g) (fun hi => ?_) ?_ _ (Nat.le_refl _) g h hn
  · cases hi
  · intro i g g' text' before' line' takes hg hi
    rcases Nat.lt_succ_iff_lt_or_eq.mp hi with hi | rfl
    · exact next g g' text' takes (hg hi)
    · cases before.symm.trans before'
      cases line.symm.trans line'
      exact start g' takes

/-- Two files are scanned alike when their lines are read alike one by one, as far as the first
file can be read. -/
theorem scan_matches {lines lines' : List Line} {R : Gathered K d → Gathered K d → Prop}
    (length : lines'.length = lines.length) (start : R {} {})
    (next : ∀ n g g' line line', scan d (lines.take n) = .ok g → R g g' →
      lines[n]? = some line → lines'[n]? = some line' →
      Matches R (g.step (line, 1 + n)) (g'.step (line', 1 + n))) :
    Matches R (scan d lines) (scan d lines') := by
  -- By induction on how many lines are read.  After a fault nothing is asked of the next lines.
  have hprefix : ∀ n ≤ lines.length,
      Matches R (scan d (lines.take n)) (scan d (lines'.take n)) := by
    intro n
    induction n with
    | zero => exact fun _ => .ok start
    | succ n ih =>
      intro hn
      have hline : lines[n]? = some lines[n] := List.getElem?_eq_getElem hn
      have hline' : lines'[n]? = some lines'[n] := List.getElem?_eq_getElem (by omega)
      have hbefore := ih (Nat.le_of_lt hn)
      rw [scan, scan, Gathered.run_take_succ hline, Gathered.run_take_succ hline', ← scan, ← scan]
      generalize hscan : scan (K := K) d (lines.take n) = x,
        scan (K := K) d (lines'.take n) = y at hbefore ⊢
      cases hbefore with
      | ok related => exact next n _ _ _ _ hscan related hline hline'
      | error f => exact .error f
  have hwhole := hprefix lines.length (Nat.le_refl _)
  rwa [List.take_length, ← length, List.take_length] at hwhole

/-- What becomes of everything that was gathered when the file ends. -/
def Gathered.finish (g : Gathered K d) (lineCount : Nat) : Except (Fault K) (Mesh K d) :=
  match g.missing? with
  | some fault => .error (.line lineCount fault)
  | none =>
    if !g.formatSeen then .error (.line 0 .missingFormat)
    else if g.cells.isEmpty then .error .noCells
    else .ok g.mesh

/-- Reading a file is a run over its lines and a look at what is missing. -/
theorem readLines_eq (hd : d = 2 ∨ d = 3) (lines : List Line) :
    readLines (K := K) d lines = scan d lines >>= fun g => g.finish lines.length := by
  have hdim : ¬(d ≠ 2 ∧ d ≠ 3) := by omega
  rw [readLines, if_neg hdim]
  show scan d lines >>= _ = _
  refine bind_congr fun g => ?_
  rw [Gathered.finish]
  cases g.missing? with
  | some fault => rfl
  | none => cases g.formatSeen <;> cases g.cells.isEmpty <;> rfl

omit [Numeral K] in
theorem Gathered.finish_eq_ok_iff {g : Gathered K d} {lineCount : Nat} {m : Mesh K d} :
    g.finish lineCount = .ok m ↔
      g.missing? = none ∧ g.formatSeen = true ∧ g.cells.isEmpty = false ∧ m = g.mesh := by
  rw [finish]
  cases g.missing? with
  | some fault => simp
  | none => cases g.formatSeen <;> cases g.cells.isEmpty <;> simp [eq_comm]

end Msh
end HexMesh
