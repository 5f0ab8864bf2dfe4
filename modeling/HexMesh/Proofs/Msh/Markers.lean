import HexMesh.Proofs.Msh.Acceptance
import HexMesh.Proofs.Text.Trim

/-!
Sections as the lines that open and close them show them.

`openSection` goes through a file without reading any number: a line `$Name` opens a section
if none is open, and the next line `$EndName` closes it.  The reader counts entries instead,
and still it agrees with the markers wherever it gets to (`within_scan`): a line that holds a
version, a count, a node or an element never looks like the end of its section.
-/

namespace HexMesh
namespace Msh

/-! ## Sections by their markers -/

/-- The line that closes a section. -/
def closingMarker (name : List Char) : List Char := "$End".toList ++ name

/-- The section that a line opens if none is open before it. -/
def opened? (text : List Char) : Option (List Char) :=
  match trim text with
  | '$' :: name => if "End".toList.isPrefixOf name then none else some name
  | _ => none

/-- The section that is open behind a line. -/
def sectionAfter : Option (List Char) → Line → Option (List Char)
  | none, some text => opened? text
  | some name, some text => if trim text = closingMarker name then none else some name
  | current, none => current

/-- The section that is open behind some lines from the start of a file. -/
def openSection (lines : List Line) : Option (List Char) := lines.foldl sectionAfter none

theorem opened?_of_trim {text name : List Char} (h : trim text = '$' :: name)
    (hend : "End".toList.isPrefixOf name = false) : opened? text = some name := by
  rw [opened?, h]
  exact if_neg (by rw [hend]; exact Bool.false_ne_true)

/-! ## Modes of the reader -/

/-- What the reader may expect while a section is open. -/
inductive Mode.Within : Mode → Option (List Char) → Prop where
  | outside : Within .outside none
  | format : Within .format (some "MeshFormat".toList)
  | closing (name : List Char) : Within (.closing (closingMarker name)) (some name)
  | nodeCount : Within .nodeCount (some "Nodes".toList)
  | node (more : Nat) : Within (.node more) (some "Nodes".toList)
  | elementCount : Within .elementCount (some "Elements".toList)
  | element (more : Nat) : Within (.element more) (some "Elements".toList)

theorem Mode.Within.eq_outside {mode : Mode} (h : mode.Within none) : mode = .outside := by
  cases h
  rfl

/-! ## Lines with something to read -/

section Fields

variable {K : Type} {d : Nat} {text : List Char}

theorem trim_ne_of_length {w : List Char} (hw : Word w) (h : 2 ≤ (fields text).length) :
    trim text ≠ w := by
  intro htrim
  rw [(trim_eq_iff_fields hw).mp htrim] at h
  exact absurd h (by simp)

theorem readNat?_closingMarker (bound : Nat) (name : List Char) :
    readNat? bound (closingMarker name) = none := rfl

theorem natural_eq_error (bound : Nat) (item : Item) {field : List Char}
    (h : readNat? bound field = none) :
    natural (K := K) bound item field = .error (.badField item (String.ofList field)) := by
  rw [natural, h]
  rfl

theorem length_fields_of_checkFormat [Scalar K] [Numeral K]
    (h : checkFormat (K := K) text = .ok ()) : 2 ≤ (fields text).length := by
  obtain ⟨version, -, h⟩ := bind_eq_ok_iff.mp h
  obtain ⟨fileType, hfileType, -⟩ := bind_eq_ok_iff.mp h
  rw [natural_eq_ok_iff] at hfileType
  by_contra hshort
  -- Without a second field there is no file type.
  rw [List.getD_eq_getElem?_getD, List.getElem?_eq_none (by omega)] at hfileType
  cases hfileType

theorem length_fields_of_readNode [Numeral K] {node : Nat × Point K d}
    (h : readNode text = .ok node) : 2 ≤ (fields text).length := by
  rw [readNode] at h
  split at h
  next tag coordinates hfields =>
    by_cases hshort : coordinates.length < 3
    · rw [if_pos hshort] at h
      cases h
    · rw [hfields, List.length_cons]
      omega
  next => cases h

theorem length_fields_of_readElement {e : Element} (h : readElement (K := K) text = .ok e) :
    2 ≤ (fields text).length := by
  obtain ⟨number, tags, hspells, -⟩ := readElement_eq_ok_iff.mp h
  have hlength := congrArg List.length hspells
  simp only [List.length_map, List.length_cons] at hlength
  omega

end Fields

/-! ## The reader and the markers -/

variable {K : Type} {d : Nat} {g g' : Gathered K d} {current : Option (List Char)}

namespace Gathered

theorem within_awaiting (g : Gathered K d) {entry : Nat → Mode} {endMarker : String}
    {name : List Char} (hmarker : endMarker.toList = closingMarker name)
    (hentry : ∀ more, (entry more).Within (some name)) (n : Nat) :
    (g.awaiting entry endMarker n).mode.Within (some name) := by
  cases n with
  | zero =>
    rw [awaiting, hmarker]
    exact .closing name
  | succ more => exact hentry more

theorem within_nodesLeft (g : Gathered K d) (n : Nat) :
    (g.nodesLeft n).mode.Within (some "Nodes".toList) :=
  g.within_awaiting rfl .node n

theorem within_elementsLeft (g : Gathered K d) (n : Nat) :
    (g.elementsLeft n).mode.Within (some "Elements".toList) :=
  g.within_awaiting rfl .element n

theorem within_opening {text : List Char} (hmode : g.mode = .outside)
    (h : g.opening text = .ok g') : g'.mode.Within (opened? text) := by
  unfold opening at h
  by_cases hformat : trim text = "$MeshFormat".toList
  · simp only [hformat, if_true] at h
    cases h
    rw [opened?_of_trim hformat (by decide)]
    exact .format
  simp only [hformat, if_false] at h
  by_cases hnodes : trim text = "$Nodes".toList
  · simp only [hnodes, if_true] at h
    cases h
    rw [opened?_of_trim hnodes (by decide)]
    exact .nodeCount
  simp only [hnodes, if_false] at h
  by_cases helements : trim text = "$Elements".toList
  · simp only [helements, if_true] at h
    cases h
    rw [opened?_of_trim helements (by decide)]
    exact .elementCount
  simp only [helements, if_false] at h
  by_cases hother :
      ("$".toList.isPrefixOf (trim text) && !"$End".toList.isPrefixOf (trim text)) = true
  · rw [if_pos hother] at h
    cases h
    obtain ⟨hdollar, hend⟩ := Bool.and_eq_true_iff.mp hother
    obtain ⟨name, hname⟩ := List.isPrefixOf_iff_prefix.mp hdollar
    rw [← hname] at hend ⊢
    rw [opened?_of_trim hname.symm (by simpa [List.isPrefixOf] using hend)]
    exact .closing name
  rw [if_neg hother] at h
  by_cases hempty : (trim text).isEmpty = true
  · rw [if_pos hempty] at h
    cases h
    rw [opened?, List.isEmpty_iff.mp hempty, hmode]
    exact .outside
  · rw [if_neg hempty] at h
    cases h

variable [Scalar K] [Numeral K]

/-- A line takes the reader from one section to another just as its text says. -/
theorem within_readLine {text : List Char} (hwithin : g.mode.Within current)
    (h : g.readLine text = .ok g') : g'.mode.Within (sectionAfter current (some text)) := by
  have hstays {name : List Char} (hname : trim text ≠ closingMarker name) :
      sectionAfter (some name) (some text) = some name := if_neg hname
  unfold readLine at h
  generalize hmode : g.mode = mode at hwithin h
  cases hwithin with
  | outside => exact within_opening hmode h
  | format =>
    obtain ⟨⟨⟩, hvalid, h⟩ := bind_eq_ok_iff.mp h
    cases h
    rw [hstays (trim_ne_of_length (by decide) (length_fields_of_checkFormat hvalid))]
    exact .closing "MeshFormat".toList
  | closing name =>
    by_cases hfound : trim text = closingMarker name
    · simp only [hfound, if_true] at h
      cases h
      rw [sectionAfter, if_pos hfound]
      exact .outside
    · simp only [hfound, if_false] at h
      cases h
      rw [hstays hfound, hmode]
      exact .closing name
  | nodeCount =>
    obtain ⟨count, hcount, h⟩ := bind_eq_ok_iff.mp h
    cases h
    rw [natural_eq_ok_iff] at hcount
    rw [hstays fun he => by rw [he, readNat?_closingMarker] at hcount; cases hcount]
    exact g.within_nodesLeft count
  | node more =>
    obtain ⟨⟨tag, p⟩, hnode, h⟩ := bind_eq_ok_iff.mp h
    cases h
    rw [hstays (trim_ne_of_length (by decide) (length_fields_of_readNode hnode))]
    exact within_nodesLeft _ more
  | elementCount =>
    obtain ⟨count, hcount, h⟩ := bind_eq_ok_iff.mp h
    cases h
    rw [natural_eq_ok_iff] at hcount
    rw [hstays fun he => by rw [he, readNat?_closingMarker] at hcount; cases hcount]
    exact g.within_elementsLeft count
  | element more =>
    obtain ⟨e, he, h⟩ := bind_eq_ok_iff.mp h
    obtain ⟨g₁, -, h⟩ := bind_eq_ok_iff.mp h
    cases h
    rw [hstays (trim_ne_of_length (by decide) (length_fields_of_readElement he))]
    exact within_elementsLeft _ more

theorem within_after? {lines : List Line} (hwithin : g.mode.Within current)
    (h : g.after? lines = some g') : g'.mode.Within (lines.foldl sectionAfter current) := by
  induction lines generalizing g current with
  | nil =>
    cases h
    exact hwithin
  | cons line rest ih =>
    cases line with
    | none => cases h
    | some text =>
      rw [after?_cons, Option.bind_eq_some_iff] at h
      obtain ⟨g₁, hread, hrest⟩ := h
      exact ih (within_readLine hwithin (toOption_eq_some_iff.mp hread)) hrest

end Gathered

variable [Scalar K] [Numeral K]

/-- The reader is in the section that the markers show. -/
theorem within_scan {lines : List Line} (h : scan d lines = .ok g) :
    g.mode.Within (openSection lines) :=
  Gathered.within_after? .outside (scan_eq_ok_iff.mp h)

theorem outside_of_scan {lines : List Line} (hopen : openSection lines = none)
    (h : scan d lines = .ok g) : g.mode = .outside :=
  Mode.Within.eq_outside (hopen ▸ within_scan h)

end Msh
end HexMesh
