import HexMesh.Proofs.Number.Rational
import HexMesh.Proofs.Msh.Truncation
import Mathlib.Logic.Relation

/-!
What a mesh file says does not depend on how it is laid out.

Blanks at the ends of a line, the way in which lines end, blanks between the fields of a section
that is read, and whatever stands between the sections that are read may all be changed.  A change
to the middle of a file goes unnoticed if the reader, having come to its start, is led to the
same place by the old lines and by the new ones (`after?_congr`).
-/

namespace HexMesh
namespace Msh

/-! ## Changes of layout -/

/-- The names of the sections that are read; all others are passed over. -/
def sectionsRead : List (List Char) := ["MeshFormat".toList, "Nodes".toList, "Elements".toList]

/-- A change to the lines of a file that does not change what it says. -/
inductive LineChange : List Line → List Line → Prop where
  /-- Blanks are put in front of a line and behind it, or are taken away there. -/
  | margins {before after : List Line} {text text' : List Char} (same : trim text' = trim text) :
      LineChange (before ++ some text :: after) (before ++ some text' :: after)
  /-- Other blanks stand between the fields of a line in a section that is read. -/
  | gaps {before after : List Line} {name text text' : List Char} (known : name ∈ sectionsRead)
      (inside : openSection before = some name) (same : fields text' = fields text) :
      LineChange (before ++ some text :: after) (before ++ some text' :: after)
  /-- A blank line is put in between sections. -/
  | blank {before after : List Line} {text : List Char} (outside : openSection before = none)
      (empty : ∀ c ∈ text, isBlank c = true) :
      LineChange (before ++ after) (before ++ some text :: after)
  /-- A section of another name is put in between sections. -/
  | insertion {before after : List Line} {name opening closing : List Char}
      {body : List (List Char)} (outside : openSection before = none)
      (other : name ∉ sectionsRead) (begins : "End".toList.isPrefixOf name = false)
      (opens : trim opening = '$' :: name) (closes : trim closing = closingMarker name)
      (within : ∀ text ∈ body, trim text ≠ closingMarker name) :
      LineChange (before ++ after)
        (before ++ ((opening :: body ++ [closing]).map some ++ after))

/-- A change to the bytes of a file that does not change what it says. -/
inductive LayoutChange : List UInt8 → List UInt8 → Prop where
  /-- A line feed is written as a carriage return and a line feed. -/
  | lineEnd (bytes rest : List UInt8) :
      LayoutChange (bytes ++ 10 :: rest) (bytes ++ 13 :: 10 :: rest)
  | lines {bytes bytes' : List UInt8} (change : LineChange (Line.ofBytes bytes)
      (Line.ofBytes bytes')) : LayoutChange bytes bytes'

variable {K : Type} [Scalar K] [Numeral K] {d : Nat}

/-! ## One line -/

theorem word_closingMarker : ∀ name ∈ sectionsRead, Word (closingMarker name) := by decide

section Fields

variable {text text' : List Char}

theorem checkFormat_congr (h : fields text' = fields text) :
    checkFormat (K := K) text' = checkFormat text := by
  rw [checkFormat, checkFormat, h]

omit [Scalar K] in
theorem readNode_congr (h : fields text' = fields text) :
    readNode (K := K) (d := d) text' = readNode text := by
  rw [readNode, readNode, h]

omit [Scalar K] [Numeral K] in
theorem readElement_congr (h : fields text' = fields text) :
    readElement (K := K) text' = readElement text := by
  rw [readElement, readElement, h]

end Fields

namespace Gathered

variable {g : Gathered K d} {text text' : List Char}

omit [Scalar K] [Numeral K] in
theorem toOption_opening (h : trim text' = trim text) :
    (g.opening text').toOption = (g.opening text).toOption := by
  unfold opening
  simp only [h]
  repeat' split
  all_goals rfl

theorem readLine_of_trim (h : trim text' = trim text) :
    (g.readLine text').toOption = (g.readLine text).toOption := by
  have hfields := fields_congr h
  unfold readLine
  cases g.mode with
  | outside => exact toOption_opening h
  | format => simp only [checkFormat_congr hfields]
  | closing marker => simp only [h]
  | nodeCount | elementCount => simp only [h]
  | node more => simp only [readNode_congr hfields]
  | element more => simp only [readElement_congr hfields]

theorem readLine_of_fields {name : List Char} (hwithin : g.mode.Within (some name))
    (hname : name ∈ sectionsRead) (h : fields text' = fields text) :
    (g.readLine text').toOption = (g.readLine text).toOption := by
  -- The marker of a section that is read is a word, so a line with the same fields is a marker too.
  have hmarker := word_closingMarker name hname
  have hfound : trim text' = closingMarker name ↔ trim text = closingMarker name := by
    rw [trim_eq_iff_fields hmarker, trim_eq_iff_fields hmarker, h]
  have hcount (item : Item) : (natural (K := K) wordBound item (trim text')).toOption =
      (natural (K := K) wordBound item (trim text)).toOption := by
    unfold natural
    rw [readNat?_trim_congr wordBound h]
    cases readNat? wordBound (trim text) <;> rfl
  unfold readLine
  generalize g.mode = mode at hwithin ⊢
  cases hwithin with
  | format => simp only [checkFormat_congr h]
  | closing => simp only [hfound]
  | nodeCount | elementCount => simp only [toOption_bind, hcount]
  | node more => simp only [readNode_congr h]
  | element more => simp only [readElement_congr h]

/-! ## Lines between sections -/

theorem readLine_blank (hmode : g.mode = .outside) (h : ∀ c ∈ text, isBlank c = true) :
    g.readLine text = .ok g := by
  simp only [readLine, hmode, opening, trim_of_blank h]
  rfl

omit [Scalar K] [Numeral K] in
theorem opening_of_trim {name : List Char} (hother : name ∉ sectionsRead)
    (hbegins : "End".toList.isPrefixOf name = false) (h : trim text = '$' :: name) :
    g.opening text = .ok { g with mode := .closing (closingMarker name) } := by
  have hne (word : List Char) (hword : word ∈ sectionsRead) : '$' :: name ≠ '$' :: word :=
    fun he => hother ((List.cons.inj he).2 ▸ hword)
  have hformat : '$' :: name ≠ "$MeshFormat".toList := hne "MeshFormat".toList (by decide)
  have hnodes : '$' :: name ≠ "$Nodes".toList := hne "Nodes".toList (by decide)
  have helements : '$' :: name ≠ "$Elements".toList := hne "Elements".toList (by decide)
  have hdollar : ("$".toList.isPrefixOf ('$' :: name) &&
      !"$End".toList.isPrefixOf ('$' :: name)) = true := by
    simpa [List.isPrefixOf] using hbegins
  simp only [opening, h, hformat, hnodes, helements, hdollar, if_false, if_true]
  rfl

/-- A section that is passed over leaves nothing behind. -/
theorem after?_insertion {name opening closing : List Char} {body : List (List Char)}
    (hmode : g.mode = .outside) (hother : name ∉ sectionsRead)
    (hbegins : "End".toList.isPrefixOf name = false) (hopens : trim opening = '$' :: name)
    (hcloses : trim closing = closingMarker name)
    (hwithin : ∀ text ∈ body, trim text ≠ closingMarker name) :
    g.after? ((opening :: body ++ [closing]).map some) = some g := by
  have hopening : g.readLine opening = .ok { g with mode := .closing (closingMarker name) } := by
    simp only [readLine, hmode]
    exact opening_of_trim hother hbegins hopens
  have hclosing : ({ g with mode := .closing (closingMarker name) } : Gathered K d).readLine
      closing = .ok { g with mode := .outside } := by
    have hne : closingMarker name ≠ formatMarker := fun he =>
      hother (List.append_cancel_left he ▸ List.mem_cons_self)
    simp only [readLine, hcloses, if_true, hne, decide_false, Bool.or_false]
  have hsame : ({ g with mode := .outside } : Gathered K d) = g := by
    rw [← hmode]
  rw [List.cons_append, List.map_cons, after?_cons_of_eq hopening, List.map_append, after?_append,
    after?_skip rfl hwithin, Option.bind_some]
  exact (after?_cons_of_eq hclosing []).trans (congrArg some hsame)

end Gathered

/-! ## Whole files -/

/-- Lines in the middle of a file may be changed if the reader does not notice it there. -/
theorem after?_congr (before middle middle' after : List Line)
    (h : ∀ g : Gathered K d, g.mode.Within (openSection before) →
      g.after? middle' = g.after? middle) :
    ({} : Gathered K d).after? (before ++ (middle' ++ after)) =
      ({} : Gathered K d).after? (before ++ (middle ++ after)) := by
  rw [Gathered.after?_append, Gathered.after?_append]
  refine Option.bind_congr fun g hg => ?_
  rw [Gathered.after?_append, Gathered.after?_append, h g (Gathered.within_after? .outside hg)]

theorem LineChange.after?_eq {lines lines' : List Line} (h : LineChange lines lines') :
    ({} : Gathered K d).after? lines' = ({} : Gathered K d).after? lines := by
  cases h with
  | @margins before after text text' same =>
    refine after?_congr before [some text] [some text'] after fun g _ => ?_
    rw [Gathered.after?_cons, Gathered.after?_cons, Gathered.readLine_of_trim same]
  | @gaps before after name text text' known inside same =>
    refine after?_congr before [some text] [some text'] after fun g hg => ?_
    rw [inside] at hg
    rw [Gathered.after?_cons, Gathered.after?_cons, Gathered.readLine_of_fields hg known same]
  | @blank before after text outside empty =>
    refine after?_congr before [] [some text] after fun g hg => ?_
    rw [outside] at hg
    exact Gathered.after?_cons_of_eq (Gathered.readLine_blank hg.eq_outside empty) []
  | @insertion before after name opening closing body outside other begins opens closes within =>
    refine after?_congr before [] _ after fun g hg => ?_
    rw [outside] at hg
    exact Gathered.after?_insertion hg.eq_outside other begins opens closes within

theorem toOption_read_congr {bytes bytes' : List UInt8}
    (h : ({} : Gathered K d).after? (Line.ofBytes bytes') =
      ({} : Gathered K d).after? (Line.ofBytes bytes)) :
    (read (K := K) d bytes').toOption = (read (K := K) d bytes).toOption := by
  by_cases hd : d = 2 ∨ d = 3
  · rw [toOption_read hd, toOption_read hd, h]
  · rw [read_of_dimension (by omega), read_of_dimension (by omega)]

theorem LayoutChange.toOption_read {bytes bytes' : List UInt8} (h : LayoutChange bytes bytes') :
    (read (K := K) d bytes').toOption = (read (K := K) d bytes).toOption := by
  cases h with
  | lineEnd bytes rest =>
    obtain ⟨before, line, line', hfeed, hreturn, hline⟩ := Line.ofBytes_lineEnd bytes rest
    refine toOption_read_congr ?_
    rw [hfeed, hreturn]
    rcases hline with rfl | ⟨text, rfl, rfl⟩
    · rfl
    · -- The carriage return that the text has gained is a blank at its end.
      exact LineChange.after?_eq (.margins (trim_append_blank text (by decide)))
  | lines change => exact toOption_read_congr change.after?_eq

/-- Which mesh a file gives, and whether it gives any, is the same after any number of changes
to its layout, each of them made or taken back. -/
theorem read_layout {bytes bytes' : List UInt8}
    (h : Relation.EqvGen LayoutChange bytes bytes') :
    (read (K := K) d bytes').toOption = (read (K := K) d bytes).toOption := by
  induction h with
  | rel _ _ change => exact change.toOption_read
  | refl => rfl
  | symm _ _ _ ih => exact ih.symm
  | trans _ _ _ _ _ ih ih' => exact ih'.trans ih

/-- A file of one square, with lines in front of its first section and with a given line for the
format. -/
def framedFile (front : List String) (format : String) : List (List Char) :=
  (front ++ ["$MeshFormat", format, "$EndMeshFormat", "$Nodes", "4", "1 0 0 0", "2 3 0 0",
    "3 3 3 0", "4 0 3 0", "$EndNodes", "$Elements", "1", "1 3 0 1 2 3 4",
    "$EndElements"]).map String.toList

theorem read_layout_framed :
    Relation.EqvGen LayoutChange (Line.toBytes (framedFile [] "2 0 8"))
      (Line.encode ['\t'] ++
        13 :: 10 :: Line.toBytes (framedFile ["$Notes", "$EndNotes"] " 2\t0  8")) ∧
    ∃ m : Mesh ℚ 2, read 2 (Line.toBytes (framedFile [] "2 0 8")) = .ok m ∧
      read 2 (Line.encode ['\t'] ++
        13 :: 10 :: Line.toBytes (framedFile ["$Notes", "$EndNotes"] " 2\t0  8")) = .ok m := by
  have hlines {lines lines' : List (List Char)} (h : LineChange (lines.map some) (lines'.map some))
      (hunbroken : ∀ line ∈ lines, Line.Unbroken line)
      (hunbroken' : ∀ line ∈ lines', Line.Unbroken line) :
      Relation.EqvGen LayoutChange (Line.toBytes lines) (Line.toBytes lines') := by
    rw [← Line.ofBytes_toBytes hunbroken, ← Line.ofBytes_toBytes hunbroken'] at h
    exact .rel _ _ (.lines h)
  have hgaps : LineChange ((framedFile [] "2 0 8").map some)
      ((framedFile [] " 2\t0  8").map some) :=
    @LineChange.gaps [some "$MeshFormat".toList] _ _ _ _ List.mem_cons_self rfl (by decide)
  have hinsertion : LineChange ((framedFile [] " 2\t0  8").map some)
      ((framedFile ["$Notes", "$EndNotes"] " 2\t0  8").map some) :=
    @LineChange.insertion [] _ "Notes".toList "$Notes".toList "$EndNotes".toList [] rfl
      (by decide) rfl (by decide) (by decide) fun _ h => absurd h List.not_mem_nil
  have hblank : LineChange ((framedFile ["$Notes", "$EndNotes"] " 2\t0  8").map some)
      ((['\t'] :: framedFile ["$Notes", "$EndNotes"] " 2\t0  8").map some) :=
    @LineChange.blank [] _ _ rfl (List.forall_mem_singleton.mpr rfl)
  have hend := LayoutChange.lineEnd (Line.encode ['\t'])
    (Line.toBytes (framedFile ["$Notes", "$EndNotes"] " 2\t0  8"))
  rw [← Line.toBytes_cons] at hend
  have hchanges := (hlines hgaps (by decide) (by decide)).trans _ _ _
    ((hlines hinsertion (by decide) (by decide)).trans _ _ _
      ((hlines hblank (by decide) (by decide)).trans _ _ _ (.rel _ _ hend)))
  have hread : (read (K := ℚ) 2 (Line.toBytes (framedFile [] "2 0 8"))).toOption.isSome = true := by
    rw [read, Line.ofBytes_toBytes (by decide)]
    decide +kernel
  obtain ⟨m, hm⟩ := Option.isSome_iff_exists.mp hread
  exact ⟨hchanges, m, toOption_eq_some_iff.mp hm,
    toOption_eq_some_iff.mp ((read_layout hchanges).trans hm)⟩

end Msh
end HexMesh
