import HexMesh.Proofs.Msh.Gathered
import HexMesh.Proofs.Mesh.Strict
import HexMesh.Proofs.Mesh.WellFormed

/-!
Reading with accesses that fail.

`Msh.read` looks lists up in such a way that an access outside a list would give some
default.  Here the same reader is written with lookups that have no result there, and with
the final check of the cells that its own mesh is spared.  The two readers agree on all
files, so no access is ever outside a list and the final check never fails.
-/

namespace HexMesh
namespace Msh

open HexMesh.Cube Strict

variable {K : Type} {d : Nat}

/-! ## Nodes and elements -/

def strictNode [Numeral K] (line : List Char) : Strict (LineFault K) (Nat × Point K d) := do
  let words := fields line
  if words.length < 4 then throw .shortNode
  let tag ← total (natural wordBound .nodeTag (← entry words 0))
  let coords ← (Vector.finRange d).mapM fun a : Fin d => do
    total (scalar .coordinate (← entry words (1 + a.val)))
  return (tag, ⟨coords⟩)

def strictElement (line : List Char) : Strict (LineFault K) Element := do
  let numbers ← total ((fields line).mapM (natural wordBound .elementField))
  if numbers.length < 3 then throw .shortElement
  else do
    let type ← entry numbers 1
    if halfWordBound ≤ type then throw .elementType
    else do
      let firstNode := (← entry numbers 2) + 3
      if numbers.length < firstNode then throw .elementTags
      else do
        let physical ← if 3 < firstNode then entry numbers 3 else pure 0
        let nodes ← suffix numbers firstNode
        return { type, physical, nodes }

def strictAddElement (g : Gathered K d) (e : Element) : Strict (LineFault K) (Gathered K d) :=
  if e.type = cellType d then
    if e.nodes.length ≠ cornerCount d then throw .cellNodes
    else do
      let vs ← total (g.resolve e.nodes)
      let c ← (Vector.finRange (cornerCount d)).mapM fun v : Corner d =>
        entry vs (nodePlace v)
      return { g with cells := g.cells.push c }
  else total (g.addElement e)

theorem strictNode_eq [Numeral K] (hd : d ≤ 3) (line : List Char) :
    strictNode (K := K) (d := d) line = total (readNode line) := by
  unfold strictNode readNode
  match fields line with
  | [] => rfl
  | tag :: coordinates =>
    have hlength : (tag :: coordinates).length = coordinates.length + 1 := rfl
    by_cases hshort : coordinates.length < 3
    · have hwords : (tag :: coordinates).length < 4 := by omega
      simp only [hshort, hwords, if_true]
      rfl
    · have hwords : ¬(tag :: coordinates).length < 4 := by omega
      have hcoordinate (a : Fin d) : (entry (tag :: coordinates) (1 + a.val) >>= fun w =>
          total (scalar (K := K) .coordinate w)) =
            total (scalar .coordinate (coordinates.getD a [])) := by
        rw [Nat.add_comm, entry_eq_getD (by omega) [], ok_bind, List.getD_cons_succ]
      have hmap : (Vector.finRange d).map (fun a : Fin d => coordinates.getD a []) =
          Vector.ofFn fun a : Fin d => coordinates.getD a [] := by
        refine Vector.ext fun a ha => ?_
        rw [Vector.getElem_map, Vector.getElem_ofFn, Vector.getElem_finRange]
      simp only [hshort, hwords, if_false]
      rw [← hmap]
      simp only [Vector.mapM_map, Function.comp_def]
      rw [entry_eq (a := tag) rfl, ok_bind]
      simp only [hcoordinate, mapM_total_vector]
      rw [← total_bind]
      refine bind_congr fun t => ?_
      rw [← total_bind]
      rfl

theorem strictElement_eq (line : List Char) :
    strictElement (K := K) line = total (readElement line) := by
  unfold strictElement readElement
  rw [← total_bind]
  refine bind_congr fun numbers => ?_
  match numbers with
  | [] | [_] | [_, _] => rfl
  | number :: type :: count :: rest =>
    have hlength : (number :: type :: count :: rest).length = rest.length + 3 := rfl
    rw [if_neg (by omega), entry_eq (a := type) rfl, ok_bind]
    show _ = total (if halfWordBound ≤ type then _ else if rest.length < count then _ else _)
    by_cases htype : halfWordBound ≤ type
    · rw [if_pos htype, if_pos htype]
      rfl
    rw [if_neg htype, if_neg htype, entry_eq (a := count) rfl, ok_bind]
    by_cases hcount : rest.length < count
    · rw [if_pos hcount, if_pos (by omega)]
      rfl
    rw [if_neg hcount, if_neg (by omega), suffix_eq (by omega)]
    cases count with
    | zero => rfl
    | succ count =>
      cases rest with
      | nil => exact absurd (Nat.succ_pos count) hcount
      | cons tag rest =>
        rw [if_pos (by omega), entry_eq (a := tag) rfl]
        rfl

theorem strictAddElement_eq (g : Gathered K d) (e : Element) :
    strictAddElement g e = total (g.addElement e) := by
  unfold strictAddElement
  by_cases htype : e.type = cellType d
  · rw [if_pos htype, Gathered.addElement, if_pos htype]
    by_cases hcount : e.nodes.length = cornerCount d
    · rw [if_neg (not_not.mpr hcount), if_neg (not_not.mpr hcount)]
      cases hvs : g.resolve e.nodes with
      | error f => rfl
      | ok vs =>
        have hlength : vs.length = cornerCount d :=
          (Gathered.length_found (Gathered.resolve_eq_ok_iff.mp hvs)).trans hcount
        have hplace (v : Corner d) : nodePlace v < vs.length := by
          rw [hlength]
          exact nodePlace_lt v
        rw [ok_bind, mapM_entry hplace 0]
        rfl
    · rw [if_pos hcount, if_pos hcount]
      rfl
  · rw [if_neg htype]

/-! ## The mesh -/

section Mesh

variable [Scalar K]

def strictEdge {ε : Type} (corners : List (Point K d)) (axis i : Nat) : Strict ε K := do
  entry ((← entry corners (Nat.pow 2 axis)) - (← entry corners 0)).coords.toList i

def strictOrientation {ε : Type} (corners : List (Point K d)) : Strict ε K :=
  let edge := strictEdge corners
  match d with
  | 1 => edge 0 0
  | 2 => return (← edge 0 0) * (← edge 1 1) - (← edge 0 1) * (← edge 1 0)
  | 3 =>
    return (← edge 0 0) * ((← edge 1 1) * (← edge 2 2) - (← edge 1 2) * (← edge 2 1))
      - (← edge 0 1) * ((← edge 1 0) * (← edge 2 2) - (← edge 1 2) * (← edge 2 0))
      + (← edge 0 2) * ((← edge 1 0) * (← edge 2 1) - (← edge 1 1) * (← edge 2 0))
  | _ => return ((0 : Nat) : K)

/-- The entries of a cell with its halves exchanged if it is turned inside out. -/
def strictOriented {ε : Type} (vertices : Array (Point K d)) (c : Cell d) :
    Strict ε (List Nat) := do
  let corners ← c.toList.mapM (entry vertices.toList)
  if (← strictOrientation corners) < ((0 : Nat) : K) then swapHalves c.toList
  else return c.toList

def strictMesh (g : Gathered K d) : Strict (Fault K) (Mesh K d) := do
  let cells ← g.cells.toList.mapM (strictOriented g.vertices)
  let m ← total (Mesh.ofCells g.vertices cells)
  return g.faces.toList.foldl (fun m f => m.setIndicator f.1 f.2) m

theorem strictEdge_eq {ε : Type} (corners : Vector (Point K d) (cornerCount d)) {axis i : Nat}
    (haxis : axis < d) (hi : i < d) :
    (strictEdge corners.toList axis i : Strict ε K) =
      total (.ok ((((corners[Nat.pow 2 axis]?).getD Point.origin -
        (corners[0]?).getD Point.origin).coords[i]?).getD ((0 : Nat) : K))) := by
  have hcorner {v : Nat} (hv : v < cornerCount d) :
      (entry corners.toList v : Strict ε (Point K d)) =
        total (.ok ((corners[v]?).getD Point.origin)) := by
    have hlist : corners.toList[v]? = some corners[v] := by
      rw [Vector.getElem?_toList, Vector.getElem?_eq_getElem hv]
    rw [entry_eq hlist, Vector.getElem?_eq_getElem hv, Option.getD_some]
  have haxis : Nat.pow 2 axis < cornerCount d := Nat.pow_lt_pow_right (by decide) haxis
  rw [strictEdge, hcorner haxis, ok_bind, hcorner (Nat.two_pow_pos d), ok_bind]
  generalize ((corners[Nat.pow 2 axis]?).getD Point.origin -
    (corners[0]?).getD Point.origin).coords = coords
  have hlist : coords.toList[i]? = some coords[i] := by
    rw [Vector.getElem?_toList, Vector.getElem?_eq_getElem hi]
  rw [entry_eq hlist, Vector.getElem?_eq_getElem hi, Option.getD_some]

theorem strictOrientation_eq {ε : Type} (corners : Vector (Point K d) (cornerCount d)) :
    (strictOrientation corners.toList : Strict ε K) = total (.ok (Cell.orientation corners)) := by
  match d, corners with
  | 0, _ => rfl
  | 1, corners => exact strictEdge_eq corners (by decide) (by decide)
  | 2, corners =>
    simp only [strictOrientation, strictEdge_eq corners, Nat.reduceLT, ok_bind]
    rfl
  | 3, corners =>
    simp only [strictOrientation, strictEdge_eq corners, Nat.reduceLT, ok_bind]
    rfl
  | _ + 4, _ => rfl

theorem strictOriented_eq {ε : Type} (hd : 0 < d) {vertices : Array (Point K d)} {c : Cell d}
    (h : ∀ v ∈ c.toList, v < vertices.size) :
    (strictOriented vertices c : Strict ε (List Nat)) =
      total (.ok (Gathered.oriented vertices c).toList) := by
  have hcorners : (c.toList.mapM (entry vertices.toList) : Strict ε (List (Point K d))) =
      total (.ok (Mesh.cornerPoints { vertices } c).toList) :=
    Mesh.strictCorners_eq (m := { vertices }) h
  rw [strictOriented, hcorners, ok_bind,
    strictOrientation_eq, ok_bind, Gathered.oriented]
  split
  · rw [Cell.toList_across hd, swapHalves]
    simp only [Vector.length_toList, half_add_half hd, if_true]
    rfl
  · rfl

theorem strictMesh_eq (hd : 0 < d ∧ d ≤ 3) {g : Gathered K d} (h : g.Valid) :
    strictMesh g = total (.ok g.mesh) := by
  have horiented (c : Cell d) (hc : c ∈ g.cells.toList) :
      (strictOriented g.vertices c : Strict (Fault K) (List Nat)) =
        total (.ok (Gathered.oriented g.vertices c).toList) :=
    strictOriented_eq hd.1 (h.cell_lt c (Array.mem_toList_iff.mp hc))
  have hcells : Mesh.ofCells g.vertices
      (g.cells.toList.map fun c => (Gathered.oriented g.vertices c).toList) =
        .ok
          { vertices := g.vertices
            cells := g.cells.toList.map (Gathered.oriented g.vertices) } := by
    refine Mesh.ofCells_eq_ok_iff.mpr ⟨hd, rfl, List.map_map, fun vs hvs v hv => ?_⟩
    obtain ⟨c, hc, rfl⟩ := List.mem_map.mp hvs
    exact h.cell_lt c (Array.mem_toList_iff.mp hc) v (mem_oriented hv)
  rw [strictMesh, mapM_of_total horiented, ok_bind, hcells, ok_bind, foldl_setIndicator,
    Gathered.mesh_eq]
  rfl

end Mesh

/-! ## Lines -/

def strictOpening (g : Gathered K d) (line : List Char) : Strict (LineFault K) (Gathered K d) :=
  let word := trim line
  if word = "$MeshFormat".toList then return { g with mode := .format }
  else if word = "$Nodes".toList then return { g with mode := .nodeCount }
  else if word = "$Elements".toList then return { g with mode := .elementCount }
  else if "$".toList.isPrefixOf word && !"$End".toList.isPrefixOf word then do
    let name ← suffix word 1
    return { g with mode := .closing ("$End".toList ++ name) }
  else if word.isEmpty then return g
  else throw (.unexpected (String.ofList line))

theorem strictOpening_eq (g : Gathered K d) (line : List Char) :
    strictOpening g line = total (g.opening line) := by
  have hname : "$".toList.isPrefixOf (trim line) = true →
      (suffix (trim line) 1 : Strict (LineFault K) (List Char)) =
        total (.ok (trim line).tail) := by
    intro h
    cases hword : trim line with
    | nil => rw [hword] at h; cases h
    | cons c rest => rfl
  unfold strictOpening Gathered.opening
  dsimp only
  split
  · rfl
  split
  · rfl
  split
  · rfl
  split
  next h =>
    rw [hname (Bool.and_eq_true_iff.mp h).1]
    rfl
  split <;> rfl

variable [Scalar K] [Numeral K]

def strictReadLine (g : Gathered K d) (line : List Char) : Strict (LineFault K) (Gathered K d) :=
  match g.mode with
  | .outside => strictOpening g line
  | .node more => do
    let (tag, p) ← strictNode line
    return (g.addNode tag p).nodesLeft more
  | .element more => do
    let e ← strictElement line
    let g ← strictAddElement g e
    return g.elementsLeft more
  | _ => total (g.readLine line)

def strictStep (g : Gathered K d) (numbered : Line × Nat) : Strict (Fault K) (Gathered K d) :=
  match numbered with
  | (none, _) => throw (.unreadable "stream did not contain valid UTF-8")
  | (some line, number) => (strictReadLine g line).adapt (Fault.line number)

theorem strictReadLine_eq (hd : d ≤ 3) (g : Gathered K d) (line : List Char) :
    strictReadLine g line = total (g.readLine line) := by
  unfold strictReadLine
  cases hmode : g.mode with
  | outside =>
    rw [Gathered.readLine, hmode]
    exact strictOpening_eq g line
  | node more =>
    rw [Gathered.readLine, hmode]
    dsimp only
    rw [strictNode_eq hd, ← total_bind]
    rfl
  | element more =>
    rw [Gathered.readLine, hmode]
    dsimp only
    rw [strictElement_eq, ← total_bind]
    refine bind_congr fun e => ?_
    rw [strictAddElement_eq, ← total_bind]
    rfl
  | format | closing | nodeCount | elementCount => rfl

theorem strictStep_eq (hd : d ≤ 3) (g : Gathered K d) (numbered : Line × Nat) :
    strictStep g numbered = total (g.step numbered) := by
  obtain ⟨line, number⟩ := numbered
  cases line with
  | none => rfl
  | some text =>
    rw [strictStep, strictReadLine_eq hd, Gathered.step]
    cases g.readLine text <;> rfl

def strictRead (d : Nat) (bytes : List UInt8) : Strict (Fault K) (Mesh K d) := do
  let lines := Line.ofBytes bytes
  if d ≠ 2 ∧ d ≠ 3 then throw (.fileDimension d)
  let g ← (lines.zipIdx 1).foldlM strictStep ({} : Gathered K d)
  if let some fault := g.missing? then throw (.line lines.length fault)
  if !g.formatSeen then throw (.line 0 .missingFormat)
  if g.cells.isEmpty then throw .noCells
  strictMesh g

/-- Strict reading is reading: it never accesses a list outside its range, and the final check
of the cells never fails. -/
theorem strictRead_eq (hd : d = 2 ∨ d = 3) (bytes : List UInt8) :
    strictRead (K := K) d bytes = total (read d bytes) := by
  have hdim : ¬(d ≠ 2 ∧ d ≠ 3) := by omega
  have hstep : strictStep (K := K) (d := d) = fun g numbered => total (g.step numbered) :=
    funext fun g => funext fun numbered => strictStep_eq (by omega) g numbered
  rw [strictRead, if_neg hdim, hstep, read, readLines_eq hd]
  show ((Line.ofBytes bytes).zipIdx 1).foldlM _ _ >>= _ = _
  rw [foldlM_total, ← total_bind]
  show total (scan d (Line.ofBytes bytes)) >>= _ = _
  cases hscan : scan (K := K) d (Line.ofBytes bytes) with
  | error f => rfl
  | ok g =>
    rw [ok_bind, strictMesh_eq (by omega) (scan_valid hscan).1]
    show _ = total (g.finish _)
    rw [Gathered.finish]
    cases g.missing? with
    | some f => rfl
    | none =>
      cases g.formatSeen with
      | false => rfl
      | true =>
        cases hempty : g.cells.isEmpty <;> rfl

end Msh
end HexMesh
