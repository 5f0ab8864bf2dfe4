import Mathlib.Data.List.Nodup
import Mathlib.Order.Lattice
import HexMesh.Number.Binary64
import HexMesh.Picture.Eps
import HexMesh.Proofs.Mesh.Exchange
import HexMesh.Proofs.Text.Numerals

/-!
The lines of a drawing.

A drawing has one line for each pair of vertices that an edge of some cell joins.  Edges come
out of a set of keys, so that the pairs are distinct and in ascending order however the cells
count their corners.  Whether a line is red is decided by the keys of faces, which are found
separately; in the plane both kinds of keys are the same ascending pairs.

The frame is not opened here.  All that is said about coordinates is that each line has numerals
for those of its two vertices, and so every arithmetic will do.
-/

namespace HexMesh

open HexMesh.Cube

namespace Mesh

variable {K : Type} {d : Nat} {m : Mesh K d} {a b : Nat}

/-! ## Edges -/

/-- An edge of some cell joins the two vertices. -/
def Joins (m : Mesh K d) (a b : Nat) : Prop :=
  ∃ c ∈ m.cells, ∃ (v : Corner d) (axis : Fin d), c.get v = a ∧ c.get (v.flip axis) = b

theorem mem_edges : (a, b) ∈ m.edges ↔ [a, b] ∈ m.cells.flatMap Cell.edgeKeys := by
  have hset (k : Key) :
      k ∈ ((m.cells.flatMap Cell.edgeKeys).foldl (·.insert ·) (∅ : Std.ExtTreeSet Key)).toList ↔
        k ∈ m.cells.flatMap Cell.edgeKeys := by
    rw [Std.ExtTreeSet.mem_toList, mem_foldl_insert]
    simp
  rw [← hset]
  refine List.mem_filterMap.trans ⟨fun h => ?_, fun h => ⟨_, h, rfl⟩⟩
  obtain ⟨k, hk, hpair⟩ := h
  split at hpair
  · cases hpair
    exact hk
  · cases hpair

theorem mem_edges_iff_joins : (a, b) ∈ m.edges ↔ a ≤ b ∧ m.Joins a b := by
  rw [mem_edges, List.mem_flatMap]
  constructor
  · intro h
    obtain ⟨c, hc, hkey⟩ := h
    obtain ⟨v, axis, hpair⟩ := Cell.mem_edgeKeys_iff_flip.mp hkey
    cases hpair
    refine ⟨by omega, c, hc, ?_⟩
    -- The lower of the two vertices may be at either end of the edge.
    rcases le_total (c.get v) (c.get (v.flip axis)) with hle | hle
    · exact ⟨v, axis, (min_eq_left hle).symm, (max_eq_right hle).symm⟩
    · refine ⟨v.flip axis, axis, (min_eq_right hle).symm, ?_⟩
      rw [Corner.flip_flip, max_eq_left hle]
  · intro h
    obtain ⟨hle, c, hc, v, axis, rfl, rfl⟩ := h
    refine ⟨c, hc, Cell.mem_edgeKeys_iff_flip.mpr ⟨v, axis, ?_⟩⟩
    rw [min_eq_left hle, max_eq_right hle]

theorem edges_ne_nil (hd : 0 < d) (hm : m.cells ≠ []) : m.edges ≠ [] := by
  obtain ⟨c, hc⟩ := List.exists_mem_of_ne_nil _ hm
  have hkey := (Cell.mem_edgeKeys_iff_flip (c := c)).mpr ⟨Corner.low d, ⟨0, hd⟩, rfl⟩
  exact List.ne_nil_of_mem (mem_edges.mpr (List.mem_flatMap.mpr ⟨c, hc, hkey⟩))

/-- The edges are listed in ascending order, the first vertex counting first. -/
theorem pairwise_edges (m : Mesh K d) :
    m.edges.Pairwise fun e f => e.1 < f.1 ∨ e.1 = f.1 ∧ e.2 < f.2 := by
  refine List.pairwise_filterMap.mpr (Std.ExtTreeSet.ordered_toList.imp ?_)
  intro k l hlt e he f hf
  split at he
  case h_1 =>
    cases he
    split at hf
    case h_1 =>
      cases hf
      simpa [Ordering.then_eq_lt, Nat.compare_eq_lt] using hlt
    case h_2 => cases hf
  case h_2 => cases he

theorem nodup_edges (m : Mesh K d) : m.edges.Nodup :=
  m.pairwise_edges.imp fun h he => by
    subst he
    omega

theorem exists_cell_of_mem_edges (h : (a, b) ∈ m.edges) :
    ∃ c ∈ m.cells, a ∈ c.toList ∧ b ∈ c.toList := by
  obtain ⟨-, c, hc, v, axis, rfl, rfl⟩ := mem_edges_iff_joins.mp h
  exact ⟨c, hc, c.get_mem v, c.get_mem _⟩

theorem CellsValid.lt_of_mem_edges (hm : m.CellsValid) (h : (a, b) ∈ m.edges) :
    a < m.vertices.size ∧ b < m.vertices.size := by
  obtain ⟨c, hc, ha, hb⟩ := exists_cell_of_mem_edges h
  exact ⟨hm c hc a ha, hm c hc b hb⟩

/-! ## Red edges -/

theorem mem_redEdges {style : Style K} {k : Key} :
    k ∈ m.redEdges style ↔ style.colorBoundary = true ∧ d = 2 ∧ ∃ r, m.IsOuter r k := by
  unfold redEdges
  by_cases hasked : (style.colorBoundary && d == 2) = true
  · rw [if_pos hasked, mem_foldl_insert]
    simp only [Bool.and_eq_true, beq_iff_eq] at hasked
    simp [hasked, mem_outerFaces]
  · rw [if_neg hasked]
    simp only [Bool.and_eq_true, beq_iff_eq, not_and] at hasked
    simp only [Std.ExtTreeSet.not_mem_empty, false_iff, not_and]
    exact fun hcolor hd => absurd hd (hasked hcolor)

end Mesh

/-! ## Drawings -/

theorem Stroke.line_eq {K : Type} [Numeral K] (s : Stroke K) : s.line = s!"{s.ink.command} " ++
    s!"{Numeral.fixed 3 s.start.abscissa} {Numeral.fixed 3 s.start.ordinate} m " ++
    s!"{Numeral.fixed 3 s.stop.abscissa} {Numeral.fixed 3 s.stop.ordinate} x" := by
  have htext (t : String) : toString t = t := rfl
  simp only [Stroke.line, Point.written, htext, String.append_assoc]

variable {K : Type} [Scalar K] [Transcendental K]

/-- The view from the direction that the style asks for. -/
def Style.view (style : Style K) : View K := View.ofAngles style.azimuth style.turn

namespace Mesh

variable {d : Nat}

/-- Where a vertex is drawn, before the drawing is fitted into the picture. -/
def spot (m : Mesh K d) (style : Style K) (v : Nat) : Point K 2 :=
  ((m.vertices.map (drawn style.view))[v]?).getD Point.origin

theorem spot_eq {m : Mesh K d} {v : Nat} {p : Point K d} (h : m.vertices[v]? = some p)
    (style : Style K) : m.spot style v = drawn style.view p := by
  rw [spot, Array.getElem?_map, h]
  rfl

/-- Both ends of every edge. -/
def spots (m : Mesh K d) (style : Style K) : List (Point K 2) :=
  m.edges.flatMap fun e => [m.spot style e.1, m.spot style e.2]

/-- An edge in the picture. -/
def strokeOf (m : Mesh K d) (style : Style K) (fit : Fit K) (e : Nat × Nat) : Stroke K :=
  { ink := if (m.redEdges style).contains [e.1, e.2] then .red else .black
    start := fit.place (m.spot style e.1)
    stop := fit.place (m.spot style e.2) }

/-- All edges in the picture. -/
def drawing (m : Mesh K d) (style : Style K) (fit : Fit K) : Drawing K :=
  { width := fit.width
    height := fit.height
    lineWidth := style.lineWidth
    strokes := m.edges.map (m.strokeOf style fit) }

/-- A mesh of positive dimension with a cell has an edge, and then it can be drawn. -/
theorem exists_draw_eq {m : Mesh K d} (hd : 0 < d) (hm : m.cells ≠ []) (style : Style K) :
    ∃ frame fit, Frame.ofList? (m.spots style) = some frame ∧
      fit = Fit.ofFrame frame style.size style.side ∧ m.draw style = .ok (m.drawing style fit) := by
  obtain ⟨e, he⟩ := List.exists_mem_of_ne_nil _ (edges_ne_nil hd hm)
  have hspot : m.spot style e.1 ∈ m.spots style := List.mem_flatMap.mpr ⟨e, he, List.mem_cons_self⟩
  have hframe : Frame.ofList? (m.spots style) = some (Frame.empty.expand (m.spots style)) :=
    if_neg fun h => List.ne_nil_of_mem hspot (List.isEmpty_iff.mp h)
  refine ⟨_, _, hframe, rfl, ?_⟩
  have hcells : ¬m.cells.isEmpty = true := fun h => hm (List.isEmpty_iff.mp h)
  have hpoints := hframe
  unfold spots spot Style.view at hpoints
  rw [draw, if_neg hcells]
  dsimp only
  rw [hpoints]
  rfl

/-- A drawing shows the cells and the places of their corners.  Other vertices, and the values
of indicators, are not seen. -/
theorem draw_congr {m m' : Mesh K d} (hd : 0 < d) (hm : m.cells ≠ []) (hcells : m'.cells = m.cells)
    (hvertices : ∀ c ∈ m.cells, ∀ v ∈ c.toList, m'.vertices[v]? = m.vertices[v]?)
    (style : Style K) : m'.draw style = m.draw style := by
  have hedges : m'.edges = m.edges := edges_congr fun k => by rw [hcells]
  have hred : m'.redEdges style = m.redEdges style := by
    simp only [redEdges, outerFaces, owners, faces, hcells]
  have hspot : ∀ e ∈ m.edges, m'.spot style e.1 = m.spot style e.1 ∧
      m'.spot style e.2 = m.spot style e.2 := by
    intro e he
    obtain ⟨c, hc, ha, hb⟩ := exists_cell_of_mem_edges he
    simp only [spot, Array.getElem?_map, hvertices c hc _ ha, hvertices c hc _ hb, and_self]
  have hspots : m'.spots style = m.spots style := by
    rw [spots, spots, hedges]
    exact List.flatMap_congr fun e he => by rw [(hspot e he).1, (hspot e he).2]
  obtain ⟨frame, fit, hframe, hfit, hdraw⟩ := exists_draw_eq hd hm style
  obtain ⟨frame', fit', hframe', hfit', hdraw'⟩ := exists_draw_eq hd (hcells ▸ hm) style
  cases hframe.symm.trans (hspots ▸ hframe')
  subst hfit hfit'
  rw [hdraw, hdraw', drawing, drawing, hedges]
  congr 2
  refine List.map_congr_left fun e he => ?_
  rw [strokeOf, strokeOf, hred, (hspot e he).1, (hspot e he).2]

variable [Numeral K]

omit [Transcendental K] in
/-- What a file says before and after the lines of its strokes. -/
theorem exists_text_eq (g : Drawing K) : ∃ head : List String, head.length = 10 ∧
    g.text = String.join ((head ++ [s!"{Numeral.text g.lineWidth} setlinewidth"] ++
      g.strokes.map Stroke.line ++ ["showpage", "%%EOF"]).map (· ++ "\n")) :=
  ⟨g.lines.take 10, rfl, rfl⟩

/-- What the line of an edge says: the color, then where the two vertices lie in the picture,
the lower vertex first.  Coordinates are rounded to three decimal places. -/
structure IsLine (m : Mesh K d) (style : Style K) (fit : Fit K) (e : Nat × Nat)
    (line : String) : Prop where
  text : ∃ (p q : Point K d) (start stop : Point K 2) (color a b u v : String),
    m.vertices[e.1]? = some p ∧ m.vertices[e.2]? = some q ∧
      start = fit.place (drawn style.view p) ∧ stop = fit.place (drawn style.view q) ∧
      (color = "b" ∨ color = "r") ∧
      (Numeral.rounded 3 start.abscissa).Prints a ∧ (Numeral.rounded 3 start.ordinate).Prints b ∧
      (Numeral.rounded 3 stop.abscissa).Prints u ∧ (Numeral.rounded 3 stop.ordinate).Prints v ∧
      line = s!"{color} {a} {b} m {u} {v} x"
  red : line.toList.head? = some 'r' ↔
    style.colorBoundary = true ∧ d = 2 ∧ ∃ r, m.IsOuter r [e.1, e.2]

omit [Scalar K] [Transcendental K] in
theorem head?_line (s : Stroke K) : s.line.toList.head? = s.ink.command.toList.head? := by
  cases hink : s.ink <;> simp [Stroke.line, hink, Ink.command] <;> exact Or.inl rfl

theorem isLine_strokeOf {m : Mesh K d} (hm : m.CellsValid) (style : Style K) (fit : Fit K)
    {e : Nat × Nat} (he : e ∈ m.edges) :
    m.IsLine style fit e (m.strokeOf style fit e).line := by
  obtain ⟨ha, hb⟩ := hm.lt_of_mem_edges he
  have hp := Array.getElem?_eq_getElem ha
  have hq := Array.getElem?_eq_getElem hb
  refine ⟨⟨_, _, _, _, (m.strokeOf style fit e).ink.command, _, _, _, _, hp, hq, rfl, rfl, ?_,
    Decimal.prints_text _, Decimal.prints_text _, Decimal.prints_text _, Decimal.prints_text _,
    ?_⟩, ?_⟩
  · cases (m.strokeOf style fit e).ink with
    | black => exact .inl rfl
    | red => exact .inr rfl
  · rw [← spot_eq hp, ← spot_eq hq, Stroke.line_eq]
    simp [strokeOf, Numeral.fixed, String.append_assoc]
  · rw [head?_line, ← mem_redEdges, ← Std.ExtTreeSet.contains_iff_mem]
    cases hred : (m.redEdges style).contains [e.1, e.2] <;> simp [strokeOf, hred, Ink.command]

/-- What the file of a picture says: after ten lines the width of the strokes, then the lines of
the edges, in the order of the edges, and then that the page is complete. -/
def IsPicture (m : Mesh K d) (style : Style K) (text : String) : Prop :=
  ∃ (frame : Frame K) (head lines : List String),
    text = String.join ((head ++ [s!"{Numeral.text style.lineWidth} setlinewidth"] ++ lines ++
      ["showpage", "%%EOF"]).map (· ++ "\n")) ∧
    head.length = 10 ∧
    Frame.ofList? (m.spots style) = some frame ∧
    List.Forall₂ (m.IsLine style (Fit.ofFrame frame style.size style.side)) m.edges lines

/-- Drawing a mesh with a cell gives a picture of it, whatever the style. -/
theorem exists_draw_isPicture {m : Mesh K d} (hd : 0 < d) (hm : m.CellsValid)
    (hcells : m.cells ≠ []) (style : Style K) :
    ∃ g, m.draw style = .ok g ∧ m.IsPicture style g.text := by
  obtain ⟨frame, fit, hframe, hfit, hdraw⟩ := exists_draw_eq hd hcells style
  obtain ⟨head, hhead, htext⟩ := exists_text_eq (m.drawing style fit)
  rw [drawing, List.map_map] at htext
  subst hfit
  refine ⟨_, hdraw, frame, head, _, htext, hhead, hframe, ?_⟩
  rw [List.forall₂_map_right_iff, List.forall₂_same]
  exact fun e he => isLine_strokeOf hm style _ he

end Mesh
end HexMesh
