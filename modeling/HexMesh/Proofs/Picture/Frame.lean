import Mathlib.Tactic.NormNum
import HexMesh.Proofs.Mesh.Fault
import HexMesh.Proofs.Number.Rounding
import HexMesh.Proofs.Picture.Lines

/-!
The place of a drawing in its picture.

A frame is widened point by point, from one that holds nothing.  What every point keeps is that
the frame holds the points so far and that there is one of them on each of its sides; the first
point brings this about, if no coordinate is beyond the largest one a frame starts from.
Fitting moves the low corner to the origin and stretches both axes by one factor, and so the
picture has its points on all four sides as well, also where the drawing is flat.

The bounding box has whole sides, and they are kept within 64 signed bits.  So it holds the
picture as long as no side of this is above the largest such integer.
-/

namespace HexMesh

/-! ## Sides -/

section Sides

variable {K : Type}

/-- The coordinate along the axis that a side is parallel to. -/
def Point.along (p : Point K 2) : Side → K
  | .width => p.abscissa
  | .height => p.ordinate

end Sides

variable {K : Type} [Field K] [LinearOrder K]

namespace Frame

/-- The frame holds all the points, and each of its sides has one of them. -/
structure Around (f : Frame K) (ps : List (Point K 2)) : Prop where
  low_le : ∀ p ∈ ps, ∀ s, f.low.along s ≤ p.along s
  le_high : ∀ p ∈ ps, ∀ s, p.along s ≤ f.high.along s
  exists_low : ∀ s, ∃ p ∈ ps, p.along s = f.low.along s
  exists_high : ∀ s, ∃ p ∈ ps, p.along s = f.high.along s

theorem along_low_enclose (f : Frame K) (p : Point K 2) (s : Side) :
    (f.enclose p).low.along s = min (f.low.along s) (p.along s) := by cases s <;> rfl

theorem along_high_enclose (f : Frame K) (p : Point K 2) (s : Side) :
    (f.enclose p).high.along s = max (f.high.along s) (p.along s) := by cases s <;> rfl

theorem along_low_empty (s : Side) : (empty : Frame K).low.along s = Scalar.largest := by
  cases s <;> rfl

theorem along_high_empty (s : Side) : (empty : Frame K).high.along s = -Scalar.largest := by
  cases s <;> rfl

/-- The first point has the frame for itself, if it is within the largest numbers. -/
theorem around_enclose_empty [IsStrictOrderedRing K] {p : Point K 2}
    (hp : ∀ s, |p.along s| ≤ Scalar.largest) :
    (empty.enclose p).Around [p] := by
  have hlow (s : Side) : (empty.enclose p).low.along s = p.along s := by
    rw [along_low_enclose, along_low_empty, min_eq_right (le_of_abs_le (hp s))]
  have hhigh (s : Side) : (empty.enclose p).high.along s = p.along s := by
    rw [along_high_enclose, along_high_empty, max_eq_right (neg_le_of_abs_le (hp s))]
  have hself : p ∈ [p] := List.mem_singleton_self p
  refine ⟨fun q hq s => ?_, fun q hq s => ?_, fun s => ⟨p, hself, (hlow s).symm⟩,
    fun s => ⟨p, hself, (hhigh s).symm⟩⟩
  · rw [List.mem_singleton.mp hq, hlow]
  · rw [List.mem_singleton.mp hq, hhigh]

/-- One more point widens the frame up to itself, or not at all. -/
theorem Around.enclose {f : Frame K} {ps : List (Point K 2)} (h : f.Around ps) (p : Point K 2) :
    (f.enclose p).Around (ps ++ [p]) := by
  have hlast : p ∈ ps ++ [p] := List.mem_append_right ps (List.mem_singleton_self p)
  refine ⟨fun q hq s => ?_, fun q hq s => ?_, fun s => ?_, fun s => ?_⟩
  · rw [along_low_enclose]
    rcases List.mem_append.mp hq with hq | hq
    · exact (min_le_left _ _).trans (h.low_le q hq s)
    · rw [List.mem_singleton.mp hq]
      exact min_le_right _ _
  · rw [along_high_enclose]
    rcases List.mem_append.mp hq with hq | hq
    · exact (h.le_high q hq s).trans (le_max_left _ _)
    · rw [List.mem_singleton.mp hq]
      exact le_max_right _ _
  · rw [along_low_enclose]
    rcases min_choice (f.low.along s) (p.along s) with hmin | hmin <;> rw [hmin]
    · obtain ⟨q, hq, hside⟩ := h.exists_low s
      exact ⟨q, List.mem_append_left _ hq, hside⟩
    · exact ⟨p, hlast, rfl⟩
  · rw [along_high_enclose]
    rcases max_choice (f.high.along s) (p.along s) with hmax | hmax <;> rw [hmax]
    · obtain ⟨q, hq, hside⟩ := h.exists_high s
      exact ⟨q, List.mem_append_left _ hq, hside⟩
    · exact ⟨p, hlast, rfl⟩

theorem Around.expand {f : Frame K} {ps : List (Point K 2)} (h : f.Around ps)
    (qs : List (Point K 2)) : (f.expand qs).Around (ps ++ qs) := by
  induction qs generalizing f ps with
  | nil => exact (List.append_nil ps).symm ▸ h
  | cons q rest ih =>
    have hrest := ih (h.enclose q)
    rw [List.append_assoc, List.singleton_append] at hrest
    exact hrest

theorem around_of_ofList? [IsStrictOrderedRing K] {ps : List (Point K 2)} {f : Frame K}
    (h : ofList? ps = some f) (hps : ∀ p ∈ ps, ∀ s, |p.along s| ≤ Scalar.largest) :
    f.Around ps := by
  cases ps with
  | nil => cases h
  | cons p rest =>
    cases h
    exact (around_enclose_empty (hps p List.mem_cons_self)).expand rest

theorem extent_eq (f : Frame K) (s : Side) : f.extent s = f.high.along s - f.low.along s := by
  cases s <;> rfl

/-- Points that differ along a side stretch the frame along it. -/
theorem Around.extent_pos [IsStrictOrderedRing K] {f : Frame K} {ps : List (Point K 2)}
    (h : f.Around ps) {p q : Point K 2} (hp : p ∈ ps) (hq : q ∈ ps) {s : Side}
    (hne : p.along s ≠ q.along s) : 0 < f.extent s := by
  rw [extent_eq, sub_pos]
  rcases lt_or_gt_of_ne hne with hlt | hlt
  · exact (h.low_le p hp s).trans_lt (hlt.trans_le (h.le_high q hq s))
  · exact (h.low_le q hq s).trans_lt (hlt.trans_le (h.le_high p hp s))

end Frame

/-! ## The picture -/

namespace Fit

variable {f : Frame K} {size : K} {side : Side}

/-- The picture that a drawing is fitted into. -/
def picture (t : Fit K) : Frame K := { low := .xy 0 0, high := .xy t.width t.height }

omit [LinearOrder K] in
theorem along_low_picture (t : Fit K) (s : Side) : t.picture.low.along s = 0 := by
  cases s <;> rfl

theorem along_high_picture (s : Side) : (ofFrame f size side).picture.high.along s =
    (f.high.along s - f.low.along s) * (ofFrame f size side).factor := by cases s <;> rfl

/-- A place in the picture is the distance from the low corner, stretched. -/
theorem place_eq (p : Point K 2) : (ofFrame f size side).place p =
    .xy ((p.abscissa - f.low.abscissa) * (ofFrame f size side).factor)
      ((p.ordinate - f.low.ordinate) * (ofFrame f size side).factor) := by
  have hshift (x low factor : K) : x * factor + -low * factor = (x - low) * factor := by ring
  rw [← hshift, ← hshift]
  rfl

theorem along_place (p : Point K 2) (s : Side) : ((ofFrame f size side).place p).along s =
    (p.along s - f.low.along s) * (ofFrame f size side).factor := by
  rw [place_eq]
  cases s <;> rfl

theorem factor_ofFrame (f : Frame K) (size : K) (side : Side) : (ofFrame f size side).factor =
    if 0 < f.extent side then size / f.extent side else 1 := by
  show (if ((0 : Nat) : K) < f.extent side then _ else ((1 : Nat) : K)) = _
  rw [Nat.cast_zero, Nat.cast_one]

theorem factor_pos [IsStrictOrderedRing K] (hsize : 0 < size) :
    0 < (ofFrame f size side).factor := by
  rw [factor_ofFrame]
  split
  case isTrue hextent => exact div_pos hsize hextent
  case isFalse => exact one_pos

/-- The chosen side has the size that was asked for, unless the drawing is flat along it. -/
theorem along_high_picture_side (hextent : 0 < f.extent side) :
    (ofFrame f size side).picture.high.along side = size := by
  rw [along_high_picture, ← Frame.extent_eq, factor_ofFrame, if_pos hextent,
    mul_div_cancel₀ _ hextent.ne']

/-- Fitting a drawing carries its frame to the picture. -/
theorem around_picture [IsStrictOrderedRing K] {ps : List (Point K 2)} (h : f.Around ps)
    (hsize : 0 < size) :
    (ofFrame f size side).picture.Around (ps.map (ofFrame f size side).place) := by
  have hfactor : 0 < (ofFrame f size side).factor := factor_pos hsize
  refine ⟨fun q hq s => ?_, fun q hq s => ?_, fun s => ?_, fun s => ?_⟩
  · obtain ⟨p, hp, rfl⟩ := List.mem_map.mp hq
    rw [along_low_picture, along_place]
    exact mul_nonneg (sub_nonneg.mpr (h.low_le p hp s)) hfactor.le
  · obtain ⟨p, hp, rfl⟩ := List.mem_map.mp hq
    rw [along_high_picture, along_place]
    exact mul_le_mul_of_nonneg_right (sub_le_sub_right (h.le_high p hp s) _) hfactor.le
  · obtain ⟨p, hp, hside⟩ := h.exists_low s
    refine ⟨_, List.mem_map_of_mem hp, ?_⟩
    rw [along_low_picture, along_place, hside, sub_self, zero_mul]
  · obtain ⟨p, hp, hside⟩ := h.exists_high s
    refine ⟨_, List.mem_map_of_mem hp, ?_⟩
    rw [along_high_picture, along_place, hside]

end Fit

/-! ## The printed drawing -/

/-- The numerals with three decimal places of the two coordinates are those of a point in the
box. -/
def Point.PrintsWithin [Numeral K] (p : Point K 2) (width height : Int) : Prop :=
  ∃ a b : K, Decimal.Reads a (Numeral.fixed 3 p.abscissa) ∧
    Decimal.Reads b (Numeral.fixed 3 p.ordinate) ∧
      0 ≤ a ∧ a ≤ (width : K) ∧ 0 ≤ b ∧ b ≤ (height : K)

variable [IsStrictOrderedRing K]

theorem Numeral.exists_fixed_nonneg [Numeral K] [Numeral.RoundsToNearest K] {x side : K}
    (hx : 0 ≤ x) (hside : x ≤ side) (hmax : side ≤ (Scalar.maxInt : K)) :
    ∃ y : K, Decimal.Reads y (Numeral.fixed 3 x) ∧ 0 ≤ y ∧ y ≤ (Scalar.ceiling side : K) := by
  have hceiling : x ≤ (Scalar.ceiling side : K) := hside.trans (Scalar.le_ceilingWithin hmax)
  have hzero : ((0 : Int) : K) ≤ x := by rwa [Int.cast_zero]
  obtain ⟨y, hreads, hlow, hhigh⟩ := exists_fixed_between 3 hzero hceiling
  exact ⟨y, hreads, by rwa [Int.cast_zero] at hlow, hhigh⟩

namespace Drawing

/-- Both ends of every stroke. -/
def ends (g : Drawing K) : List (Point K 2) := g.strokes.flatMap fun s => [s.start, s.stop]

/-- The picture with its lower left corner at the origin. -/
def picture (g : Drawing K) : Frame K := { low := .xy 0 0, high := .xy g.width g.height }

omit [IsStrictOrderedRing K] in
/-- Eleven lines stand before those of the strokes. -/
theorem getElem?_lines [Numeral K] {g : Drawing K} {i : Nat} {s : Stroke K}
    (h : g.strokes[i]? = some s) : g.lines[11 + i]? = some s.line := by
  have hi : i < (g.strokes.map Stroke.line).length := by
    rw [List.length_map]
    exact (List.getElem?_eq_some_iff.mp h).1
  rw [lines, List.append_assoc, List.getElem?_append_right (Nat.le_add_right 11 i)]
  show (g.strokes.map Stroke.line ++ _)[11 + i - 11]? = _
  rw [Nat.add_sub_cancel_left, List.getElem?_append_left hi, List.getElem?_map, h]
  rfl

/-- What lies in the picture is printed within the bounding box, if this is not cut off. -/
theorem printsWithin_ends [Numeral K] [Numeral.RoundsToNearest K] {g : Drawing K}
    (h : g.picture.Around g.ends) (hwidth : g.width ≤ 2 ^ 63 - 1) (hheight : g.height ≤ 2 ^ 63 - 1)
    {p : Point K 2} (hp : p ∈ g.ends) :
    p.PrintsWithin (Scalar.ceiling g.width) (Scalar.ceiling g.height) := by
  have hmax : (Scalar.maxInt : K) = 2 ^ 63 - 1 := by norm_num [Scalar.maxInt]
  obtain ⟨a, ha, hbelow, habove⟩ := Numeral.exists_fixed_nonneg (h.low_le p hp .width)
    (h.le_high p hp .width) (hmax.symm ▸ hwidth)
  obtain ⟨b, hb, hunder, hover⟩ := Numeral.exists_fixed_nonneg (h.low_le p hp .height)
    (h.le_high p hp .height) (hmax.symm ▸ hheight)
  exact ⟨a, b, ha, hb, hbelow, habove, hunder, hover⟩

end Drawing

namespace Mesh

variable {d : Nat} [Transcendental K]

omit [IsStrictOrderedRing K] in
theorem ends_drawing (m : Mesh K d) (style : Style K) (fit : Fit K) :
    (m.drawing style fit).ends = (m.spots style).map fit.place := by
  rw [Drawing.ends, drawing, List.flatMap_map, spots, List.map_flatMap]
  rfl

omit [IsStrictOrderedRing K] in
/-- Every point that is drawn is the place of a corner of some cell. -/
theorem exists_vertex_of_mem_spots {m : Mesh K d} (hm : m.CellsValid) {style : Style K}
    {q : Point K 2} (hq : q ∈ m.spots style) :
    ∃ c ∈ m.cells, ∃ v ∈ c.toList, ∃ p, m.vertices[v]? = some p ∧ drawn style.view p = q := by
  have hspot {c : Cell d} {v : Nat} (hc : c ∈ m.cells) (hv : v ∈ c.toList) :
      ∃ p, m.vertices[v]? = some p ∧ drawn style.view p = m.spot style v := by
    have hp := Array.getElem?_eq_getElem (hm c hc v hv)
    exact ⟨_, hp, (spot_eq hp style).symm⟩
  obtain ⟨e, he, hq⟩ := List.mem_flatMap.mp hq
  obtain ⟨c, hc, ha, hb⟩ := exists_cell_of_mem_edges he
  rcases List.mem_pair.mp hq with rfl | rfl
  · exact ⟨c, hc, _, ha, hspot hc ha⟩
  · exact ⟨c, hc, _, hb, hspot hc hb⟩

/-- How a drawing lies in its picture.  All points are moved by one translation and stretched
by one positive factor, so that they lie in the picture and touch its four sides; the chosen
side has the size that was asked for, unless the drawing is flat along it.  The lines of the file
give the ends of the strokes with three decimal places, and these numerals lie within the printed
bounding box if no side of the picture is above the largest integer of 64 signed bits.  Vertices
that belong to no cell have no part in any of this. -/
theorem draw_fits [Numeral K] [Numeral.RoundsToNearest K] {m : Mesh K d} (hd : 0 < d)
    (hm : m.CellsValid) (hcells : m.cells ≠ []) {style : Style K} (hsize : 0 < style.size)
    (hcoordinates : ∀ c ∈ m.cells, ∀ v ∈ c.toList, ∀ p, m.vertices[v]? = some p →
      ∀ s, |(drawn style.view p).along s| ≤ Scalar.largest) :
    ∃ (g : Drawing K) (low : Point K 2) (factor : K), m.draw style = .ok g ∧ 0 < factor ∧
      g.ends = (m.spots style).map (fun p => .xy ((p.abscissa - low.abscissa) * factor)
        ((p.ordinate - low.ordinate) * factor)) ∧
      g.picture.Around g.ends ∧
      (∀ p ∈ m.spots style, ∀ q ∈ m.spots style, p.along style.side ≠ q.along style.side →
        g.picture.high.along style.side = style.size) ∧
      g.lines[3]? =
        some s!"%%BoundingBox: 0 0 {Scalar.ceiling g.width} {Scalar.ceiling g.height}" ∧
      g.lines.length = g.strokes.length + 13 ∧
      (∀ i s, g.strokes[i]? = some s → g.lines[11 + i]? = some (s!"{s.ink.command} " ++
        s!"{Numeral.fixed 3 s.start.abscissa} {Numeral.fixed 3 s.start.ordinate} m " ++
        s!"{Numeral.fixed 3 s.stop.abscissa} {Numeral.fixed 3 s.stop.ordinate} x")) ∧
      (g.width ≤ 2 ^ 63 - 1 → g.height ≤ 2 ^ 63 - 1 →
        ∀ p ∈ g.ends, p.PrintsWithin (Scalar.ceiling g.width) (Scalar.ceiling g.height)) ∧
      ∀ m' : Mesh K d, m'.cells = m.cells →
        (∀ c ∈ m.cells, ∀ v ∈ c.toList, m'.vertices[v]? = m.vertices[v]?) →
        m'.draw style = .ok g := by
  obtain ⟨frame, fit, hframe, hfit, hdraw⟩ := exists_draw_eq hd hcells style
  have haround : frame.Around (m.spots style) := by
    refine Frame.around_of_ofList? hframe fun q hq => ?_
    obtain ⟨c, hc, v, hv, p, hp, rfl⟩ := exists_vertex_of_mem_spots hm hq
    exact hcoordinates c hc v hv p hp
  have hpicture : (m.drawing style fit).picture.Around (m.drawing style fit).ends := by
    rw [ends_drawing, hfit]
    exact Fit.around_picture haround hsize
  refine ⟨m.drawing style fit, frame.low, fit.factor, hdraw, hfit ▸ Fit.factor_pos hsize, ?_,
    hpicture, ?_, rfl, ?_, fun i s hs => ?_, ?_, ?_⟩
  · rw [ends_drawing, hfit]
    exact List.map_congr_left fun p _ => Fit.place_eq p
  · intro p hp q hq hne
    subst hfit
    exact Fit.along_high_picture_side (haround.extent_pos hp hq hne)
  · simp [Drawing.lines]
  · rw [Drawing.getElem?_lines hs, Stroke.line_eq]
  · intro hwidth hheight p hp
    exact Drawing.printsWithin_ends hpicture hwidth hheight hp
  · intro m' hsame hvertices
    rw [draw_congr hd hcells hsame hvertices style]
    exact hdraw

section Examples

/-- The functions of angles at the angle zero, the only one that the examples ask for. -/
local instance atZero : Transcendental ℚ where
  sin _ := 0
  cos _ := 1
  tanh _ := 0
  atan2 _ _ := 0
  pi := 22 / 7

/-- A picture as wide as asked for, seen from above. -/
def fromAbove (size : ℚ) : Style ℚ :=
  { size, side := .width, lineWidth := 1 / 2, colorBoundary := false, azimuth := 0, turn := 0 }

/-- Two squares side by side, and a vertex far away from both. -/
def squaresAndVertex : Mesh ℚ 2 :=
  { vertices := #[.xy 50 (-7), .xy (-1) 1, .xy 0 1, .xy 1 1, .xy (-1) 0, .xy 0 0, .xy 1 0]
    cells := [#v[4, 5, 1, 2], #v[5, 6, 2, 3]]
    indicators := ∅ }

theorem draw_fits_squaresAndVertex :
    0 < 2 ∧ squaresAndVertex.CellsValid ∧ squaresAndVertex.cells ≠ [] ∧
      0 < (fromAbove (301 / 2)).size ∧
      (∀ c ∈ squaresAndVertex.cells, ∀ v ∈ c.toList, ∀ p, squaresAndVertex.vertices[v]? = some p →
        ∀ s, |(drawn (fromAbove (301 / 2)).view p).along s| ≤ Scalar.largest) ∧
      ∃ g : Drawing ℚ, squaresAndVertex.draw (fromAbove (301 / 2)) = .ok g ∧
        g.width = 301 / 2 ∧ g.height = 301 / 4 ∧ g.picture.Around g.ends ∧
        ∀ p ∈ g.ends, p.PrintsWithin (Scalar.ceiling g.width) (Scalar.ceiling g.height) := by
  have hm : squaresAndVertex.CellsValid := by decide +kernel
  have hcells : squaresAndVertex.cells ≠ [] := by decide +kernel
  have hsize : 0 < (fromAbove (301 / 2)).size := by decide +kernel
  have hcoordinates : ∀ c ∈ squaresAndVertex.cells, ∀ v ∈ c.toList, ∀ p,
      squaresAndVertex.vertices[v]? = some p →
      ∀ s, |(drawn (fromAbove (301 / 2)).view p).along s| ≤ Scalar.largest := by
    have hall : ∀ c ∈ squaresAndVertex.cells, ∀ v ∈ c.toList, ∀ p ∈ squaresAndVertex.vertices[v]?,
        ∀ s ∈ [Side.width, Side.height],
          |(drawn (fromAbove (301 / 2)).view p).along s| ≤ (Scalar.largest : ℚ) := by
      decide +kernel
    exact fun c hc v hv p hp s => hall c hc v hv p hp s (by cases s <;> decide)
  obtain ⟨g, -, -, hdraw, -, -, haround, -, -, -, -, hprints, -⟩ :=
    draw_fits (by decide) hm hcells hsize hcoordinates
  have hsides : (squaresAndVertex.draw (fromAbove (301 / 2))).toOption.map
      (fun g => (g.width, g.height)) = some (301 / 2, 301 / 4) := by decide +kernel
  rw [hdraw] at hsides
  obtain ⟨hwidth, hheight⟩ := Prod.mk.inj (Option.some.inj hsides)
  refine ⟨by decide, hm, hcells, hsize, hcoordinates, g, hdraw, hwidth, hheight, haround, ?_⟩
  refine hprints ?_ ?_
  · rw [hwidth]
    norm_num
  · rw [hheight]
    norm_num

/-- A rectangle that is drawn with a height of `2 ^ 63 - 1 / 2`. -/
def nearLimit : Mesh ℚ 2 :=
  { vertices := #[.xy 0 (1 - 1 / 2 ^ 32), .xy (1 / 2) (1 - 1 / 2 ^ 32), .xy 0 0, .xy (1 / 2) 0]
    cells := [#v[2, 3, 0, 1]]
    indicators := ∅ }

/-- A side between the largest integer of 64 signed bits and the next one does not fit into
the bounding box. -/
theorem draw_nearLimit :
    nearLimit.CellsValid ∧ nearLimit.cells ≠ [] ∧ 0 < (fromAbove (2 ^ 62 + 2 ^ 30)).size ∧
      (∀ p ∈ nearLimit.vertices, |p.abscissa| ≤ 1 ∧ |p.ordinate| ≤ 1) ∧
      ∃ g : Drawing ℚ, nearLimit.draw (fromAbove (2 ^ 62 + 2 ^ 30)) = .ok g ∧
        g.width < 2 ^ 63 ∧ g.height < 2 ^ 63 ∧
        ∃ p ∈ g.ends, ¬p.PrintsWithin (Scalar.ceiling g.width) (Scalar.ceiling g.height) := by
  have hdraw : (nearLimit.draw (fromAbove (2 ^ 62 + 2 ^ 30))).toOption.map (fun g =>
      (g.width, g.height, g.ends.any (·.ordinate = 2 ^ 63 - 1 / 2))) =
      some (2 ^ 62 + 2 ^ 30, 2 ^ 63 - 1 / 2, true) := by decide +kernel
  obtain ⟨g, hg, hvalues⟩ := Option.map_eq_some_iff.mp hdraw
  obtain ⟨hwidth, hvalues⟩ := Prod.mk.inj hvalues
  obtain ⟨hheight, hany⟩ := Prod.mk.inj hvalues
  obtain ⟨p, hp, hordinate⟩ := List.any_eq_true.mp hany
  refine ⟨by decide +kernel, by decide +kernel, by decide +kernel, by decide +kernel, g,
    toOption_eq_some_iff.mp hg, ?_, ?_, p, hp, ?_⟩
  · rw [hwidth]
    norm_num
  · rw [hheight]
    norm_num
  · intro h
    obtain ⟨-, b, -, hreads, -, -, -, hb⟩ := h
    rw [of_decide_eq_true hordinate] at hreads
    have hrounded : Numeral.rounded 3 (2 ^ 63 - 1 / 2 : ℚ) =
        .finite false 9223372036854775807500 (-3) := by decide +kernel
    have hvalue : (Numeral.rounded 3 (2 ^ 63 - 1 / 2 : ℚ)).Says (2 ^ 63 - 1 / 2 : ℚ) := by
      rw [hrounded]
      norm_num [Decimal.Says, zpow_neg]
    have hmax : (Scalar.ceiling g.height : ℚ) ≤ (Scalar.maxInt : ℚ) :=
      Int.cast_le.mpr (Scalar.ceilingWithin_le_maxInt g.height)
    have hlast : (Scalar.maxInt : ℚ) = 2 ^ 63 - 1 := by norm_num [Scalar.maxInt]
    rw [hreads.unique hvalue.reads] at hb
    have hbound := hb.trans hmax
    rw [hlast] at hbound
    norm_num at hbound

end Examples

end Mesh
end HexMesh
