import HexMesh.Proofs.Msh.Entries

/-!
Two readers side by side.

Files that say nearly the same are compared by two readers that have gathered nearly the same.
A line that is neither a node nor an element leads both of them on in the same way, whatever they
have gathered (`readLine_moves`), so for a relation between two readers that holds along their
files there is nothing to show but what entries do to it.
-/

namespace HexMesh
namespace Msh

variable {K : Type} {d : Nat} {D : Gathered K d → Gathered K d → Prop}

/-- A relation between what two readers have gathered which does not depend on what they expect of
the next line. -/
def Indifferent (D : Gathered K d → Gathered K d → Prop) : Prop :=
  ∀ g g' mode mode' formatSeen formatSeen', D g g' →
    D { g with mode, formatSeen } { g' with mode := mode', formatSeen := formatSeen' }

/-- Two readers at the same place in their files. -/
structure Beside (D : Gathered K d → Gathered K d → Prop) (g g' : Gathered K d) : Prop where
  mode : g'.mode = g.mode
  formatSeen : g'.formatSeen = g.formatSeen
  data : D g g'

theorem Beside.complete {g g' : Gathered K d} (h : Beside D g g') (hcomplete : g.Complete)
    (hcells : g'.cells.isEmpty = false) : g'.Complete :=
  ⟨h.mode.trans hcomplete.mode, h.formatSeen.trans hcomplete.formatSeen, hcells⟩

/-! ## Lines other than entries -/

section Moves

variable {g g₁ : Gathered K d}

theorem Counted.exists_left_eq (K : Type) (d : Nat) (c : Counted) (n : Nat) :
    ∃ mode, ∀ g : Gathered K d, c.left g n = { g with mode } := by
  cases n with
  | zero => exact ⟨_, c.left_zero⟩
  | succ n => exact ⟨_, fun g => c.left_succ g n⟩

theorem opening_moves {text : List Char} (h : g.opening text = .ok g₁) :
    (∃ mode, ∀ g' : Gathered K d, g'.opening text = .ok { g' with mode }) ∨
      ∀ g' : Gathered K d, g'.opening text = .ok g' := by
  unfold Gathered.opening at h ⊢
  by_cases hformat : trim text = "$MeshFormat".toList
  · exact Or.inl ⟨_, fun g' => if_pos hformat⟩
  by_cases hnodes : trim text = "$Nodes".toList
  · simp only [hnodes, if_true]
    exact Or.inl ⟨_, fun _ => rfl⟩
  by_cases helements : trim text = "$Elements".toList
  · simp only [helements, if_true]
    exact Or.inl ⟨_, fun _ => rfl⟩
  by_cases hother :
      ("$".toList.isPrefixOf (trim text) && !"$End".toList.isPrefixOf (trim text)) = true
  · simp only [hformat, hnodes, helements, hother, if_true, if_false]
    exact Or.inl ⟨_, fun _ => rfl⟩
  simp only [hformat, hnodes, helements, hother, if_false] at h ⊢
  by_cases hempty : (trim text).isEmpty = true
  · simp only [hempty, if_true]
    exact Or.inr fun _ => rfl
  · simp only [hempty] at h
    cases h

variable [Scalar K] [Numeral K]

/-- A line leads every reader that has come to the same place to the same next place. -/
def Moves (g : Gathered K d) (text : List Char) (g₁ : Gathered K d) : Prop :=
  ∃ mode formatSeen, g₁ = { g with mode, formatSeen } ∧
    ∀ g' : Gathered K d, g'.mode = g.mode → g'.formatSeen = g.formatSeen →
      g'.readLine text = .ok { g' with mode, formatSeen }

theorem Moves.of_mode {text : List Char} (h : g.readLine text = .ok g₁) (mode : Mode)
    (hall : ∀ g' : Gathered K d, g'.mode = g.mode → g'.readLine text = .ok { g' with mode }) :
    Moves g text g₁ :=
  ⟨mode, g.formatSeen, Except.ok.inj (h.symm.trans (hall g rfl)),
    fun g' hmode hseen => hseen ▸ hall g' hmode⟩

theorem Moves.of_same {text : List Char} (h : g.readLine text = .ok g₁)
    (hall : ∀ g' : Gathered K d, g'.mode = g.mode → g'.readLine text = .ok g') :
    Moves g text g₁ := by
  refine .of_mode h g.mode fun g' hmode => ?_
  rw [← hmode]
  exact hall g' hmode

theorem moves_count {text : List Char} (c : Counted) (hmode : g.mode = c.countMode)
    (h : g.readLine text = .ok g₁) : Moves g text g₁ := by
  have hread := h
  rw [c.readLine_count hmode] at hread
  obtain ⟨n, hn, -⟩ := bind_eq_ok_iff.mp hread
  obtain ⟨mode, hleft⟩ := c.exists_left_eq K d n
  refine .of_mode h mode fun g' hmode' => ?_
  rw [c.readLine_count (hmode'.trans hmode), hn, ← hleft]
  rfl

/-- What a line other than an entry does depends on where the reader is, and not on what it has
gathered. -/
theorem readLine_moves {text : List Char} (hentry : g.mode.isEntry = false)
    (h : g.readLine text = .ok g₁) : Moves g text g₁ := by
  cases hmode : g.mode with
  | outside =>
    have hopening := h
    simp only [Gathered.readLine, hmode] at hopening
    rcases opening_moves hopening with ⟨mode, hall⟩ | hall
    · refine .of_mode h mode fun g' hmode' => ?_
      simp only [Gathered.readLine, hmode', hmode, hall]
    · refine .of_same h fun g' hmode' => ?_
      simp only [Gathered.readLine, hmode', hmode, hall]
  | format =>
    have hformat := h
    simp only [Gathered.readLine, hmode] at hformat
    obtain ⟨⟨⟩, hvalid, -⟩ := bind_eq_ok_iff.mp hformat
    refine .of_mode h (.closing Gathered.formatMarker) fun g' hmode' => ?_
    simp only [Gathered.readLine, hmode', hmode, hvalid]
    rfl
  | closing marker =>
    by_cases hfound : trim text = marker
    · simp only [Gathered.readLine, hmode, hfound, if_true] at h
      cases h
      refine ⟨_, _, rfl, fun g' hmode' hseen => ?_⟩
      simp only [Gathered.readLine, hmode', hmode, hseen, hfound, if_true]
    · refine .of_same h fun g' hmode' => ?_
      simp only [Gathered.readLine, hmode', hmode, hfound, if_false]
  | nodeCount => exact moves_count .nodes hmode h
  | elementCount => exact moves_count .elements hmode h
  | node | element =>
    rw [hmode] at hentry
    cases hentry

end Moves

/-! ## One line for each reader -/

section Lines

variable [Scalar K] [Numeral K] {g g' g₁ : Gathered K d} {text text' : List Char}

theorem Beside.readLine (hD : Indifferent D) (h : Beside D g g')
    (hentry : g.mode.isEntry = false) (hread : g.readLine text = .ok g₁) :
    ∃ g₁', g'.readLine text = .ok g₁' ∧ Beside D g₁ g₁' := by
  obtain ⟨mode, formatSeen, rfl, hall⟩ := readLine_moves hentry hread
  exact ⟨_, hall g' h.mode h.formatSeen, rfl, rfl, hD _ _ _ _ _ _ h.data⟩

omit [Scalar K] in
theorem Counted.formatSeen_of_take {c : Counted} (h : c.take g text = .ok g₁) :
    g₁.formatSeen = g.formatSeen := by
  cases c with
  | nodes =>
    obtain ⟨t, p, -, rfl⟩ := take_nodes_eq_ok_iff.mp h
    rfl
  | elements =>
    obtain ⟨e, -, hadd⟩ := take_elements_eq_ok_iff.mp h
    cases Gathered.addElement_eq_ok_iff.mp hadd <;> rfl

theorem Beside.readLine_entry (hD : Indifferent D) (h : Beside D g g') {c : Counted} {more : Nat}
    (hmode : g.mode = c.entryMode more) (hread : g.readLine text = .ok g₁)
    (htake : ∀ g₂, c.take g text = .ok g₂ → ∃ g₂', c.take g' text' = .ok g₂' ∧ D g₂ g₂') :
    ∃ g₁', g'.readLine text' = .ok g₁' ∧ Beside D g₁ g₁' := by
  rw [c.readLine_entry hmode] at hread
  obtain ⟨g₂, hg₂, hread⟩ := bind_eq_ok_iff.mp hread
  cases hread
  obtain ⟨g₂', hg₂', hdata⟩ := htake g₂ hg₂
  obtain ⟨mode, hleft⟩ := c.exists_left_eq K d more
  refine ⟨c.left g₂' more, ?_, ?_⟩
  · rw [c.readLine_entry (h.mode.trans hmode), hg₂']
    rfl
  · rw [hleft, hleft]
    refine ⟨rfl, ?_, hD _ _ _ _ _ _ hdata⟩
    show g₂'.formatSeen = g₂.formatSeen
    rw [Counted.formatSeen_of_take hg₂', h.formatSeen, Counted.formatSeen_of_take hg₂]

end Lines

/-! ## Whole files -/

variable [Scalar K] [Numeral K] {g g' g₁ : Gathered K d}

/-- If the second reader takes each line on which the first one gets on, or stops there for a
reason that is allowed, then it gets to the end of its file or stops for such a reason. -/
theorem after?_follows {lines lines' : List Line} {R : Nat → Gathered K d → Gathered K d → Prop}
    {Stop : Gathered K d → List Char → LineFault K → Prop}
    (length : lines'.length = lines.length) (start : R 0 g g')
    (next : ∀ n g g' g₁ text, lines[n]? = some (some text) → R n g g' →
      g.readLine text = .ok g₁ → ∃ text', lines'[n]? = some (some text') ∧
        ((∃ g₁', g'.readLine text' = .ok g₁' ∧ R (n + 1) g₁ g₁') ∨
          ∃ fault, g'.readLine text' = .error fault ∧ Stop g' text' fault))
    (h : g.after? lines = some g₁) :
    (∃ g₁', g'.after? lines' = some g₁' ∧ R lines.length g₁ g₁') ∨
    ∃ n g₂ text fault, g'.after? (lines'.take n) = some g₂ ∧ lines'[n]? = some (some text) ∧
      g₂.readLine text = .error fault ∧ Stop g₂ text fault := by
  -- The relation may depend on the line, so it moves on by one together with the lines.
  induction lines generalizing lines' R g g' with
  | nil =>
    cases List.length_eq_zero_iff.mp length
    cases h
    exact Or.inl ⟨g', rfl, start⟩
  | cons line rest ih =>
    cases line with
    | none => cases h
    | some text =>
      rw [Gathered.after?_cons, Option.bind_eq_some_iff] at h
      obtain ⟨g₂, hread, hrest⟩ := h
      obtain ⟨text', htext', hnext⟩ :=
        next 0 g g' g₂ text rfl start (toOption_eq_some_iff.mp hread)
      cases lines' with
      | nil => cases htext'
      | cons line' rest' =>
        cases Option.some.inj htext'
        rcases hnext with ⟨g₂', hread', hR⟩ | ⟨fault, hfault, hstop⟩
        · rcases ih (R := fun n => R (n + 1)) (Nat.succ.inj length) hR
            (fun n => next (n + 1)) hrest with ⟨g₁', hg₁', hend⟩ | ⟨n, g₃, text, fault, hstop⟩
          · exact Or.inl ⟨g₁', (Gathered.after?_cons_of_eq hread' rest').trans hg₁', hend⟩
          · refine Or.inr ⟨n + 1, g₃, text, fault, ?_, hstop.2⟩
            rw [List.take_succ_cons, Gathered.after?_cons_of_eq hread']
            exact hstop.1
        · exact Or.inr ⟨0, g', text', fault, rfl, rfl, hfault, hstop⟩

theorem after?_keeps {lines lines' : List Line} {R : Nat → Gathered K d → Gathered K d → Prop}
    (length : lines'.length = lines.length) (start : R 0 g g')
    (next : ∀ n g g' g₁ text, lines[n]? = some (some text) → R n g g' →
      g.readLine text = .ok g₁ → ∃ text' g₁', lines'[n]? = some (some text') ∧
        g'.readLine text' = .ok g₁' ∧ R (n + 1) g₁ g₁')
    (h : g.after? lines = some g₁) :
    ∃ g₁', g'.after? lines' = some g₁' ∧ R lines.length g₁ g₁' := by
  have hfollows : _ ∨ ∃ n g₂ text fault, _ ∧ _ ∧ _ ∧ False :=
    after?_follows length start (fun n g g' g₁ text hline hR hread => by
      obtain ⟨text', g₁', hline', hread', hR'⟩ := next n g g' g₁ text hline hR hread
      exact ⟨text', hline', Or.inl ⟨g₁', hread', hR'⟩⟩) h
  rcases hfollows with hend | ⟨-, -, -, -, -, -, -, hstop⟩
  · exact hend
  · exact hstop.elim

end Msh
end HexMesh
