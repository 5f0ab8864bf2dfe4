import HexMesh.Proofs.Msh.Markers

/-!
Sections that tell how many entries they have.

Nodes and elements are listed in the same way: a count, as many entries, and the line that closes
the section.  `Counted` stands for either of the two, and `after?_section` says what such a section
adds to what was gathered, whether its count covers all of its entries or not.
-/

namespace HexMesh
namespace Msh

/-- The reader waits for an entry. -/
def Mode.isEntry : Mode → Bool
  | .node _ | .element _ => true
  | _ => false

/-- The kinds of sections that tell the number of their entries. -/
inductive Counted where
  | nodes
  | elements
  deriving DecidableEq, Repr

namespace Counted

def name : Counted → List Char
  | nodes => "Nodes".toList
  | elements => "Elements".toList

/-- The reader waits for the count. -/
def countMode : Counted → Mode
  | nodes => .nodeCount
  | elements => .elementCount

def countItem : Counted → Item
  | nodes => .nodeCount
  | elements => .elementCount

/-- The reader waits for an entry, and for a number of entries after it. -/
def entryMode : Counted → Nat → Mode
  | nodes => .node
  | elements => .element

theorem exists_entryMode {mode : Mode} (h : mode.isEntry = true) :
    ∃ (c : Counted) (more : Nat), mode = c.entryMode more := by
  cases mode with
  | node more => exact ⟨nodes, more, rfl⟩
  | element more => exact ⟨elements, more, rfl⟩
  | outside | format | closing | nodeCount | elementCount => cases h

variable {K : Type} {d : Nat}

def left (c : Counted) (g : Gathered K d) (n : Nat) : Gathered K d :=
  match c with
  | nodes => g.nodesLeft n
  | elements => g.elementsLeft n

/-- Take an entry in. -/
def take [Numeral K] (c : Counted) (g : Gathered K d) (text : List Char) :
    Except (LineFault K) (Gathered K d) :=
  match c with
  | nodes => do
    let (tag, p) ← readNode text
    return g.addNode tag p
  | elements => do
    let e ← readElement text
    g.addElement e

def takeAll [Numeral K] (c : Counted) (g : Gathered K d) (texts : List (List Char)) :
    Except (LineFault K) (Gathered K d) :=
  texts.foldlM c.take g

theorem left_withMode (c : Counted) (g : Gathered K d) (mode : Mode) (n : Nat) :
    c.left { g with mode } n = c.left g n := by
  cases c <;> cases n <;> rfl

theorem left_zero (c : Counted) (g : Gathered K d) :
    c.left g 0 = { g with mode := .closing (closingMarker c.name) } := by
  cases c <;> rfl

theorem left_succ (c : Counted) (g : Gathered K d) (n : Nat) :
    c.left g (n + 1) = { g with mode := c.entryMode n } := by
  cases c <;> rfl

theorem closingMarker_ne_formatMarker (c : Counted) :
    closingMarker c.name ≠ Gathered.formatMarker := by
  cases c <;> decide

/-! ## Entries -/

section Entries

variable [Numeral K] {g g₁ : Gathered K d} {text : List Char}

theorem take_nodes_eq_ok_iff :
    nodes.take g text = .ok g₁ ↔ ∃ t p, readNode text = .ok (t, p) ∧ g₁ = g.addNode t p := by
  rw [take, bind_eq_ok_iff]
  constructor
  · rintro ⟨⟨t, p⟩, hnode, hadd⟩
    cases hadd
    exact ⟨t, p, hnode, rfl⟩
  · rintro ⟨t, p, hnode, rfl⟩
    exact ⟨(t, p), hnode, rfl⟩

theorem take_elements_eq_ok_iff :
    elements.take g text = .ok g₁ ↔
      ∃ e, readElement (K := K) text = .ok e ∧ g.addElement e = .ok g₁ := bind_eq_ok_iff

theorem trim_ne_of_take {c : Counted} (h : c.take g text = .ok g₁) :
    trim text ≠ closingMarker c.name := by
  cases c with
  | nodes =>
    obtain ⟨t, p, hnode, -⟩ := take_nodes_eq_ok_iff.mp h
    exact trim_ne_of_length (by decide) (length_fields_of_readNode hnode)
  | elements =>
    obtain ⟨e, he, -⟩ := take_elements_eq_ok_iff.mp h
    exact trim_ne_of_length (by decide) (length_fields_of_readElement he)

theorem trim_ne_of_takeAll {c : Counted} {texts : List (List Char)}
    (h : c.takeAll g texts = .ok g₁) : ∀ text ∈ texts, trim text ≠ closingMarker c.name := by
  induction texts generalizing g with
  | nil => exact fun _ hmem => absurd hmem List.not_mem_nil
  | cons text rest ih =>
    rw [takeAll, List.foldlM_cons] at h
    obtain ⟨g₂, htake, hrest⟩ := bind_eq_ok_iff.mp h
    exact List.forall_mem_cons.mpr ⟨trim_ne_of_take htake, ih hrest⟩

theorem takeAll_keeps {c : Counted} {P : Gathered K d → Prop}
    (keeps : ∀ g g₁ text, c.take g text = .ok g₁ → P g → P g₁) {texts : List (List Char)}
    (h : c.takeAll g texts = .ok g₁) (hg : P g) : P g₁ := by
  induction texts generalizing g with
  | nil =>
    cases h
    exact hg
  | cons text rest ih =>
    rw [takeAll, List.foldlM_cons] at h
    obtain ⟨g₂, htake, hrest⟩ := bind_eq_ok_iff.mp h
    exact ih hrest (keeps g g₂ text htake hg)

theorem exists_takeAll_take {c : Counted} {texts : List (List Char)}
    (h : c.takeAll g texts = .ok g₁) (n : Nat) : ∃ g₂, c.takeAll g (texts.take n) = .ok g₂ := by
  rw [← List.take_append_drop n texts, takeAll, List.foldlM_append] at h
  obtain ⟨g₂, hfirst, -⟩ := bind_eq_ok_iff.mp h
  exact ⟨g₂, hfirst⟩

omit [Numeral K] in
theorem addElement_withMode (g : Gathered K d) (mode : Mode) (e : Element) :
    ({ g with mode } : Gathered K d).addElement e =
      g.addElement e >>= fun g₁ => .ok { g₁ with mode } := by
  have hresolve (tags : List Nat) :
      ({ g with mode } : Gathered K d).resolve tags = g.resolve tags := rfl
  unfold Gathered.addElement
  simp only [hresolve]
  repeat' split
  all_goals first | rfl | (cases g.resolve e.nodes <;> rfl)

theorem take_withMode (c : Counted) (g : Gathered K d) (mode : Mode) (text : List Char) :
    c.take { g with mode } text = c.take g text >>= fun g₁ => .ok { g₁ with mode } := by
  cases c with
  | nodes =>
    rw [take, take]
    cases readNode (K := K) (d := d) text <;> rfl
  | elements =>
    simp only [take, addElement_withMode, bind_assoc]

end Entries

/-! ## The lines of a section -/

variable [Scalar K] [Numeral K] {g g₁ : Gathered K d} {text : List Char}

theorem readLine_opens (c : Counted) (hmode : g.mode = .outside) (h : trim text = '$' :: c.name) :
    g.readLine text = .ok { g with mode := c.countMode } := by
  simp only [Gathered.readLine, hmode, Gathered.opening, h]
  cases c <;> rfl

theorem readLine_count (c : Counted) (hmode : g.mode = c.countMode) (text : List Char) :
    g.readLine text =
      natural wordBound c.countItem (trim text) >>= fun n => .ok (c.left g n) := by
  cases c <;> simp only [Gathered.readLine, hmode, countMode] <;> rfl

theorem readLine_entry (c : Counted) {more : Nat} (hmode : g.mode = c.entryMode more)
    (text : List Char) :
    g.readLine text = c.take g text >>= fun g₁ => .ok (c.left g₁ more) := by
  cases c with
  | nodes =>
    simp only [Gathered.readLine, hmode, entryMode, take]
    cases readNode (K := K) (d := d) text <;> rfl
  | elements =>
    simp only [Gathered.readLine, hmode, entryMode, take, bind_assoc]
    rfl

theorem readLine_left_succ (c : Counted) (g : Gathered K d) (n : Nat) (text : List Char) :
    (c.left g (n + 1)).readLine text = c.take g text >>= fun g₁ => .ok (c.left g₁ n) := by
  have hforget : (fun g₁ : Gathered K d => (Except.ok (c.left { g₁ with mode := c.entryMode n } n) :
      Except (LineFault K) (Gathered K d))) = fun g₁ => .ok (c.left g₁ n) :=
    funext fun g₁ => congrArg _ (c.left_withMode g₁ _ n)
  rw [left_succ, c.readLine_entry rfl, take_withMode, bind_assoc]
  exact congrArg (c.take g text >>= ·) hforget

theorem readLine_closes (c : Counted) (hmode : g.mode = .closing (closingMarker c.name))
    (h : trim text = closingMarker c.name) : g.readLine text = .ok { g with mode := .outside } := by
  simp only [Gathered.readLine, hmode, h, if_true, c.closingMarker_ne_formatMarker, decide_false,
    Bool.or_false]

/-- The line that closes the section is not an entry. -/
theorem readLine_entry_marker (c : Counted) {more : Nat} (hmode : g.mode = c.entryMode more)
    (h : trim text = closingMarker c.name) : ∃ fault, g.readLine text = .error fault := by
  rw [c.readLine_entry hmode]
  cases htake : c.take g text with
  | error fault => exact ⟨fault, rfl⟩
  | ok g₁ => exact absurd h (trim_ne_of_take htake)

theorem after?_entries (c : Counted) (g : Gathered K d) {texts : List (List Char)} {n : Nat}
    (h : texts.length ≤ n) :
    (c.left g n).after? (texts.map some) =
      (c.takeAll g texts).toOption.map fun g₁ => c.left g₁ (n - texts.length) := by
  induction texts generalizing g n with
  | nil => rfl
  | cons text rest ih =>
    obtain ⟨n, rfl⟩ := Nat.exists_eq_add_one_of_ne_zero (Nat.ne_of_gt (Nat.lt_of_lt_of_le
      (Nat.succ_pos _) h))
    have hrest : rest.length ≤ n := Nat.le_of_succ_le_succ h
    rw [List.map_cons, Gathered.after?_cons, readLine_left_succ, takeAll, List.foldlM_cons,
      List.length_cons, Nat.add_sub_add_right]
    cases c.take g text with
    | error fault => rfl
    | ok g₁ => exact ih g₁ hrest

/-- The entries up to the count are taken in, and the lines behind them are passed over. -/
theorem after?_section (c : Counted) (hmode : g.mode = .outside)
    {opening count closing : List Char} {entries : List (List Char)} {n : Nat}
    (opens : trim opening = '$' :: c.name) (hcount : readNat? wordBound (trim count) = some n)
    (hn : n ≤ entries.length) (closes : trim closing = closingMarker c.name)
    (hpassed : ∀ text ∈ entries.drop n, trim text ≠ closingMarker c.name) :
    g.after? ((opening :: count :: entries ++ [closing]).map some) =
      (c.takeAll g (entries.take n)).toOption.map fun g₁ => { g₁ with mode := .outside } := by
  have hread : ({ g with mode := c.countMode } : Gathered K d).readLine count =
      .ok (c.left g n) := by
    rw [c.readLine_count rfl, natural_eq_ok_iff.mpr hcount, ← c.left_withMode g c.countMode]
    rfl
  have hlength : (entries.take n).length = n := List.length_take_of_le hn
  -- The lines behind the count are not entries any more but belong to the end of the section.
  have hlines : (opening :: count :: entries ++ [closing]).map some =
      some opening :: some count :: ((entries.take n).map some ++
        ((entries.drop n).map some ++ [some closing])) := by
    rw [← List.append_assoc, ← List.map_append, List.take_append_drop]
    simp
  rw [hlines, Gathered.after?_cons_of_eq (c.readLine_opens hmode opens),
    Gathered.after?_cons_of_eq hread, Gathered.after?_append,
    c.after?_entries g (Nat.le_of_eq hlength), hlength, Nat.sub_self]
  cases c.takeAll g (entries.take n) with
  | error fault => rfl
  | ok g₁ =>
    show (c.left g₁ 0).after? _ = some { g₁ with mode := .outside }
    rw [left_zero, Gathered.after?_append, Gathered.after?_skip rfl hpassed, Option.bind_some]
    exact Gathered.after?_cons_of_eq (c.readLine_closes rfl closes) []

end Counted
end Msh
end HexMesh
