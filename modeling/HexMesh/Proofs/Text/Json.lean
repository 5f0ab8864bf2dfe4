import Mathlib.Data.List.Forall2
import HexMesh.Proofs.Text.Numerals
import HexMesh.Text.Json

/-!
JSON documents are read back.

The reader below follows the grammar and knows nothing of how this library lays a document out:
blanks may stand around every mark, and a string may be spelled in any of the ways that there are.
It knows the values that the library writes, so among the numbers only the natural ones.  Documents
are nested, and so is the proof: what a text is read as does not depend on what follows it, as long
as that does not begin with a digit.
-/

namespace HexMesh
namespace Json

/-! ## The reader -/

/-- The characters that may stand around marks. -/
def isBlank (c : Char) : Bool := c == ' ' || c == '\n' || c == '\r' || c == '\t'

/-- A text from the first character that is not blank. -/
def skip (cs : List Char) : List Char := cs.dropWhile isBlank

/-- A number is spelled without needless zeros. -/
def number? (cs : List Char) : Option (Nat × List Char) :=
  let digits := cs.takeWhile Char.isDigit
  let n := Decimal.ofDigits digits
  if Nat.toDigits 10 n = digits then some (n, cs.dropWhile Char.isDigit) else none

/-- The number of a digit in base sixteen, in upper or lower case. -/
def sixteenth? (c : Char) : Option Nat :=
  (List.range 16).find? fun n => Nat.digitChar n == c.toLower

/-- The character whose number is spelled in base sixteen. -/
def coded? (digits : List Char) : Option Char := do
  let n ← digits.foldlM (fun n c => (sixteenth? c).map (16 * n + ·)) 0
  if n.isValidChar then some (Char.ofNat n) else none

/-- The character that a single one stands for behind a backslash. -/
def escaped? (c : Char) : Option Char :=
  if c == '"' || c == '\\' || c == '/' then some c
  else if c == 'b' then some '\x08'
  else if c == 'f' then some '\x0c'
  else if c == 'n' then some '\n'
  else if c == 'r' then some '\r'
  else if c == 't' then some '\t'
  else none

/-- The characters of a string up to the quote that ends it, and what follows that. -/
def string? : List Char → Option (List Char × List Char)
  | [] => none
  | '"' :: cs => some ([], cs)
  | '\\' :: 'u' :: x :: y :: z :: w :: cs => do
    let c ← coded? [x, y, z, w]
    let (s, cs) ← string? cs
    return (c :: s, cs)
  | '\\' :: c :: cs => do
    let c ← escaped? c
    let (s, cs) ← string? cs
    return (c :: s, cs)
  | c :: cs =>
    if c == '\\' || c.toNat < 0x20 then none
    else do
      let (s, cs) ← string? cs
      return (c :: s, cs)

section Items

variable {α : Type} (item? : List Char → Option (α × List Char)) (ending : Char)

/-- A number of items with commas between them, up to the mark that ends them. -/
def items? : Nat → List Char → Option (List α × List Char)
  | 0, _ => none
  | most + 1, cs => do
    let (item, cs) ← item? cs
    match skip cs with
    | [] => none
    | c :: cs =>
      if c == ',' then do
        let (items, cs) ← items? most cs
        return (item :: items, cs)
      else if c == ending then some ([item], cs)
      else none

/-- Any number of items up to the mark that ends them. -/
def enclosed? (cs : List Char) : Option (List α × List Char) :=
  match skip cs with
  | [] => none
  | c :: rest => if c == ending then some ([], rest) else items? item? ending cs.length cs

end Items

/-- A name and a value with a colon between them. -/
def field? (value? : List Char → Option (Json × List Char)) (cs : List Char) :
    Option ((String × Json) × List Char) :=
  match skip cs with
  | '"' :: cs => do
    let (name, cs) ← string? cs
    match skip cs with
    | ':' :: cs => do
      let (value, cs) ← value? cs
      return ((String.ofList name, value), cs)
    | _ => none
  | _ => none

/-- A value that is nested no deeper than a number of brackets, and what follows it. -/
def value? : Nat → List Char → Option (Json × List Char)
  | 0, _ => none
  | depth + 1, cs =>
    match skip cs with
    | '"' :: cs => (string? cs).map fun (s, cs) => (.string (String.ofList s), cs)
    | '[' :: cs => (enclosed? (value? depth) ']' cs).map fun (items, cs) => (.list items, cs)
    | '\x7b' :: cs =>
      (enclosed? (field? (value? depth)) '\x7d' cs).map fun (fields, cs) => (.record fields, cs)
    | cs => (number? cs).map fun (n, cs) => (.number n, cs)

/-- The value of a whole document. -/
def read? (text : String) : Option Json := do
  let (value, rest) ← value? text.length text.toList
  if (skip rest).isEmpty then some value else none

/-! ## Blanks and numbers -/

/-- A text does not begin with a digit. -/
def Ended (cs : List Char) : Prop := ∀ c ∈ cs.head?, c.isDigit = false

theorem skip_append {blanks : List Char} (h : ∀ c ∈ blanks, isBlank c = true) (cs : List Char) :
    skip (blanks ++ cs) = skip cs := List.dropWhile_append_of_pos h

theorem skip_cons {c : Char} (h : isBlank c = false) (cs : List Char) : skip (c :: cs) = c :: cs :=
  List.dropWhile_cons_of_neg (by rw [h]; exact Bool.false_ne_true)

theorem number?_toDigits (n : Nat) {rest : List Char} (h : Ended rest) :
    number? (Nat.toDigits 10 n ++ rest) = some (n, rest) := by
  have hdigits := isDigit_toDigits n
  have htake : rest.takeWhile Char.isDigit = [] := by
    cases rest with
    | nil => rfl
    | cons c rest =>
      refine List.takeWhile_cons_of_neg ?_
      rw [h c rfl]
      exact Bool.false_ne_true
  have hdrop : rest.dropWhile Char.isDigit = rest := by
    have happend := List.takeWhile_append_dropWhile (p := Char.isDigit) (l := rest)
    rwa [htake, List.nil_append] at happend
  simp only [number?, List.takeWhile_append_of_pos hdigits, List.dropWhile_append_of_pos hdigits,
    htake, hdrop, List.append_nil, Decimal.ofDigits_toDigits, if_true]

/-! ## Strings -/

theorem coded?_lastDigits {c : Char} (h : c.toNat < 0x20) :
    coded? (lastDigits 4 c.toNat) = some c := by
  have hall : ∀ n < 0x20, coded? (lastDigits 4 n) = some (Char.ofNat n) := by decide
  rw [hall _ h, Char.ofNat_toNat]

theorem string?_escape (c : Char) (cs : List Char) :
    string? (escape c ++ cs) = (string? cs).map fun p => (c :: p.1, p.2) := by
  have hmap (c : Char) : (do
      let (s, cs) ← string? cs
      return (c :: s, cs)) = (string? cs).map fun p => (c :: p.1, p.2) := by
    cases string? cs <;> rfl
  by_cases hnamed : c = '"' ∨ c = '\\' ∨ c = '\n' ∨ c = '\r' ∨ c = '\t' ∨ c = '\x08' ∨
      c = '\x0c'
  · rcases hnamed with rfl | rfl | rfl | rfl | rfl | rfl | rfl <;> exact hmap _
  -- What has no name is spelled by its number or stands for itself.
  simp only [not_or] at hnamed
  have hescape : escape c =
      if c.toNat < 0x20 then ['\\', 'u'] ++ lastDigits 4 c.toNat else [c] := by
    simp [escape, hnamed]
  rw [hescape]
  split
  next hlow =>
    have hcode := coded?_lastDigits hlow
    rw [lastDigits, lastDigits, lastDigits, lastDigits, lastDigits] at hcode ⊢
    show string? ('\\' :: 'u' :: _ :: _ :: _ :: _ :: cs) = _
    rw [string?]
    exact (congrArg (· >>= _) hcode).trans (hmap c)
  next hhigh =>
    show string? (c :: cs) = _
    rw [string?]
    · rw [if_neg (by simp [hnamed, hhigh])]
      exact hmap c
    · exact hnamed.1
    · exact fun _ _ _ _ _ h _ => hnamed.2.1 h
    · exact fun _ _ h _ => hnamed.2.1 h

theorem string?_quoted (s : List Char) (rest : List Char) :
    string? (s.flatMap escape ++ '"' :: rest) = some (s, rest) := by
  induction s with
  | nil => rfl
  | cons c s ih => rw [List.flatMap_cons, List.append_assoc, string?_escape, ih, Option.map_some]

theorem toList_quoted (s : String) :
    (quoted s).toList = '"' :: (s.toList.flatMap escape ++ ['"']) := by
  rw [quoted, String.toList_ofList, List.cons_append]

/-! ## Items -/

section Items

variable {α : Type} {item? : List Char → Option (α × List Char)} {ending : Char}

/-- Wherever the text stands, an item is read from it, after blanks and before anything that does
not begin with a digit. -/
def Reads (item? : List Char → Option (α × List Char)) (text : String) (item : α) : Prop :=
  ∀ blanks rest, (∀ c ∈ blanks, isBlank c = true) → Ended rest →
    item? (blanks ++ (text.toList ++ rest)) = some (item, rest)

theorem items?_last {cs cs' rest : List Char} {item : α} {most : Nat} (hcomma : ending ≠ ',')
    (hitem : item? cs = some (item, cs')) (hskip : skip cs' = ending :: rest) :
    items? item? ending (most + 1) cs = some ([item], rest) := by
  simp only [items?, hitem, Option.bind_eq_bind, Option.bind_some, hskip, beq_iff_eq, hcomma,
    if_false, if_true]

theorem items?_more {cs cs' cs'' rest : List Char} {item : α} {items : List α} {most : Nat}
    (hitem : item? cs = some (item, cs')) (hskip : skip cs' = ',' :: cs'')
    (hitems : items? item? ending most cs'' = some (items, rest)) :
    items? item? ending (most + 1) cs = some (item :: items, rest) := by
  simp only [items?, hitem, Option.bind_eq_bind, Option.bind_some, hskip, beq_self_eq_true,
    if_true, hitems]
  rfl

theorem enclosed?_none {cs rest : List Char} (hskip : skip cs = ending :: rest) :
    enclosed? item? ending cs = some ([], rest) := by
  rw [enclosed?, hskip]
  exact if_pos (beq_self_eq_true ending)

theorem enclosed?_some {c : Char} {cs cs' : List Char} (hskip : skip cs = c :: cs')
    (hc : c ≠ ending) : enclosed? item? ending cs = items? item? ending cs.length cs := by
  rw [enclosed?, hskip]
  exact if_neg fun h => hc (eq_of_beq h)

/-- The text begins with something that is neither blank nor a certain mark. -/
def BeginsApart (mark : Char) (text : String) : Prop :=
  ∃ c cs, text.toList = c :: cs ∧ isBlank c = false ∧ c ≠ mark

/-- The end of a line and the beginning of the next one at some depth. -/
def margin (depth : Nat) : List Char := '\n' :: (indent depth).toList

/-- What stands behind an item: the lines of some further ones and of the mark that ends them. -/
def further (depth : Nat) (ending : Char) : List String → List Char
  | [] => margin depth ++ [ending]
  | text :: texts => ',' :: margin (depth + 1) ++ text.toList ++ further depth ending texts

theorem isBlank_margin (depth : Nat) : ∀ c ∈ margin depth, isBlank c = true := by
  intro c hc
  rcases List.mem_cons.mp hc with rfl | hc
  · rfl
  · rw [indent, String.toList_ofList] at hc
    rw [List.eq_of_mem_replicate hc]
    rfl

theorem ended_further (depth : Nat) (texts : List String) (rest : List Char) :
    Ended (further depth ending texts ++ rest) := by
  cases texts <;> exact fun _ hc => Option.some.inj hc ▸ rfl

theorem intercalate_lines (ending : Char) (depth : Nat) (text : String) (texts : List String) :
    [',', '\n'].intercalate
          ((text :: texts).map fun t => (indent (depth + 1)).toList ++ t.toList) ++
        (margin depth ++ [ending]) =
      (indent (depth + 1)).toList ++ (text.toList ++ further depth ending texts) := by
  induction texts generalizing text with
  | nil => rw [List.map_singleton, List.intercalate_singleton, List.append_assoc, further]
  | cons next texts ih =>
    have hnext := ih next
    rw [List.map_cons] at hnext
    rw [List.map_cons, List.map_cons, List.intercalate_cons_cons, List.append_assoc, hnext, further]
    simp only [margin, List.append_assoc, List.cons_append, List.nil_append]

theorem toList_bracketed_cons {opening closing : String} (hclosing : closing.toList = [ending])
    (depth : Nat) (text : String) (texts : List String) :
    (bracketed opening closing depth (text :: texts)).toList =
      opening.toList ++ (margin (depth + 1) ++ (text.toList ++ further depth ending texts)) := by
  have hlines := intercalate_lines ending depth text texts
  have hmap : ((text :: texts).map fun item => indent (depth + 1) ++ item).map String.toList =
      (text :: texts).map fun t => (indent (depth + 1)).toList ++ t.toList := by
    rw [List.map_map]
    exact List.map_congr_left fun _ _ => String.toList_append
  have hline : "\n".toList = ['\n'] := rfl
  have hcomma : ",\n".toList = [',', '\n'] := rfl
  rw [margin, List.cons_append, ← hlines]
  simp only [bracketed, List.isEmpty_cons, Bool.false_eq_true, if_false, String.toList_append,
    String.toList_intercalate, hmap, hclosing, hline, hcomma, margin, List.append_assoc,
    List.cons_append, List.nil_append]

theorem skip_further_nil (depth : Nat) (hending : isBlank ending = false) (rest : List Char) :
    skip (further depth ending [] ++ rest) = ending :: rest := by
  rw [further, List.append_assoc, skip_append (isBlank_margin depth), List.singleton_append,
    skip_cons hending]

theorem skip_further_cons (depth : Nat) (text : String) (texts : List String) (rest : List Char) :
    skip (further depth ending (text :: texts) ++ rest) =
      ',' :: (margin (depth + 1) ++ (text.toList ++ (further depth ending texts ++ rest))) := by
  rw [further, List.cons_append, List.cons_append, List.cons_append, skip_cons rfl,
    List.append_assoc, List.append_assoc]

theorem items?_further {depth : Nat} {text : String} {item : α} {texts : List String}
    {items : List α} (hfirst : Reads item? text item)
    (hlater : List.Forall₂ (Reads item?) texts items) (hending : isBlank ending = false)
    (hcomma : ending ≠ ',') {most : Nat} (hmost : texts.length < most) (rest : List Char) :
    items? item? ending most
        (margin (depth + 1) ++ (text.toList ++ (further depth ending texts ++ rest))) =
      some (item :: items, rest) := by
  have hitem {text : String} {item : α} (h : Reads item? text item) (texts : List String) :=
    h (margin (depth + 1)) (further depth ending texts ++ rest) (isBlank_margin _)
      (ended_further depth texts rest)
  induction hlater generalizing text item most with
  | nil =>
    obtain ⟨most, rfl⟩ := Nat.exists_eq_succ_of_ne_zero (Nat.ne_zero_of_lt hmost)
    exact items?_last hcomma (hitem hfirst []) (skip_further_nil depth hending rest)
  | cons hnext _ ih =>
    obtain ⟨most, rfl⟩ := Nat.exists_eq_succ_of_ne_zero (Nat.ne_zero_of_lt hmost)
    exact items?_more (hitem hfirst _) (skip_further_cons depth _ _ rest)
      (ih hnext (Nat.lt_of_succ_lt_succ hmost))

theorem length_lt_further (depth : Nat) (texts : List String) :
    texts.length < (further depth ending texts).length := by
  induction texts with
  | nil => simp [further]
  | cons text texts ih =>
    simp only [further, List.length_append, List.length_cons] at ih ⊢
    omega

theorem length_le_further (depth : Nat) {text : String} {texts : List String} (h : text ∈ texts) :
    text.length ≤ (further depth ending texts).length := by
  induction texts with
  | nil => exact absurd h List.not_mem_nil
  | cons next texts ih =>
    simp only [further, List.length_append, List.length_cons, String.length_toList] at ih ⊢
    rcases List.mem_cons.mp h with rfl | h
    · omega
    · have hlength := ih h
      omega

theorem length_lt_bracketed {opening closing : String} {mark : Char}
    (hopening : opening.toList = [mark]) (hclosing : closing.toList = [ending]) (depth : Nat)
    {text : String} {texts : List String} (h : text ∈ texts) :
    text.length < (bracketed opening closing depth texts).length := by
  cases texts with
  | nil => exact absurd h List.not_mem_nil
  | cons next texts =>
    rw [← String.length_toList (s := bracketed _ _ _ _), toList_bracketed_cons hclosing, hopening]
    simp only [List.length_append, List.length_cons, String.length_toList]
    rcases List.mem_cons.mp h with rfl | h
    · omega
    · have hlength : text.length ≤ (further depth ending texts).length :=
        length_le_further depth h
      omega

/-- What stands between two marks is read item by item, as long as none is taken for the mark at
the end. -/
theorem enclosed?_bracketed {opening closing : String} {mark : Char}
    (hopening : opening.toList = [mark]) (hclosing : closing.toList = [ending])
    (hending : isBlank ending = false) (hcomma : ending ≠ ',') (depth : Nat)
    {texts : List String} {items : List α} (h : List.Forall₂ (Reads item?) texts items)
    (hapart : ∀ text ∈ texts, BeginsApart ending text) (rest : List Char) : ∃ cs,
    (bracketed opening closing depth texts).toList ++ rest = mark :: cs ∧
      enclosed? item? ending cs = some (items, rest) := by
  cases h with
  | nil =>
    refine ⟨ending :: rest, ?_, enclosed?_none (skip_cons hending rest)⟩
    simp [bracketed, hopening, hclosing]
  | @cons text item texts items hread hlater =>
    obtain ⟨c, cs, htext, hblank, hother⟩ := hapart text List.mem_cons_self
    refine ⟨margin (depth + 1) ++ (text.toList ++ (further depth ending texts ++ rest)), ?_, ?_⟩
    · simp [toList_bracketed_cons hclosing, hopening]
    · have hskip : skip (margin (depth + 1) ++
          (text.toList ++ (further depth ending texts ++ rest))) =
          c :: (cs ++ (further depth ending texts ++ rest)) := by
        rw [skip_append (isBlank_margin _), htext, List.cons_append, skip_cons hblank]
      rw [enclosed?_some hskip hother]
      refine items?_further hread hlater hending hcomma ?_ rest
      have hlength : texts.length < (further depth ending texts).length :=
        length_lt_further depth texts
      simp only [List.length_append]
      omega

end Items

/-! ## Values -/

theorem ne_of_isDigit {c mark : Char} (hc : c.isDigit = true) (hmark : mark.isDigit = false) :
    c ≠ mark := by
  rintro rfl
  rw [hc] at hmark
  cases hmark

theorem isBlank_of_isDigit {c : Char} (hc : c.isDigit = true) : isBlank c = false := by
  simp [isBlank, ne_of_isDigit hc]

theorem exists_toDigits_eq (n : Nat) : ∃ c cs, c.isDigit = true ∧ Nat.toDigits 10 n = c :: cs := by
  obtain ⟨c, cs, hcs⟩ := List.exists_cons_of_ne_nil (Nat.toDigits_ne_nil (n := n) (b := 10))
  exact ⟨c, cs, isDigit_toDigits n c (hcs ▸ List.mem_cons_self), hcs⟩

theorem toList_textAt_number (depth n : Nat) :
    (textAt depth (number n)).toList = Nat.toDigits 10 n := Nat.toList_repr

theorem exists_toList_bracketed (opening closing : String) (depth : Nat) (texts : List String) :
    ∃ cs, (bracketed opening closing depth texts).toList = opening.toList ++ cs := by
  unfold bracketed
  split
  · exact ⟨_, String.toList_append⟩
  · simp only [String.toList_append, List.append_assoc]
    exact ⟨_, rfl⟩

theorem beginsApart_textAt (depth : Nat) (value : Json) : BeginsApart ']' (textAt depth value) := by
  cases value with
  | number n =>
    obtain ⟨c, cs, hc, hcs⟩ := exists_toDigits_eq n
    exact ⟨c, cs, (toList_textAt_number depth n).trans hcs, isBlank_of_isDigit hc,
      ne_of_isDigit hc rfl⟩
  | string s => exact ⟨'"', _, toList_quoted s, rfl, by decide⟩
  | list items =>
    obtain ⟨cs, hcs⟩ := exists_toList_bracketed "[" "]" depth (itemsAt (depth + 1) items)
    exact ⟨'[', cs, hcs, rfl, by decide⟩
  | record fields =>
    obtain ⟨cs, hcs⟩ := exists_toList_bracketed "\x7b" "\x7d" depth (fieldsAt (depth + 1) fields)
    exact ⟨'\x7b', cs, hcs, rfl, by decide⟩

theorem beginsApart_itemsAt (depth : Nat) (items : List Json) :
    ∀ text ∈ itemsAt depth items, BeginsApart ']' text := by
  induction items with
  | nil => exact fun _ h => absurd h List.not_mem_nil
  | cons item items ih => exact List.forall_mem_cons.mpr ⟨beginsApart_textAt depth item, ih⟩

theorem beginsApart_fieldsAt (depth : Nat) (fields : List (String × Json)) :
    ∀ text ∈ fieldsAt depth fields, BeginsApart '\x7d' text := by
  induction fields with
  | nil => exact fun _ h => absurd h List.not_mem_nil
  | cons field fields ih =>
    obtain ⟨name, value⟩ := field
    rw [fieldsAt, List.forall_mem_cons]
    refine ⟨?_, ih⟩
    rw [BeginsApart, String.toList_append, String.toList_append, toList_quoted]
    exact ⟨'"', _, rfl, rfl, by decide⟩

theorem reads_field {fuel depth : Nat} (name : String) {value : Json}
    (h : Reads (value? fuel) (textAt depth value) value) :
    Reads (field? (value? fuel)) (quoted name ++ ": " ++ textAt depth value) (name, value) := by
  intro blanks rest hblanks hrest
  have hcolon : (": ").toList = [':', ' '] := rfl
  have hvalue : value? fuel (' ' :: ((textAt depth value).toList ++ rest)) = some (value, rest) :=
    h [' '] rest (fun _ hc => List.mem_singleton.mp hc ▸ rfl) hrest
  rw [field?, skip_append hblanks, String.toList_append, String.toList_append, toList_quoted,
    hcolon]
  simp only [List.cons_append, List.append_assoc, List.nil_append, skip_cons (c := '"') rfl,
    string?_quoted, Option.bind_eq_bind, Option.bind_some, skip_cons (c := ':') rfl, hvalue,
    String.ofList_toList]
  rfl

theorem value?_number {c : Char} {cs cs' : List Char} (hskip : skip cs = c :: cs')
    (hc : c.isDigit = true) (fuel : Nat) :
    value? (fuel + 1) cs = (number? (c :: cs')).map fun (n, cs) => (.number n, cs) := by
  rw [value?, hskip]
  split
  case h_4 => rfl
  all_goals
    rename_i hhead
    exact absurd (List.cons.inj hhead).1 (ne_of_isDigit hc rfl)

mutual

theorem reads_textAt (depth fuel : Nat) (value : Json) (h : (textAt depth value).length ≤ fuel) :
    Reads (value? fuel) (textAt depth value) value := by
  intro blanks rest hblanks hrest
  -- An item is shorter than the text that holds it, so that the length of the text is enough for
  -- every level below.
  have hfuel : fuel ≠ 0 := by
    obtain ⟨c, cs, hcs, -⟩ := beginsApart_textAt depth value
    rw [← String.length_toList, hcs, List.length_cons] at h
    omega
  obtain ⟨fuel, rfl⟩ := Nat.exists_eq_succ_of_ne_zero hfuel
  cases value with
  | number n =>
    obtain ⟨c, cs, hc, hcs⟩ := exists_toDigits_eq n
    have hskip : skip (blanks ++ ((textAt depth (number n)).toList ++ rest)) =
        c :: (cs ++ rest) := by
      rw [skip_append hblanks, toList_textAt_number, hcs, List.cons_append,
        skip_cons (isBlank_of_isDigit hc)]
    rw [value?_number hskip hc, ← List.cons_append, ← hcs, number?_toDigits n hrest,
      Option.map_some]
  | string s =>
    rw [value?, skip_append hblanks, textAt, toList_quoted]
    simp only [List.cons_append, List.append_assoc, List.nil_append, skip_cons (c := '"') rfl,
      string?_quoted, Option.map_some, String.ofList_toList]
  | list items =>
    have hopening : "[".toList = ['['] := rfl
    have hclosing : "]".toList = [']'] := rfl
    have hitems := reads_itemsAt (depth + 1) fuel items fun text htext =>
      Nat.le_of_lt_succ ((length_lt_bracketed hopening hclosing depth htext).trans_le h)
    obtain ⟨cs, hcs, hread⟩ := enclosed?_bracketed hopening hclosing rfl (by decide) depth hitems
      (beginsApart_itemsAt (depth + 1) items) rest
    rw [value?, skip_append hblanks, textAt, hcs, skip_cons rfl]
    simp only [hread, Option.map_some]
  | record fields =>
    have hopening : "\x7b".toList = ['\x7b'] := rfl
    have hclosing : "\x7d".toList = ['\x7d'] := rfl
    have hfields := reads_fieldsAt (depth + 1) fuel fields fun text htext =>
      Nat.le_of_lt_succ ((length_lt_bracketed hopening hclosing depth htext).trans_le h)
    obtain ⟨cs, hcs, hread⟩ := enclosed?_bracketed hopening hclosing rfl (by decide) depth hfields
      (beginsApart_fieldsAt (depth + 1) fields) rest
    rw [value?, skip_append hblanks, textAt, hcs, skip_cons rfl]
    simp only [hread, Option.map_some]

theorem reads_itemsAt (depth fuel : Nat) (items : List Json)
    (h : ∀ text ∈ itemsAt depth items, text.length ≤ fuel) :
    List.Forall₂ (Reads (value? fuel)) (itemsAt depth items) items := by
  match items with
  | [] => exact .nil
  | item :: items =>
    obtain ⟨hitem, hitems⟩ := List.forall_mem_cons.mp h
    exact .cons (reads_textAt depth fuel item hitem) (reads_itemsAt depth fuel items hitems)

theorem reads_fieldsAt (depth fuel : Nat) (fields : List (String × Json))
    (h : ∀ text ∈ fieldsAt depth fields, text.length ≤ fuel) :
    List.Forall₂ (Reads (field? (value? fuel))) (fieldsAt depth fields) fields := by
  match fields with
  | [] => exact .nil
  | (name, value) :: fields =>
    obtain ⟨hfield, hfields⟩ := List.forall_mem_cons.mp h
    rw [String.length_append] at hfield
    exact .cons (reads_field name (reads_textAt depth fuel value (by omega)))
      (reads_fieldsAt depth fuel fields hfields)

end

/-- The text of a value is read as this value. -/
theorem read?_text (value : Json) : read? value.text = some value := by
  have h := reads_textAt 0 value.text.length value (Nat.le_refl _) [] []
    (fun _ hc => absurd hc List.not_mem_nil) (fun _ hc => nomatch hc)
  rw [List.nil_append, List.append_nil] at h
  rw [read?, text, Option.bind_eq_bind]
  exact (congrArg (Option.bind · _) h).trans rfl

example : read? " [1 ,\"a\\u0041\" , [ ]\n]" =
    some (.list [.number 1, .string "aA", .list []]) := rfl

end Json
end HexMesh
