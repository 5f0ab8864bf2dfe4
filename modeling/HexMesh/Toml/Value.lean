import HexMesh.Number.Decimal

/-!
The values of a TOML document.

A table remembers how it came about, because the format forbids to write a table
twice and the rules differ for tables with a header of their own, tables that
were only mentioned on the way to another one, tables made by dotted keys, and
tables written inline.
-/

namespace HexMesh
namespace Toml

/-- How a table came about. -/
inductive TableKind where
  /-- By a header of its own. -/
  | header
  /-- By the header of a table inside it. -/
  | implied
  /-- By a dotted key. -/
  | dotted
  /-- In braces, complete in itself. -/
  | inline
  deriving DecidableEq, Repr

/-- A value.  Dates and times are kept as they are written. -/
inductive Value where
  | string (s : String)
  | integer (n : Int)
  | float (d : Decimal)
  | boolean (b : Bool)
  | datetime (text : String)
  /-- The items of an array.  An array of tables is filled by headers, and any other array
  is complete in itself. -/
  | array (ofTables : Bool) (items : List Value)
  | table (kind : TableKind) (entries : List (String × Value))

/-- A table that is being filled. -/
structure Table where
  kind : TableKind
  entries : List (String × Value)

namespace Table

/-- A table without entries. -/
def empty (kind : TableKind) : Table := ⟨kind, []⟩

def get? (t : Table) (key : String) : Option Value := t.entries.lookup key

/-- Replace the entry of a key in its place, or add a new one at the end. -/
def set (t : Table) (key : String) (v : Value) : Table :=
  if (t.get? key).isSome then
    { t with entries := t.entries.map fun e => if e.1 == key then (key, v) else e }
  else { t with entries := t.entries ++ [(key, v)] }

def value (t : Table) : Value := .table t.kind t.entries

/-- Change the table at the end of a path, and make the tables on the way that are missing.

Dotted keys may neither enter tables with a header of their own nor inline tables, and
headers may not enter inline tables.  Within an array of tables the path leads into the
last one. -/
def descend (byDots : Bool) (change : Table → Option Table) :
    List String → Table → Option Table
  | [], t => change t
  | key :: path, t =>
    match t.get? key with
    | none => do
      let inner ← descend byDots change path (empty (if byDots then .dotted else .implied))
      return t.set key inner.value
    | some (.table kind entries) =>
      if kind = .inline ∨ (byDots ∧ kind = .header) then none
      else do
        let inner ← descend byDots change path ⟨kind, entries⟩
        return t.set key inner.value
    | some (.array true items) =>
      match items.getLast? with
      | some (.table kind entries) => do
        let inner ← descend byDots change path ⟨kind, entries⟩
        return t.set key (.array true (items.dropLast ++ [inner.value]))
      | _ => none
    | some _ => none

/-- Enter a value under a key that leads through tables.  Only tables made by dotted keys
may be extended by a dotted key, and no key may be entered twice. -/
def enter (t : Table) (path : List String) (key : String) (v : Value) : Option Table :=
  t.descend true
    (fun inner =>
      if (inner.kind = .dotted ↔ path = []) ∨ (inner.get? key).isSome then none
      else some (inner.set key v))
    path

/-- Open the table named by a header.  It must not exist, or exist only because a table
inside it was named before. -/
def openTable (t : Table) (path : List String) (key : String) : Option Table :=
  t.descend false
    (fun parent =>
      match parent.get? key with
      | none => some (parent.set key (empty .header).value)
      | some (.table .implied entries) => some (parent.set key (.table .header entries))
      | some _ => none)
    path

/-- Open one more table in the array of tables named by a header. -/
def openItem (t : Table) (path : List String) (key : String) : Option Table :=
  t.descend false
    (fun parent =>
      match parent.get? key with
      | none => some (parent.set key (.array true [(empty .header).value]))
      | some (.array true items) =>
        some (parent.set key (.array true (items ++ [(empty .header).value])))
      | some _ => none)
    path

end Table
end Toml
end HexMesh
