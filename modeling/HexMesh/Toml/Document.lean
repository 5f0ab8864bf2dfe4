import HexMesh.Toml.Scalars

/-!
Whole TOML documents.

A document is a sequence of lines, each of them blank, a comment, a header or an
entry.  Headers move to another table, and entries go into the table that was
named last.
-/

namespace HexMesh
namespace Toml

/-! ## Arrays and inline tables -/

/-- The items of an array after its opening bracket.  A comma may follow the last one. -/
def arrayItems (item : Reader Value) : Nat → List Value → Reader (List Value)
  | 0, _, _ => none
  | n + 1, read, cs =>
    match skipSpace false cs with
    | ']' :: cs => some (read.reverse, cs)
    | cs => do
      let (v, cs) ← item cs
      match skipSpace false cs with
      | ',' :: cs => arrayItems item n (v :: read) cs
      | ']' :: cs => some ((v :: read).reverse, cs)
      | _ => none

/-- A key, an equals sign and a value. -/
def entry (item : Reader Value) : Reader ((List String × String) × Value) := fun cs => do
  let (k, cs) ← key cs
  let (v, cs) ← item (skipBlanks (← after '=' (skipBlanks cs)))
  return ((k, v), cs)

/-- The entries of an inline table after its opening brace.  It stands on one line, and no
comma follows the last entry. -/
def inlineEntries (item : Reader Value) : Nat → Table → Reader Table
  | 0, _, _ => none
  | n + 1, t, cs => do
    let (((path, k), v), cs) ← entry item cs
    let t ← t.enter path k v
    match skipBlanks cs with
    | ',' :: cs => inlineEntries item n t cs
    | '}' :: cs => some (t, cs)
    | _ => none

/-- An inline table after its opening brace. -/
def inlineTable (item : Reader Value) : Reader Table := fun cs =>
  match skipBlanks cs with
  | '}' :: cs => some (Table.empty .inline, cs)
  | cs => inlineEntries item (cs.length + 1) (Table.empty .inline) cs

/-- A value in which arrays and inline tables are nested at most so many levels deep. -/
def value : Nat → Reader Value
  | 0, cs => scalarValue cs
  | n + 1, cs =>
    match cs with
    | '[' :: cs =>
      (arrayItems (value n) (cs.length + 1) [] cs).map fun (items, rest) =>
        (.array false items, rest)
    | '{' :: cs => (inlineTable (value n) cs).map fun (t, rest) => (t.value, rest)
    | cs => scalarValue cs

/-! ## Lines -/

/-- The tables read so far, and the path of the table that takes the next entries. -/
structure Document where
  root : Table := Table.empty .header
  current : List String := []

/-- Enter a value into the current table. -/
def Document.enter (doc : Document) (path : List String) (k : String) (v : Value) :
    Option Document := do
  let root ← doc.root.descend false (fun t => t.enter path k v) doc.current
  return { doc with root }

/-- Read a header after its opening bracket. -/
def Document.header (doc : Document) (cs : List Char) : Option (Document × List Char) :=
  match cs with
  | '[' :: cs => do
    let ((path, k), cs) ← key cs
    let cs ← after ']' (← after ']' (skipBlanks cs))
    return ({ root := ← doc.root.openItem path k, current := path ++ [k] }, cs)
  | cs => do
    let ((path, k), cs) ← key cs
    let cs ← after ']' (skipBlanks cs)
    return ({ root := ← doc.root.openTable path k, current := path ++ [k] }, cs)

/-- Read a header or an entry, without the rest of its line. -/
def Document.statement (doc : Document) : List Char → Option (Document × List Char)
  | '[' :: cs => doc.header cs
  | cs => do
    let (((path, k), v), cs) ← entry (value depthLimit) cs
    return (← doc.enter path k v, cs)

/-- Read the lines of a document, at most so many. -/
def Document.lines : Nat → Document → List Char → Option Document
  | 0, _, _ => none
  | n + 1, doc, cs =>
    match skipBlanks cs with
    | [] => some doc
    | cs =>
      match restOfLine? cs with
      | some rest => lines n doc rest
      | none => do
        let (doc, cs) ← doc.statement cs
        lines n doc (← restOfLine? cs)

/-- The text without a byte order mark at its beginning. -/
def withoutMark : List Char → List Char
  | '\ufeff' :: cs => cs
  | cs => cs

/-- Read a document. -/
def parse? (text : String) : Option Table :=
  let cs := withoutMark text.toList
  (Document.lines (cs.length + 1) {} cs).map Document.root

end Toml
end HexMesh
