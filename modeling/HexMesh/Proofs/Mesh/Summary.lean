import HexMesh.Mesh.Summary
import HexMesh.Proofs.Text.Json

/-!
Summaries are read back from the document that holds them.

A record is read by the names of its fields, in whatever order they stand.
-/

namespace HexMesh
namespace Summary

/-- The indicator that names a field, with the count that the field holds. -/
def count? : String × Json → Option (Indicator × Nat)
  | (name, .number n) => (readNat? (2 ^ 32) name.toList).map fun i => (UInt32.ofNat i, n)
  | _ => none

/-- The summary in a record. -/
def ofJson? : Json → Option Summary
  | .record fields =>
    match fields.lookup "dimension", fields.lookup "n_active_cells",
      fields.lookup "boundary_counts", fields.lookup "output" with
    | some (.number dimension), some (.number cellCount), some (.record counts),
      some (.string output) => do
      let boundaryCounts ← counts.mapM count?
      return { dimension, cellCount, boundaryCounts, output }
    | _, _, _, _ => none
  | _ => none

/-- The summaries in a document that holds a list of them. -/
def ofText? (text : String) : Option (List Summary) :=
  match Json.read? text with
  | some (.list items) => items.mapM ofJson?
  | _ => none

theorem mapM_of_inverse {α β : Type} {f : α → β} {g : β → Option α} (h : ∀ a, g (f a) = some a)
    (as : List α) : (as.map f).mapM g = some as := by
  have hpure : g ∘ f = fun a => pure (id a) := funext h
  rw [List.mapM_map, hpure, List.mapM_pure, List.map_id]
  rfl

theorem count?_field (i : Indicator) (n : Nat) : count? (s!"{i}", .number n) = some (i, n) := by
  have hname : (s!"{i}").toList = Nat.toDigits 10 i.toNat := Nat.toList_repr
  rw [count?, hname, readNat?_toDigits i.toNat_lt, Option.map_some, UInt32.ofNat_toNat]

theorem ofJson?_json (s : Summary) : ofJson? s.json = some s := by
  have hcounts := mapM_of_inverse (g := count?) (fun c => count?_field c.1 c.2) s.boundaryCounts
  have hfields : ofJson? s.json =
      (s.boundaryCounts.map fun c => (s!"{c.1}", Json.number c.2)).mapM count? >>= fun counts =>
        some { s with boundaryCounts := counts } := rfl
  rw [hfields, hcounts]
  rfl

theorem ofText?_text (summaries : List Summary) :
    ofText? (Json.list (summaries.map json)).text = some summaries := by
  rw [ofText?, Json.read?_text]
  exact mapM_of_inverse ofJson?_json summaries

end Summary
end HexMesh
