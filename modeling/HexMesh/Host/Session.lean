import HexMesh.Host.Disk

/-!
A world that is a value.

A session holds some storage, everything that was told, and what a run may ask
its surroundings for.  Storage is a class of its own, so that what is said about
runs in a session holds for any kind of it, however it refuses.
-/

namespace HexMesh

/-- A kind of storage.  An action that is refused leaves the storage as it was. -/
class Storage (σ : Type) where
  read : σ → String → Except ReadRefusal (List UInt8)
  isThere : σ → String → Bool
  create : σ → String → String → Except Refusal σ
  isDirectory : σ → String → Bool
  makeDirectory : σ → String → Except Refusal σ

instance : Storage Disk where
  read := Disk.read
  isThere := Disk.isThere
  create := Disk.create
  isDirectory := Disk.isDirectory
  makeDirectory := Disk.makeDirectory

/-- The world of a run. -/
structure Session (σ : Type) where
  storage : σ
  /-- The lines that went to the terminal. -/
  said : List String := []
  /-- The lines about faults. -/
  warned : List String := []
  home : Option String := none
  settingsDirectory : Option String := none
  /-- The random words of this run. -/
  words : WordStream := Random.ofSeed 0

namespace Session

variable {σ : Type} [Storage σ]

/-- Change the storage, unless the change is refused. -/
def change (f : σ → Except Refusal σ) : StateM (Session σ) (Except Refusal Unit) := do
  let s ← get
  match f s.storage with
  | .ok storage =>
    set { s with storage }
    return .ok ()
  | .error reason => return .error reason

instance : Host (StateM (Session σ)) where
  read path := do return Storage.read (← get).storage path
  isThere path := do return Storage.isThere (← get).storage path
  create path text := change fun storage => Storage.create storage path text
  isDirectory path := do return Storage.isDirectory (← get).storage path
  makeDirectory path := change fun storage => Storage.makeDirectory storage path
  say line := modify fun s => { s with said := s.said ++ [line] }
  warn line := modify fun s => { s with warned := s.warned ++ [line] }
  home? := do return (← get).home
  settingsDirectory? := do return (← get).settingsDirectory
  words := do return (← get).words
  elapsed := return 0

end Session
end HexMesh
