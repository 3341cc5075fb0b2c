import EERDiagram.Storage.Basic

/-! A storage held as a value. Every file and directory has a place, the names that lead to it
from the root; relative paths start from the working directory. -/
namespace EERDiagram

inductive Tree.Entry where
  | file (bytes : List UInt8)
  | directory
  deriving DecidableEq, Repr

structure Tree where
  workingDirectory : List String
  entries : List (List String × Tree.Entry)
  deriving DecidableEq, Repr

namespace Tree

/-- The root is always there. -/
def entry? (t : Tree) (place : List String) : Option Entry :=
  if place = [] then some .directory else t.entries.lookup place

def file? (t : Tree) (place : List String) : Option (List UInt8) :=
  match t.entry? place with
  | some (.file bytes) => some bytes
  | _ => none

def put (t : Tree) (place : List String) (entry : Entry) : Tree :=
  { t with entries := go t.entries }
where
  go : List (List String × Entry) → List (List String × Entry)
    | [] => [(place, entry)]
    | (other, e) :: rest => if other = place then (place, entry) :: rest else (other, e) :: go rest

/-- Follows names from a place. Only directories lead on, and the root is above itself. -/
def follow (t : Tree) (place : List String) : List String → Except StorageFault (List String)
  | [] => .ok place
  | name :: rest =>
    match t.entry? place with
    | some .directory => t.follow (if name = ".." then place.dropLast else place ++ [name]) rest
    | some (.file _) => .error .notDirectory
    | none => .error .notFound

/-- The place a path leads to, where there need not be anything yet. -/
def locate (t : Tree) (path : Path) : Except StorageFault (List String) :=
  t.follow (match path.start with
    | .here => t.workingDirectory
    | _ => []) path.names

def kind? (t : Tree) (path : Path) : Option EntryKind :=
  match t.locate path with
  | .error _ => none
  | .ok place =>
    match t.entry? place with
    | none => none
    | some (.file _) => some .file
    | some .directory => some .directory

def read (t : Tree) (path : Path) : Except StorageError (List UInt8) :=
  match t.locate path with
  | .error fault => .error ⟨fault, path⟩
  | .ok place =>
    match t.entry? place with
    | none => .error ⟨.notFound, path⟩
    | some .directory => .error ⟨.isDirectory, path⟩
    | some (.file bytes) => .ok bytes

def write (t : Tree) (path : Path) (bytes : List UInt8) : Except StorageError Tree :=
  match t.locate path with
  | .error fault => .error ⟨fault, path⟩
  | .ok place =>
    match t.entry? place with
    | some .directory => .error ⟨.isDirectory, path⟩
    | _ => .ok (t.put place (.file bytes))

def makeDirectory (t : Tree) (path : Path) : Except StorageError Tree :=
  match t.locate path with
  | .error fault => .error ⟨fault, path⟩
  | .ok place =>
    match t.entry? place with
    | none => .ok (t.put place .directory)
    | some _ => .error ⟨.exists, path⟩

/-- A change that fails leaves the tree as it is. -/
def change (f : Tree → Except StorageError Tree) : StateM Tree (Except StorageError Unit) :=
  fun t =>
    match f t with
    | .ok t => (.ok (), t)
    | .error e => (.error e, t)

instance : Storage (StateM Tree) where
  kind? path := fun t => (t.kind? path, t)
  read path := fun t => (t.read path, t)
  write path bytes := change (·.write path bytes)
  makeDirectory path := change (·.makeDirectory path)

end Tree
end EERDiagram
