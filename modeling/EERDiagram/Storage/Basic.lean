import EERDiagram.Text.Basic
import EERDiagram.Text.Encoding
import EERDiagram.Text.Lines

/-! Paths, and storage of files in directories as far as the program uses it: four operations, and
what is made of them. -/
namespace EERDiagram

/-! A path says where it starts and which names to follow from there. Reading one drops the names
that lead nowhere, so a path is shown in its shortest form; the name of the directory above is
kept, since what it leads to depends on the names before it. -/

/-- Two slashes at the front are a root of their own. -/
inductive Path.Start where
  | here
  | root
  | doubleRoot
  deriving DecidableEq, Repr

structure Path where
  start : Path.Start
  names : List String
  deriving DecidableEq, Repr

namespace Path

def parts (s : List Char) : List (List Char) :=
  match s with
  | [] => [[]]
  | c :: rest =>
    if c = '/' then [] :: parts rest
    else match parts rest with
      | [] => [[c]]
      | part :: others => (c :: part) :: others

def leadsOn (part : List Char) : Bool := part != [] && part != ['.']

def ofText (text : String) : Path where
  start := match text.toList with
    | '/' :: '/' :: '/' :: _ => .root
    | '/' :: '/' :: _ => .doubleRoot
    | '/' :: _ => .root
    | _ => .here
  names := ((parts text.toList).filter leadsOn).map String.ofList

def Start.text : Start → String
  | .here => ""
  | .root => "/"
  | .doubleRoot => "//"

/-- The empty path is shown as the place it starts from. -/
def text (p : Path) : String :=
  match p.start, p.names with
  | .here, [] => "."
  | start, names => start.text ++ String.intercalate "/" names

def parent (p : Path) : Path := { p with names := p.names.dropLast }

def child (p : Path) (name : String) : Path := { p with names := p.names ++ [name] }

end Path

inductive StorageFault where
  | notFound
  | exists
  | notDirectory
  | isDirectory
  deriving DecidableEq, Repr

def StorageFault.number : StorageFault → Nat
  | .notFound => 2
  | .exists => 17
  | .notDirectory => 20
  | .isDirectory => 21

def StorageFault.text : StorageFault → String
  | .notFound => "No such file or directory"
  | .exists => "File exists"
  | .notDirectory => "Not a directory"
  | .isDirectory => "Is a directory"

structure StorageError where
  fault : StorageFault
  path : Path
  deriving DecidableEq, Repr

def StorageError.message (e : StorageError) : String :=
  s!"[Errno {e.fault.number}] {e.fault.text}: {Text.quoted e.path.text}"

inductive EntryKind where
  | file
  | directory
  deriving DecidableEq, Repr

/-- What the program needs of a storage. Asking for the kind of what a path leads to never fails:
a path that leads nowhere has none. -/
class Storage (m : Type → Type) where
  kind? : Path → m (Option EntryKind)
  read : Path → m (Except StorageError (List UInt8))
  write : Path → List UInt8 → m (Except StorageError Unit)
  makeDirectory : Path → m (Except StorageError Unit)

inductive FileError where
  | storage (error : StorageError)
  | decoding (error : Text.DecodeError)
  deriving DecidableEq, Repr

def FileError.message : FileError → String
  | .storage error => error.message
  | .decoding error => error.message

namespace Storage

variable {m : Type → Type} [Monad m] [Storage m]

/-- The text of a file, its line endings as they are. -/
def readText (path : Path) : m (Except FileError (List Char)) := do
  match ← read path with
  | .error e => return .error (.storage e)
  | .ok bytes =>
    match Text.decode bytes with
    | .error e => return .error (.decoding e)
    | .ok text => return .ok text

def writeText (path : Path) (text : List Char) : m (Except StorageError Unit) :=
  write path (Text.encode text)

/-- A directory that cannot be made because something is there is as good as made, if what is
there is a directory. -/
def settle (path : Path) (result : Except StorageError Unit) : m (Except StorageError Unit) := do
  match result with
  | .ok () => return .ok ()
  | .error e =>
    if e.fault ≠ .notFound ∧ (← kind? path) = some .directory then return .ok ()
    else return .error e

/-- Makes a directory, and first those above it if they are missing. -/
def makeDirectories (path : Path) : m (Except StorageError Unit) := do
  let first ← makeDirectory path
  match first with
  | .ok () => return .ok ()
  | .error e =>
    if _h : e.fault = .notFound ∧ path.names ≠ [] then
      match ← makeDirectories path.parent with
      | .error e => return .error e
      | .ok () => settle path (← makeDirectory path)
    else settle path (.error e)
termination_by path.names.length
decreasing_by
  have := List.length_pos_iff.2 _h.2
  simp only [Path.parent, List.length_dropLast]
  omega

end Storage

end EERDiagram
