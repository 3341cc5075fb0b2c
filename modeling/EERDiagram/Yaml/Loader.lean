/-! The values of a YAML document, and what is to be known of a loader of them. Which loader it is
makes no difference to anything that follows from these definitions alone. -/
namespace EERDiagram.Yaml

/-- Dates and bytes are told apart from other values, and that is all that is needed of them. -/
inductive Atom where
  | null
  | bool (value : Bool)
  | integer (value : Int)
  | real (value : Float)
  | text (value : String)
  | moment
  | bytes
  deriving DecidableEq, Repr

/-- A mapping holds its keys and the numbers of the values at them. -/
inductive Value where
  | atom (atom : Atom)
  | sequence
  | set
  | mapping (entries : List (Atom × Nat))
  deriving DecidableEq, Repr

/-- The values of a document are numbered, since a collection may hold itself. -/
structure Document where
  root : Value
  values : List (Nat × Value)
  deriving DecidableEq, Repr

namespace Document

def value (d : Document) (number : Nat) : Value := (d.values.lookup number).getD (.atom .null)

/-- The value at a key that is a text. Of equal keys the last counts. -/
def get? (d : Document) (entries : List (Atom × Nat)) (key : String) : Option Value :=
  (entries.reverse.lookup (.text key)).map d.value

end Document

/-- What an error that a loader lets through is about. -/
inductive ErrorKind where
  | value
  | overflow
  | index
  | key
  | attribute
  | type
  | recursion
  | other
  deriving DecidableEq, Repr

/-- Why a text gives no document. -/
inductive LoadError where
  /-- The text is no YAML, which is the one error that a loader tells as its own. -/
  | malformed (details : String)
  | raised (kind : ErrorKind) (details : String)
  deriving DecidableEq, Repr

/-- A loader gives the values of the one document in a text, the null value if there is none. -/
class Loader where
  load : List Char → Except LoadError Document

end EERDiagram.Yaml
