import EERDiagram.Text.Basic
import EERDiagram.Yaml.Loader

/-! What can be wrong with a YAML text. Most faults are of its form and are one case here; the
others are scalars whose text does not spell a value of their type. -/
namespace EERDiagram.Yaml

inductive DateFault where
  | year (n : Nat)
  | month
  | day
  | hour
  | minute
  | second
  /-- An offset from universal time of a day or more, in minutes. -/
  | offset (span : Int)
  deriving DecidableEq, Repr

def spanText (minutes : Int) : String :=
  let days := minutes.fdiv 1440
  let seconds := (minutes - 1440 * days) * 60
  if seconds = 0 then s!"datetime.timedelta(days={days})"
  else s!"datetime.timedelta(days={days}, seconds={seconds})"

def DateFault.message : DateFault → String
  | .year n => s!"year {n} is out of range"
  | .month => "month must be in 1..12"
  | .day => "day is out of range for month"
  | .hour => "hour must be in 0..23"
  | .minute => "minute must be in 0..59"
  | .second => "second must be in 0..59"
  | .offset span =>
    "offset must be a timedelta strictly between -timedelta(hours=24) and timedelta(hours=24), not "
      ++ spanText span ++ "."

inductive Fault where
  | malformed
  /-- A numeric escape beyond the last code point. -/
  | escapeRange
  /-- A numeric escape beyond the integers of a machine word. -/
  | escapeOverflow
  | emptyNumber
  | integerText (base : Nat) (text : String)
  | tooManyDigits (digits : Nat)
  | floatText (text : String)
  | booleanText (text : String)
  | dateText
  /-- A mapping that stands for the text of a date. -/
  | dateMapping
  | date (fault : DateFault)
  /-- A place of a number in base 60 that no double is near enough to stand for. -/
  | placeOverflow
  /-- A mapping that stands for a scalar and is the scalar it stands for. -/
  | endless
  deriving DecidableEq, Repr

def Fault.message : Fault → String
  | .malformed => "the text is not well formed"
  | .escapeRange => "chr() arg not in range(0x110000)"
  | .escapeOverflow => "Python int too large to convert to C int"
  | .emptyNumber => "string index out of range"
  | .integerText base text => s!"invalid literal for int() with base {base}: {Text.quoted text}"
  | .tooManyDigits digits =>
    s!"Exceeds the limit (4300 digits) for integer string conversion: value has {digits} digits; use sys.set_int_max_str_digits() to increase the limit"
  | .floatText text => "could not convert string to float: " ++ Text.quoted text
  | .booleanText text => Text.quoted text
  | .dateText => "'NoneType' object has no attribute 'groupdict'"
  | .dateMapping => "expected string or bytes-like object, got 'list'"
  | .date fault => fault.message
  | .placeOverflow => "int too large to convert to float"
  | .endless => "maximum recursion depth exceeded"

def Fault.kind : Fault → ErrorKind
  | .escapeOverflow | .placeOverflow => .overflow
  | .emptyNumber => .index
  | .booleanText _ => .key
  | .dateText => .attribute
  | .dateMapping => .type
  | .endless => .recursion
  | _ => .value

def Fault.error (fault : Fault) : LoadError :=
  if fault = .malformed then .malformed fault.message else .raised fault.kind fault.message

end EERDiagram.Yaml
