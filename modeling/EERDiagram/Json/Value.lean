import EERDiagram.Decimal.Form
import EERDiagram.Text.Basic

/-! JSON values, and how they are written: as compact JSON in the characters of ASCII, and as
messages show them. Whole numbers and numbers with a fraction or exponent are different values. An
object is the list of its members in order, each name once. -/
namespace EERDiagram.Json

inductive Value where
  | null
  | bool (value : Bool)
  | integer (value : Int)
  | real (value : Float)
  | text (value : String)
  | array (items : List Value)
  | object (members : List (String × Value))

abbrev Members := List (String × Value)

/-- A repeated name keeps its first place and takes the later value. -/
def Members.insert (name : String) (value : Value) : Members → Members
  | [] => [(name, value)]
  | member :: rest =>
    if member.1 = name then (name, value) :: rest else member :: Members.insert name value rest

def Members.find? (name : String) : Members → Option Value
  | [] => none
  | member :: rest => if member.1 = name then some member.2 else Members.find? name rest

/-- Numbers are written as in messages, with the words that the reader knows. -/
def numberForm : Decimal.Form :=
  { Decimal.plainForm with infinity := "Infinity", notANumber := "NaN" }

def unitEscape (n : Nat) : List Char := '\\' :: 'u' :: Text.hex 4 n

/-- A character outside the printable ones of ASCII is written by its code units. -/
def escapeChar (c : Char) : List Char :=
  if c = '"' ∨ c = '\\' then ['\\', c]
  else if c = '\n' then ['\\', 'n']
  else if c = '\r' then ['\\', 'r']
  else if c = '\t' then ['\\', 't']
  else if c = '\x08' then ['\\', 'b']
  else if c = '\x0c' then ['\\', 'f']
  else if 0x20 ≤ c.toNat ∧ c.toNat < 0x7F then [c]
  else if c.toNat < 0x10000 then unitEscape c.toNat
  else
    unitEscape (0xD800 + (c.toNat - 0x10000) / 0x400) ++
      unitEscape (0xDC00 + (c.toNat - 0x10000) % 0x400)

def renderText (text : String) : List Char := '"' :: text.toList.flatMap escapeChar ++ ['"']

def renderInteger (n : Int) : List Char :=
  Decimal.signText (n < 0) ++ Nat.toDigits 10 n.natAbs

mutual

def Value.render : Value → List Char
  | .null => "null".toList
  | .bool true => "true".toList
  | .bool false => "false".toList
  | .integer n => renderInteger n
  | .real x => numberForm.render x
  | .text s => renderText s
  | .array items => '[' :: renderItems items
  | .object members => '\x7b' :: renderMembers members

/-- The items after an opening bracket, and the closing one. -/
def renderItems : List Value → List Char
  | [] => [']']
  | [item] => item.render ++ [']']
  | item :: items => item.render ++ ',' :: renderItems items

def renderMembers : List (String × Value) → List Char
  | [] => ['\x7d']
  | [(name, value)] => renderText name ++ ':' :: value.render ++ ['\x7d']
  | (name, value) :: members => renderText name ++ ':' :: value.render ++ ',' :: renderMembers members

end

mutual

def Value.shown : Value → String
  | .null => "None"
  | .bool true => "True"
  | .bool false => "False"
  | .integer n => toString n
  | .real x => Decimal.text x
  | .text s => Text.quoted s
  | .array items => "[" ++ shownItems items ++ "]"
  | .object members => "\x7b" ++ shownMembers members ++ "\x7d"

def shownItems : List Value → String
  | [] => ""
  | [item] => item.shown
  | item :: items => item.shown ++ ", " ++ shownItems items

def shownMembers : List (String × Value) → String
  | [] => ""
  | [(name, value)] => Text.quoted name ++ ": " ++ value.shown
  | (name, value) :: members => Text.quoted name ++ ": " ++ value.shown ++ ", " ++ shownMembers members

end

end EERDiagram.Json
