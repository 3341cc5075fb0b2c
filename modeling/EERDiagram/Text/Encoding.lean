import EERDiagram.Text.Basic

/-! Text as bytes, in UTF-8. Decoding stops at the first byte that cannot belong to a character
and says which bytes are at fault and why. -/
namespace EERDiagram.Text

def encodeChar (c : Char) : List UInt8 :=
  let n := c.toNat
  if n < 0x80 then [n.toUInt8]
  else if n < 0x800 then [(0xC0 + n / 0x40).toUInt8, (0x80 + n % 0x40).toUInt8]
  else if n < 0x10000 then
    [(0xE0 + n / 0x1000).toUInt8, (0x80 + n / 0x40 % 0x40).toUInt8, (0x80 + n % 0x40).toUInt8]
  else
    [(0xF0 + n / 0x40000).toUInt8, (0x80 + n / 0x1000 % 0x40).toUInt8,
      (0x80 + n / 0x40 % 0x40).toUInt8, (0x80 + n % 0x40).toUInt8]

def encode (s : List Char) : List UInt8 := s.flatMap encodeChar

inductive DecodeFault where
  | startByte
  | continuationByte
  | endOfData
  deriving DecidableEq, Repr

/-- The bytes from `first` on, `count` of them, begin with `byte` and are no character. -/
structure DecodeError where
  fault : DecodeFault
  byte : UInt8
  first : Nat
  count : Nat
  deriving DecidableEq, Repr

def DecodeFault.message : DecodeFault → String
  | .startByte => "invalid start byte"
  | .continuationByte => "invalid continuation byte"
  | .endOfData => "unexpected end of data"

def DecodeError.message (e : DecodeError) : String :=
  if e.count = 1 then
    let byte := String.ofList (hex 2 e.byte.toNat)
    s!"'utf-8' codec can't decode byte 0x{byte} in position {e.first}: {e.fault.message}"
  else
    let last := e.first + e.count - 1
    s!"'utf-8' codec can't decode bytes in position {e.first}-{last}: {e.fault.message}"

/-- Whether `b` may follow the lead byte: three lead bytes leave out the code points that a
shorter form writes, and two those that are no character. -/
def mayFollow (lead b : Nat) : Bool :=
  0x80 ≤ b && b < 0xC0 && !(lead == 0xE0 && b < 0xA0) && !(lead == 0xED && 0xA0 ≤ b) &&
    !(lead == 0xF0 && b < 0x90) && !(lead == 0xF4 && 0x90 ≤ b)

def continues (b : Nat) : Bool := 0x80 ≤ b && b < 0xC0

def followers? (lead : Nat) : Option Nat :=
  if lead < 0x80 then some 0
  else if lead < 0xC2 then none
  else if lead < 0xE0 then some 1
  else if lead < 0xF0 then some 2
  else if lead < 0xF5 then some 3
  else none

def width (lead : UInt8) : Nat := (followers? lead.toNat).getD 0 + 1

/-- Reads `left` more bytes of a character; `value` is what the bytes read so far say. -/
def decodeFollowers (left value seen : Nat) :
    List UInt8 → Except (DecodeFault × Nat) (Nat × List UInt8)
  | [] => if left = 0 then .ok (value, []) else .error (.endOfData, seen)
  | b :: rest =>
    if left = 0 then .ok (value, b :: rest)
    else if continues b.toNat then
      decodeFollowers (left - 1) (0x40 * value + b.toNat % 0x40) (seen + 1) rest
    else .error (.continuationByte, seen)

/-- The character at the front of the bytes, as its code point, and the bytes after it. -/
def decodeCodePoint (lead : UInt8) (rest : List UInt8) :
    Except (DecodeFault × Nat) (Nat × List UInt8) :=
  match followers? lead.toNat with
  | none => .error (.startByte, 1)
  | some 0 => .ok (lead.toNat, rest)
  | some (n + 1) =>
    match rest with
    | [] => .error (.endOfData, 1)
    | b :: rest =>
      if mayFollow lead.toNat b.toNat then
        decodeFollowers n (0x40 * (lead.toNat % Nat.pow 2 (5 - n)) + b.toNat % 0x40) 2 rest
      else .error (.continuationByte, 1)

/-- Decodes with `fuel` at least the number of bytes; `position` is the index of the first. -/
def decodeFrom : Nat → Nat → List UInt8 → Except DecodeError (List Char)
  | _, _, [] => .ok []
  | 0, _, _ :: _ => .ok []
  | fuel + 1, position, b :: rest =>
    match decodeCodePoint b rest with
    | .error (fault, count) => .error ⟨fault, b, position, count⟩
    | .ok (n, left) =>
      match decodeFrom fuel (position + width b) left with
      | .error e => .error e
      | .ok chars => .ok (Char.ofNat n :: chars)

def decode (bytes : List UInt8) : Except DecodeError (List Char) :=
  decodeFrom bytes.length 0 bytes

end EERDiagram.Text
