/-
ColumnMasking.Text.Hex — bytes as hexadecimal text.

Writing is in lower case, two digits a byte. There are two readings. The
strict one takes nothing but an even count of digits of either case and
names the first byte that is none. The lenient one passes over all that
is no digit and, where the count is odd, supplies a zero in front; it
never fails.
-/
import ColumnMasking.Text.Quoted
import ColumnMasking.Text.Utf8

namespace ColumnMasking.Hex

/-! ## Digits -/

/-- The lower-case digit of a number below sixteen. -/
def digit (n : Nat) : Char :=
  if n < 10 then Char.ofNat (0x30 + n) else Char.ofNat (0x57 + n)

/-- The value of a digit of either case, given as a byte. -/
def value? (b : UInt8) : Option Nat :=
  if 0x30 ≤ b ∧ b ≤ 0x39 then some (b.toNat - 0x30)
  else if 0x41 ≤ b ∧ b ≤ 0x46 then some (b.toNat - 0x37)
  else if 0x61 ≤ b ∧ b ≤ 0x66 then some (b.toNat - 0x57)
  else none

/-- The values of the digits of a text, all else passed over. -/
def digits (text : String) : List Nat :=
  (Utf8.encode text).filterMap value?

/-- A text of digits alone, and of at least one. -/
def isHex (text : String) : Bool :=
  !text.isEmpty && (Utf8.encode text).all fun b => (value? b).isSome

/-! ## Writing -/

/-- The two digits of a byte. -/
def encodeByte (b : UInt8) : List Char :=
  [digit (b.toNat / 16), digit (b.toNat % 16)]

/-- Lower-case digits, two a byte. -/
def encode (bs : Bytes) : String :=
  String.ofList (bs.flatMap encodeByte)

/-! ## Lenient reading -/

/-- The bytes that an even list of digit values spells. -/
def pack : List Nat → Bytes
  | high :: low :: rest => UInt8.ofNat (16 * high + low) :: pack rest
  | _ => []

/-- The bytes that the digits of a text spell, an odd first digit
standing for a byte of its own. -/
def decodeLenient (text : String) : Bytes :=
  let values := digits text
  pack (if values.length % 2 = 1 then 0 :: values else values)

/-! ## Strict reading -/

/-- Why a text is not strict hexadecimal. -/
inductive Error where
  /-- The count of bytes of the text is odd. -/
  | oddLength
  /-- The byte at this offset is no digit. -/
  | invalidCharacter (byte : UInt8) (offset : Nat)
  deriving DecidableEq, Repr

/-- What is wrong, in words. A byte is shown as the character of its
number. -/
def Error.message : Error → String
  | oddLength => "Odd number of digits"
  | invalidCharacter byte offset =>
    "Invalid character " ++ Quoted.char (Char.ofNat byte.toNat) ++ " at position "
      ++ toString offset

/-- The value of the byte at an offset. -/
def digitAt (offset : Nat) (b : UInt8) : Except Error Nat :=
  match value? b with
  | some v => .ok v
  | none => .error (.invalidCharacter b offset)

/-- Reads pairs of digits from the given offset on. -/
def decodePairs (offset : Nat) : Bytes → Except Error Bytes
  | high :: low :: rest => do
    let h ← digitAt offset high
    let l ← digitAt (offset + 1) low
    let bs ← decodePairs (offset + 2) rest
    return UInt8.ofNat (16 * h + l) :: bs
  | [] => .ok []
  | [_] => .error .oddLength

/-- The bytes of a text of pairs of digits. The length is looked at
before the digits. -/
def decode (text : String) : Except Error Bytes :=
  let bs := Utf8.encode text
  if bs.length % 2 = 1 then .error .oddLength else decodePairs 0 bs

end ColumnMasking.Hex
