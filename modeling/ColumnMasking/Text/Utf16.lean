/-
ColumnMasking.Text.Utf16 — text as UTF-16 code units, and what units that
are no text still stand for.

A character beyond the first plane is two units, a high surrogate and a
low one. A list of units is text when every surrogate belongs to such a
pair. Where bytes are asked for, a surrogate on its own is written in
the three bytes that its number would take.
-/
import ColumnMasking.Text.Utf8

namespace ColumnMasking.Utf16

/-- The units of a character. -/
def encodeChar (c : Char) : List UInt16 :=
  if c.toNat < 0x10000 then [UInt16.ofNat c.toNat]
  else
    let n := c.toNat - 0x10000
    [UInt16.ofNat (0xD800 + n / 0x400), UInt16.ofNat (0xDC00 + n % 0x400)]

/-- The units of a text. -/
def encode (text : String) : List UInt16 :=
  text.toList.flatMap encodeChar

/-- The first unit of a pair. -/
def isHigh (u : UInt16) : Bool := 0xD800 ≤ u && u ≤ 0xDBFF

/-- The second unit of a pair. -/
def isLow (u : UInt16) : Bool := 0xDC00 ≤ u && u ≤ 0xDFFF

/-- The character of a pair. -/
def pair (high low : UInt16) : Char :=
  Char.ofNat (0x10000 + (high.toNat - 0xD800) * 0x400 + (low.toNat - 0xDC00))

/-- What a unit or a pair of units stands for. -/
inductive Piece where
  | char (c : Char)
  /-- A surrogate without its other half. -/
  | surrogate (u : UInt16)
  deriving DecidableEq, Repr

/-- What a unit stands for that is not part of a pair. -/
def single (u : UInt16) : Piece :=
  if isHigh u || isLow u then .surrogate u else .char (Char.ofNat u.toNat)

/-- What the units stand for, pairs taken from the left. -/
def pieces : List UInt16 → List Piece
  | [] => []
  | [u] => [single u]
  | u :: v :: rest =>
    if isHigh u && isLow v then .char (pair u v) :: pieces rest
    else single u :: pieces (v :: rest)

/-- The character of a piece. -/
def Piece.char? : Piece → Option Char
  | char c => some c
  | surrogate _ => none

/-- The bytes of a piece. -/
def Piece.toBytes : Piece → Bytes
  | char c => String.utf8EncodeChar c
  | surrogate u =>
    [UInt8.ofNat (0xE0 + u.toNat / 0x1000), UInt8.ofNat (0x80 + u.toNat / 0x40 % 0x40),
     UInt8.ofNat (0x80 + u.toNat % 0x40)]

/-- The text of the units, or none when a surrogate lacks its other half. -/
def decode? (units : List UInt16) : Option String :=
  ((pieces units).mapM Piece.char?).map String.ofList

/-- The bytes of the units: those of the text where they are text. -/
def toBytes (units : List UInt16) : Bytes :=
  (pieces units).flatMap Piece.toBytes

end ColumnMasking.Utf16
