/-
ColumnMasking.Text.Base64 — bytes as Base64 text in the standard
alphabet with canonical padding.

Each group of three bytes becomes four symbols; a last group of one or
two bytes becomes two or three symbols and is filled up with `=`.
Reading accepts what writing produces and says of any other text which
rule it breaks first. All groups but the last hold symbols alone. Of the
last group the rules are, in this order: every symbol before the first
`=` is in the alphabet; an `=` stands at its third or fourth place and
only `=` follows it; there are two symbols at least; symbols and padding
make four; the bits of the last symbol that belong to no byte are zero.
-/
import ColumnMasking.Text.Utf8

namespace ColumnMasking.Base64

/-! ## The alphabet -/

/-- The symbol of a number below 64. -/
def symbol (n : Nat) : Char :=
  if n < 26 then Char.ofNat (0x41 + n)
  else if n < 52 then Char.ofNat (0x61 + (n - 26))
  else if n < 62 then Char.ofNat (0x30 + (n - 52))
  else if n = 62 then '+' else '/'

/-- The number of a symbol, given as a byte. -/
def value? (b : UInt8) : Option Nat :=
  if 0x41 ≤ b ∧ b ≤ 0x5A then some (b.toNat - 0x41)
  else if 0x61 ≤ b ∧ b ≤ 0x7A then some (b.toNat - 0x61 + 26)
  else if 0x30 ≤ b ∧ b ≤ 0x39 then some (b.toNat - 0x30 + 52)
  else if b = 0x2B then some 62
  else if b = 0x2F then some 63
  else none

/-- The byte `=`. -/
def pad : UInt8 := 0x3D

/-! ## Writing -/

/-- The symbols of the bytes, in groups. -/
def encodeChars : Bytes → List Char
  | [] => []
  | [a] =>
    let n := a.toNat * 16
    [symbol (n / 64), symbol (n % 64), '=', '=']
  | [a, b] =>
    let n := (a.toNat * 256 + b.toNat) * 4
    [symbol (n / 4096), symbol (n / 64 % 64), symbol (n % 64), '=']
  | a :: b :: c :: rest =>
    let n := (a.toNat * 256 + b.toNat) * 256 + c.toNat
    symbol (n / 262144) :: symbol (n / 4096 % 64) :: symbol (n / 64 % 64) :: symbol (n % 64)
      :: encodeChars rest

/-- The Base64 text of the bytes. -/
def encode (bs : Bytes) : String :=
  String.ofList (encodeChars bs)

/-! ## Reading -/

/-- Why a text is not canonical Base64. -/
inductive Error where
  /-- The byte at this offset has no place there. -/
  | invalidSymbol (byte : UInt8) (offset : Nat)
  /-- The text ends in a single symbol. -/
  | invalidLength (length : Nat)
  /-- The last symbol, at this offset, has bits that belong to no byte. -/
  | invalidLastSymbol (byte : UInt8) (offset : Nat)
  /-- The padding does not fill up the last group. -/
  | invalidPadding
  deriving DecidableEq, Repr

/-- What is wrong, in words. -/
def Error.message : Error → String
  | invalidSymbol byte offset =>
    "Invalid symbol " ++ toString byte.toNat ++ ", offset " ++ toString offset ++ "."
  | invalidLength length => "Invalid input length: " ++ toString length
  | invalidLastSymbol byte offset =>
    "Invalid last symbol " ++ toString byte.toNat ++ ", offset " ++ toString offset ++ "."
  | invalidPadding => "Invalid padding"

/-- The number of the symbol at an offset. -/
def valueAt (offset : Nat) (b : UInt8) : Except Error Nat :=
  match value? b with
  | some v => .ok v
  | none => .error (.invalidSymbol b offset)

/-- The numbers of the symbols from an offset on. -/
def valuesFrom (offset : Nat) : Bytes → Except Error (List Nat)
  | [] => .ok []
  | b :: rest => do
    let v ← valueAt offset b
    let vs ← valuesFrom (offset + 1) rest
    return v :: vs

/-- The three bytes of four symbols. -/
def joinFour (v w x y : Nat) : Bytes :=
  let n := ((v * 64 + w) * 64 + x) * 64 + y
  [UInt8.ofNat (n / 65536), UInt8.ofNat (n / 256), UInt8.ofNat n]

/-- The bytes of the numbers of a last group that is complete. -/
def joinLast (offset : Nat) (symbols : Bytes) : List Nat → Except Error Bytes
  | [v, w] =>
    if w % 16 = 0 then .ok [UInt8.ofNat (v * 4 + w / 16)]
    else .error (.invalidLastSymbol (symbols.getD 1 0) (offset + 1))
  | [v, w, x] =>
    if x % 4 = 0 then
      let n := (v * 64 + w) * 16 + x / 4
      .ok [UInt8.ofNat (n / 256), UInt8.ofNat n]
    else .error (.invalidLastSymbol (symbols.getD 2 0) (offset + 2))
  | [v, w, x, y] => .ok (joinFour v w x y)
  | _ => .error .invalidPadding

/-- Reads the last group, of four bytes at most. -/
def decodeLast (offset : Nat) (group : Bytes) : Except Error Bytes := do
  let symbols := group.takeWhile (· ≠ pad)
  let padding := group.dropWhile (· ≠ pad)
  let values ← valuesFrom offset symbols
  let count := symbols.length
  if padding ≠ [] ∧ (count < 2 ∨ padding.any (· ≠ pad)) then
    throw (.invalidSymbol pad (offset + count))
  if count < 2 then throw (.invalidLength (offset + count))
  if (count + padding.length) % 4 ≠ 0 then throw .invalidPadding
  joinLast offset symbols values

/-- Reads group after group from an offset on. -/
def decodeFrom (offset : Nat) : Bytes → Except Error Bytes
  | a :: b :: c :: d :: e :: rest => do
    let v ← valueAt offset a
    let w ← valueAt (offset + 1) b
    let x ← valueAt (offset + 2) c
    let y ← valueAt (offset + 3) d
    let bs ← decodeFrom (offset + 4) (e :: rest)
    return joinFour v w x y ++ bs
  | group => decodeLast offset group

/-- A last byte that would be a group of its own, is no `=` and is not
in the alphabet is reported before all else. -/
def strayLast? (bs : Bytes) : Option Error :=
  match bs.getLast? with
  | some b =>
    if bs.length % 4 = 1 ∧ b ≠ pad ∧ value? b = none then
      some (.invalidSymbol b (bs.length - 1))
    else none
  | none => none

/-- The bytes of a Base64 text. -/
def decode (text : String) : Except Error Bytes :=
  let bs := Utf8.encode text
  if bs = [] then .ok []
  else match strayLast? bs with
    | some e => .error e
    | none => decodeFrom 0 bs

end ColumnMasking.Base64
