/-
ColumnMasking.Json.Printer — JSON values as indented text.

Each member and each element stands on a line of its own, two spaces
further in than what holds it. Empty arrays and objects stay on one
line. In strings the quote, the backslash and control characters are
escaped, and surrogates without their other half are written by number.
-/
import ColumnMasking.Json

namespace ColumnMasking.Json

/-! ## Strings -/

/-- A hexadecimal number in four digits. -/
def fourDigits (n : Nat) : List Char :=
  let digits := Nat.toDigits 16 n
  List.replicate (4 - digits.length) '0' ++ digits

/-- An escape sequence of the given letter. -/
def escapeLetter (letter : Char) : List Char := [Char.ofNat 0x5C, letter]

/-- A character within quotes. -/
def escapeChar (c : Char) : List Char :=
  if c = Char.ofNat 0x22 ∨ c = Char.ofNat 0x5C then escapeLetter c
  else if c.toNat = 0x08 then escapeLetter 'b'
  else if c.toNat = 0x0C then escapeLetter 'f'
  else if c = '\n' then escapeLetter 'n'
  else if c = '\r' then escapeLetter 'r'
  else if c = '\t' then escapeLetter 't'
  else if c.toNat < 0x20 then escapeLetter 'u' ++ fourDigits c.toNat
  else [c]

/-- A string between quotes. -/
def quoteUnits (units : List UInt16) : List Char :=
  let body := (Utf16.pieces units).flatMap fun
    | .char c => escapeChar c
    | .surrogate u => escapeLetter 'u' ++ fourDigits u.toNat
  Char.ofNat 0x22 :: body ++ [Char.ofNat 0x22]

/-! ## Lines -/

/-- A line break and the indentation of a line. -/
def newLine (depth : Nat) : List Char :=
  '\n' :: List.replicate (2 * depth) ' '

mutual

/-- A value whose lines stand `depth` steps in. -/
def render (depth : Nat) : Json → List Char
  | null => ['n', 'u', 'l', 'l']
  | bool true => ['t', 'r', 'u', 'e']
  | bool false => ['f', 'a', 'l', 's', 'e']
  | number literal => literal.toList
  | string units => quoteUnits units
  | array elements => '[' :: renderElements depth elements ++ [']']
  | object members => '\x7b' :: renderMembers depth members ++ ['\x7d']

/-- The elements of an array, each on a line, and the line break before
the closing bracket. -/
def renderElements (depth : Nat) : List Json → List Char
  | [] => []
  | [e] => newLine (depth + 1) ++ render (depth + 1) e ++ newLine depth
  | e :: rest => newLine (depth + 1) ++ render (depth + 1) e ++ ',' :: renderElements depth rest

/-- The members of an object, each on a line, and the line break before
the closing brace. -/
def renderMembers (depth : Nat) : List (List UInt16 × Json) → List Char
  | [] => []
  | [m] => newLine (depth + 1) ++ renderMember (depth + 1) m ++ newLine depth
  | m :: rest =>
    newLine (depth + 1) ++ renderMember (depth + 1) m ++ ',' :: renderMembers depth rest

/-- A name and its value. -/
def renderMember (depth : Nat) : List UInt16 × Json → List Char
  | (name, value) => quoteUnits name ++ [':', ' '] ++ render depth value

end

/-- The indented text of a value. -/
def pretty (value : Json) : String :=
  String.ofList (render 0 value)

end ColumnMasking.Json
