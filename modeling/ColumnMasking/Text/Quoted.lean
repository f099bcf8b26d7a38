/-
ColumnMasking.Text.Quoted — text and single characters between quotes,
as messages show them.

The quote in use and the backslash are preceded by a backslash; tab,
line feed, carriage return and the zero character have letters of their
own; any other character that leaves no mark is written by its number in
lower-case hexadecimal between braces; all else stands as it is.
-/
import ColumnMasking.Text.Invisible

namespace ColumnMasking.Quoted

/-- The quote around a text. -/
def doubleQuote : Char := Char.ofNat 0x22

/-- The quote around a single character. -/
def singleQuote : Char := Char.ofNat 0x27

/-- The backslash. -/
def backslash : Char := Char.ofNat 0x5C

/-- A character by its number in hexadecimal between braces. -/
def escapeNumber (c : Char) : List Char :=
  [backslash, 'u', '\x7b'] ++ Nat.toDigits 16 c.toNat ++ ['\x7d']

/-- A character as it stands between quotes of the given kind. -/
def escapeChar (quote c : Char) : List Char :=
  if c = quote ∨ c = backslash then [backslash, c]
  else if c = '\t' then [backslash, 't']
  else if c = '\n' then [backslash, 'n']
  else if c = '\r' then [backslash, 'r']
  else if c = Char.ofNat 0 then [backslash, '0']
  else if Invisible.isInvisible c then escapeNumber c
  else [c]

/-- A text between double quotes. -/
def text (s : String) : String :=
  String.ofList (doubleQuote :: s.toList.flatMap (escapeChar doubleQuote) ++ [doubleQuote])

/-- A character between single quotes. -/
def char (c : Char) : String :=
  String.ofList (singleQuote :: escapeChar singleQuote c ++ [singleQuote])

end ColumnMasking.Quoted
