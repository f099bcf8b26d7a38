/-
ColumnMasking.Proofs.Json.Grammar — the texts of JSON values.

`Written value cs` says that the characters `cs` are a text of the value. There
is one rule for each production of the JSON grammar, and no rule looks at how a
text is read: white space may stand around every value and every name, a
character of a string may be written as it stands or by an escape, members come
in the order of the text, and a value may be nested to any depth.

What a text says and its value does not keep is what the rules quantify over:
the white space, and which escapes were used.
-/
import ColumnMasking.Json.Reader
import ColumnMasking.Proofs.Text.DigitNumbers

namespace ColumnMasking.Json

/-! ## 1. White space and strings -/

/-- White space and nothing else. -/
def Spaces (cs : List Char) : Prop := ∀ c ∈ cs, isSpace c = true

/-- The characters between the quotes of a string, and the units that they stand
for. -/
inductive StringText : List Char → List UInt16 → Prop
  | nil : StringText [] []
  /-- A character that stands for itself: not a quote, a backslash or a control
  character. -/
  | plain {c : Char} {cs : List Char} {units : List UInt16} (hquote : c ≠ Char.ofNat 0x22)
      (hescape : c ≠ Char.ofNat 0x5C) (hcontrol : 0x20 ≤ c.toNat) (hrest : StringText cs units) :
      StringText (c :: cs) (Utf16.encodeChar c ++ units)
  /-- An escape of a single letter. -/
  | letter {c : Char} {code : Nat} {cs : List Char} {units : List UInt16}
      (hletter : (c, code) ∈ simpleEscapes) (hrest : StringText cs units) :
      StringText (Char.ofNat 0x5C :: c :: cs) (UInt16.ofNat code :: units)
  /-- An escape by the four digits of a unit, of either letter case. -/
  | digits {p q r s : Char} {cs : List Char} {units : List UInt16}
      (hdigits : ∀ c ∈ [p, q, r, s], Hex.IsDigit c) (hrest : StringText cs units) :
      StringText (Char.ofNat 0x5C :: 'u' :: p :: q :: r :: s :: cs)
        (UInt16.ofNat (Hex.number [p, q, r, s]) :: units)

/-- Characters between quotes. -/
def quoted (cs : List Char) : List Char := Char.ofNat 0x22 :: cs ++ [Char.ofNat 0x22]

/-! ## 2. Numbers -/

/-- One decimal digit or more. -/
def Digits (cs : List Char) : Prop := cs ≠ [] ∧ ∀ c ∈ cs, c.isDigit = true

/-- Zero, or digits that do not start with a zero. -/
def Whole (cs : List Char) : Prop := cs = ['0'] ∨ Digits cs ∧ cs.head? ≠ some '0'

/-- Nothing, or a point and digits. -/
def Fraction (cs : List Char) : Prop := cs = [] ∨ ∃ digits, Digits digits ∧ cs = '.' :: digits

/-- Nothing, or a letter, a sign that may be left out, and digits. -/
def Exponent (cs : List Char) : Prop :=
  cs = [] ∨ ∃ e sign digits, (e = 'e' ∨ e = 'E') ∧ (sign = [] ∨ sign = ['+'] ∨ sign = ['-'])
    ∧ Digits digits ∧ cs = e :: (sign ++ digits)

/-- The characters of a number. -/
inductive Numeral : List Char → Prop
  | mk {sign whole fraction exponent : List Char} (hsign : sign = [] ∨ sign = ['-'])
      (hwhole : Whole whole) (hfraction : Fraction fraction) (hexponent : Exponent exponent) :
      Numeral (sign ++ whole ++ fraction ++ exponent)

/-! ## 3. Values -/

mutual

/-- The characters are a text of the value, white space around it included. -/
inductive Written : Json → List Char → Prop
  | mk {value : Json} {before body after : List Char} (hbefore : Spaces before)
      (hbody : Spelled value body) (hafter : Spaces after) :
      Written value (before ++ body ++ after)

/-- The characters are a text of the value, with no white space around it. -/
inductive Spelled : Json → List Char → Prop
  | null : Spelled .null ['n', 'u', 'l', 'l']
  | on : Spelled (.bool true) ['t', 'r', 'u', 'e']
  | off : Spelled (.bool false) ['f', 'a', 'l', 's', 'e']
  | number {cs : List Char} (h : Numeral cs) : Spelled (.number (String.ofList cs)) cs
  | string {cs : List Char} {units : List UInt16} (h : StringText cs units) :
      Spelled (.string units) (quoted cs)
  | emptyArray {cs : List Char} (h : Spaces cs) : Spelled (.array []) ('[' :: cs ++ [']'])
  | array {elements : List Json} {cs : List Char} (h : WrittenElements elements cs) :
      Spelled (.array elements) ('[' :: cs ++ [']'])
  | emptyObject {cs : List Char} (h : Spaces cs) :
      Spelled (.object []) ('\x7b' :: cs ++ ['\x7d'])
  | object {members : List (List UInt16 × Json)} {cs : List Char}
      (h : WrittenMembers members cs) : Spelled (.object members) ('\x7b' :: cs ++ ['\x7d'])

/-- One element or more, with commas between them. -/
inductive WrittenElements : List Json → List Char → Prop
  | last {value : Json} {cs : List Char} (h : Written value cs) : WrittenElements [value] cs
  | more {value : Json} {values : List Json} {cs rest : List Char} (h : Written value cs)
      (hrest : WrittenElements values rest) :
      WrittenElements (value :: values) (cs ++ ',' :: rest)

/-- A name, a colon and a value. -/
inductive WrittenMember : List UInt16 × Json → List Char → Prop
  | mk {before name after cs : List Char} {units : List UInt16} {value : Json}
      (hbefore : Spaces before) (hname : StringText name units) (hafter : Spaces after)
      (hvalue : Written value cs) :
      WrittenMember (units, value) (before ++ quoted name ++ after ++ ':' :: cs)

/-- One member or more, with commas between them. -/
inductive WrittenMembers : List (List UInt16 × Json) → List Char → Prop
  | last {member : List UInt16 × Json} {cs : List Char} (h : WrittenMember member cs) :
      WrittenMembers [member] cs
  | more {member : List UInt16 × Json} {members : List (List UInt16 × Json)}
      {cs rest : List Char} (h : WrittenMember member cs) (hrest : WrittenMembers members rest) :
      WrittenMembers (member :: members) (cs ++ ',' :: rest)

end

end ColumnMasking.Json
