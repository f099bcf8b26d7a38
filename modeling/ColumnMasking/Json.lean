/-
ColumnMasking.Json — JSON values, and reading them as names, switches,
bytes and records.

A value keeps what its text says and no more: a number its digits, a
string its UTF-16 units, an object its members in order, repeated names
included. Whether a string is text, a number a byte or a name repeated
is asked when the value is read as something.
-/
import ColumnMasking.Text.Utf16

namespace ColumnMasking

/-- A JSON value. -/
inductive Json where
  | null
  | bool (b : Bool)
  /-- A number as it is written. -/
  | number (literal : String)
  | string (units : List UInt16)
  | array (elements : List Json)
  | object (members : List (List UInt16 × Json))

namespace Json

/-! ## Making values -/

/-- The string of a text. -/
def ofText (text : String) : Json := .string (Utf16.encode text)

/-- The number of a natural number. -/
def ofNat (n : Nat) : Json := .number (toString n)

/-- The object with the given members. -/
def record (members : List (String × Json)) : Json :=
  .object (members.map fun (name, value) => (Utf16.encode name, value))

/-- The array of the numbers of bytes. -/
def ofBytes (bs : Bytes) : Json :=
  .array (bs.map fun b => ofNat b.toNat)

/-! ## Reading values -/

/-- The text of a string. -/
def text? : Json → Option String
  | string units => Utf16.decode? units
  | _ => none

/-- The switch that is written `true` or `false`. -/
def bool? : Json → Option Bool
  | bool b => some b
  | _ => none

/-- The byte that a number without sign, fraction and exponent spells. -/
def byte? : Json → Option UInt8
  | number literal =>
    if literal.toList.all Char.isDigit then
      let n := literal.toList.foldl (fun n c => 10 * n + (c.toNat - 0x30)) 0
      if n < 256 then some (UInt8.ofNat n) else none
    else none
  | _ => none

/-- The bytes that an array of numbers spells. -/
def bytes? : Json → Option Bytes
  | array elements => elements.mapM byte?
  | _ => none

/-- The members of an object by name; a name that is no text spoils the
object. -/
def members? : Json → Option (List (String × Json))
  | object members => members.mapM fun (name, value) => (Utf16.decode? name).map (·, value)
  | _ => none

/-- One of several named choices: its name, or an object with that name
alone and null for its value. -/
def choice? {α : Type} (choices : List (String × α)) : Json → Option α
  | object [(name, null)] => do choices.lookup (← Utf16.decode? name)
  | string units => do choices.lookup (← Utf16.decode? units)
  | _ => none

/-- The member of the given name as `read` takes it, and `default` when
there is none. A repeated name is refused. -/
def field? {α : Type} (members : List (String × Json)) (name : String) (default : α)
    (read : Json → Option α) : Option α :=
  match members.filter (·.1 = name) with
  | [] => some default
  | [(_, value)] => read value
  | _ => none

/-- The element at a place of an array as `read` takes it, and `default`
when the array is shorter. -/
def element? {α : Type} (elements : List Json) (place : Nat) (default : α)
    (read : Json → Option α) : Option α :=
  match elements[place]? with
  | none => some default
  | some value => read value

end Json
end ColumnMasking
