/-
ColumnMasking.Text.Integer — whole numbers of 32 bits as decimal text.

A number is an optional sign and at least one ASCII digit. Leading zeros
count for nothing. A number that 32 bits with a sign cannot hold is
refused, not wrapped around.
-/

namespace ColumnMasking.Integer

/-- The number that a list of digits spells, of which there has to be
one. -/
def natural? (digits : List Char) : Option Nat :=
  if digits ≠ [] ∧ digits.all Char.isDigit = true then
    some (digits.foldl (fun n c => 10 * n + (c.toNat - 0x30)) 0)
  else none

/-- The number that a sign and digits spell. -/
def signed? : List Char → Option Int
  | '+' :: digits => (natural? digits).map Int.ofNat
  | '-' :: digits => (natural? digits).map fun n => -Int.ofNat n
  | digits => (natural? digits).map Int.ofNat

/-- The number of 32 bits that a text spells. -/
def int32? (text : List Char) : Option Int :=
  match signed? text with
  | some n => if -0x80000000 ≤ n ∧ n < 0x80000000 then some n else none
  | none => none

end ColumnMasking.Integer
