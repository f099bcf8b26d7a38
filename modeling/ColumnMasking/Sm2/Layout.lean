/-
ColumnMasking.Sm2.Layout — the two orders of the segments of an SM2
ciphertext.

A ciphertext has three segments: the point (C1), the masked text (C2)
and the digest (C3). The point always comes first. Nothing in the bytes
tells which of the other two comes next; the two sides agree on it.
-/
import ColumnMasking.Text.Encoding

namespace ColumnMasking.Sm2

/-- An order of the segments. -/
inductive Layout where
  /-- The former order: the digest last. -/
  | c1c2c3
  /-- The order of the present standard: the digest in the middle. -/
  | c1c3c2
  deriving DecidableEq, Repr

/-- The segments of a ciphertext. -/
structure Segments where
  point : Bytes
  masked : Bytes
  digest : Bytes
  deriving DecidableEq, Repr

namespace Layout

/-- The name of the order. -/
def name : Layout → String
  | c1c2c3 => "C1C2C3"
  | c1c3c2 => "C1C3C2"

/-- The order of the given name, white space around it and ASCII letter
case aside. -/
def ofName (text : String) : Except UnknownName Layout :=
  let given := (Blank.trim text).toUpper
  if given = "C1C2C3" then .ok c1c2c3
  else if given = "C1C3C2" then .ok c1c3c2
  else .error ⟨"SM2 mode", given⟩

/-- The order for callers that pass a number: one is the present
standard, all else the former order. -/
def ofModeType (n : Int) : Layout :=
  if n = 1 then c1c3c2 else c1c2c3

/-- Bytes in the point segment. -/
def pointLength : Nat := 65

/-- Bytes in the digest segment. -/
def digestLength : Nat := 32

/-- The segments put together. -/
def join (layout : Layout) (s : Segments) : Bytes :=
  match layout with
  | c1c2c3 => s.point ++ s.masked ++ s.digest
  | c1c3c2 => s.point ++ s.digest ++ s.masked

/-- The segments of a ciphertext that is long enough for them. -/
def split (layout : Layout) (ciphertext : Bytes) : Segments :=
  let point := ciphertext.take pointLength
  let rest := ciphertext.drop pointLength
  match layout with
  | c1c2c3 =>
    let masked := rest.take (rest.length - digestLength)
    ⟨point, masked, rest.drop (rest.length - digestLength)⟩
  | c1c3c2 => ⟨point, rest.drop digestLength, rest.take digestLength⟩

end Layout

/-- Segments of the right lengths. -/
def Segments.WellFormed (s : Segments) : Prop :=
  s.point.length = Layout.pointLength ∧ s.digest.length = Layout.digestLength

/-- What is put together comes apart again. -/
theorem Layout.split_join (layout : Layout) {s : Segments} (h : s.WellFormed) :
    layout.split (layout.join s) = s := by
  obtain ⟨hp, hd⟩ := h
  cases s with
  | mk point masked digest =>
    simp only at hp hd
    cases layout <;> simp [join, split, List.append_assoc, hp, hd]

end ColumnMasking.Sm2
