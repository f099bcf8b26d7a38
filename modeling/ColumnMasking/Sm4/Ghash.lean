/-
ColumnMasking.Sm4.Ghash — the polynomial hash of the counter mode, over
the field of 2^128 elements.

An element is a block read as a bit string whose first bit is the
constant coefficient. The product adds shifted copies of one factor, one
for each bit of the other; a shift past the end is reduced by the field
polynomial. The hash of blocks is the polynomial with those coefficients
at the hash key, its constant term zero.
-/
import ColumnMasking.Sm4.Block

namespace ColumnMasking.Sm4.Ghash

/-- An element of the field, its constant coefficient at the top bit. -/
abbrev Element := BitVec 128

/-- The element that sixteen bytes spell. -/
def Element.ofBytes (bs : Bytes) : Element :=
  BitVec.ofNat 128 (Bytes.toNat bs)

/-- The sixteen bytes of an element. -/
def Element.toBytes (x : Element) : Bytes :=
  Bytes.ofNat blockLength x.toNat

/-- What a coefficient past the end of an element amounts to. -/
def reduction : Element := 0xE1#128 <<< 120

/-- The element times the indeterminate. -/
def shift (v : Element) : Element :=
  if v.getLsbD 0 then (v >>> 1) ^^^ reduction else v >>> 1

/-- Adds to `sum` the product of `v` and the top `count` bits of `x`. -/
def mulFrom (x : Element) : (count : Nat) → (v sum : Element) → Element
  | 0, _, sum => sum
  | count + 1, v, sum =>
    mulFrom (x <<< 1) count (shift v) (if x.getMsbD 0 then sum ^^^ v else sum)

/-- The product of two elements. -/
def mul (x y : Element) : Element :=
  mulFrom x 128 y 0

/-- The hash of a text of whole blocks under a hash key. -/
def hash (key : Element) (text : Bytes) : Element :=
  (Bytes.chunks blockLength text).foldl (fun y c => mul (y ^^^ Element.ofBytes c) key) 0

/-- The text filled up with zeros to whole blocks. -/
def zeroPad (text : Bytes) : Bytes :=
  text ++ List.replicate ((blockLength - text.length % blockLength) % blockLength) 0

/-- The count of bits of a text, in eight bytes. -/
def bitLength (text : Bytes) : Bytes :=
  Bytes.ofNat 8 (8 * text.length)

end ColumnMasking.Sm4.Ghash
