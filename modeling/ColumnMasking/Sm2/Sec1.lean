/-
ColumnMasking.Sm2.Sec1 — points as bytes, in the forms of SEC 1.

Keys are kept uncompressed: a four and both coordinates. Points are read
in four forms: uncompressed; compressed (two or three for an even or odd
second coordinate, then the first one); compact (five, then the first
coordinate, the second being the smaller of the two possible); and a
single zero for the point at infinity. Coordinates that are not below
the prime are refused, as are points off the curve.
-/
import ColumnMasking.KeyMaterial
import ColumnMasking.Sm2.Curve

namespace ColumnMasking.Sm2

/-- The 32 bytes of a coordinate. -/
def coordinateBytes (x : Field) : Bytes :=
  Bytes.ofNat KeyMaterial.coordinateLength x.val

/-- The coordinate that 32 bytes spell. -/
def coordinate? (bs : Bytes) : Option Field :=
  let n := Bytes.toNat bs
  if h : bs.length = KeyMaterial.coordinateLength ∧ n < prime then some ⟨n, h.2⟩ else none

namespace Point

/-- The uncompressed form: 65 bytes, or a single zero for the point at
infinity. -/
def encode : Point → Bytes
  | infinity => [0x00]
  | affine x y => 0x04 :: coordinateBytes x ++ coordinateBytes y

/-- The compressed form: 33 bytes, the first of which gives the parity of
the second coordinate. -/
def encodeCompressed : Point → Bytes
  | infinity => [0x00]
  | affine x y => (if y.val % 2 = 0 then 0x02 else 0x03) :: coordinateBytes x

/-- The second coordinates over a first one: the root found and its
negative. -/
def roots? (x : Field) : Option (Field × Field) :=
  (squareRoot? (cubic x)).map fun y => (y, -y)

/-- The point with the given first coordinate whose second one is even
or odd as asked. -/
def withParity? (x : Field) (parity : Nat) : Option Point :=
  (roots? x).map fun (y, z) => affine x (if y.val % 2 = parity then y else z)

/-- The point with the given first coordinate and the smaller second
one. -/
def withSmaller? (x : Field) : Option Point :=
  (roots? x).map fun (y, z) => affine x (if y ≤ z then y else z)

/-- The point of an encoding. -/
def decode? : Bytes → Option Point
  | [0x00] => some infinity
  | 0x02 :: rest => (coordinate? rest).bind fun x => withParity? x 0
  | 0x03 :: rest => (coordinate? rest).bind fun x => withParity? x 1
  | 0x04 :: rest => do
    let x ← coordinate? (rest.take KeyMaterial.coordinateLength)
    let y ← coordinate? (rest.drop KeyMaterial.coordinateLength)
    if (affine x y).OnCurve then some (affine x y) else none
  | 0x05 :: rest => (coordinate? rest).bind withSmaller?
  | _ => none

end Point
end ColumnMasking.Sm2
