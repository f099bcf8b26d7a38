/-
ColumnMasking.Sm2.Curve — the curve `sm2p256v1`: its field, its points
and their addition, its base point and the order of that.

The points are the solutions of `y² = x³ + a·x + b` in the field of
`prime` elements and one point at infinity, the neutral element. Sums
follow the chord and the tangent. A multiple is found by doubling, the
factor being halved in every step.
-/
import ColumnMasking.Sm2.Residue

namespace ColumnMasking.Sm2

/-! ## The field and the parameters -/

/-- The name of the curve. -/
def curveName : String := "sm2p256v1"

/-- The count of elements of the field. -/
def prime : Nat := 0xFFFFFFFEFFFFFFFFFFFFFFFFFFFFFFFFFFFFFFFF00000000FFFFFFFFFFFFFFFF

/-- The count of multiples of the base point. -/
def order : Nat := 0xFFFFFFFEFFFFFFFFFFFFFFFFFFFFFFFF7203DF6B21C6052B53BBF40939D54123

-- the zero is named, as which one is found depends on what is imported
instance : @NeZero Nat ⟨0⟩ prime := ⟨by decide⟩

instance : @NeZero Nat ⟨0⟩ order := ⟨by decide⟩

/-- An element of the field. -/
abbrev Field := Fin prime

/-- The coefficient of `x`. -/
def coefficientA : Field :=
  Fin.ofNat prime 0xFFFFFFFEFFFFFFFFFFFFFFFFFFFFFFFFFFFFFFFF00000000FFFFFFFFFFFFFFFC

/-- The constant coefficient. -/
def coefficientB : Field :=
  Fin.ofNat prime 0x28E9FA9E9D9F5E344D5A9E4BCF6509A7F39789F515AB8F92DDBCBD414D940E93

/-- The right-hand side of the equation of the curve. -/
def cubic (x : Field) : Field :=
  x * x * x + coefficientA * x + coefficientB

/-- A root of a square, or none of anything else. The prime leaves the
remainder three on division by four, so a root is a power. -/
def squareRoot? (x : Field) : Option Field :=
  let root := power x ((prime + 1) / 4)
  if root * root = x then some root else none

/-! ## Points -/

/-- A point of the plane over the field, or the point at infinity. -/
inductive Point where
  | infinity
  | affine (x y : Field)
  deriving DecidableEq, Repr

namespace Point

/-- The point satisfies the equation of the curve. -/
def OnCurve : Point → Prop
  | infinity => True
  | affine x y => y * y = cubic x

instance : DecidablePred OnCurve
  | infinity => inferInstanceAs (Decidable True)
  | affine _ _ => inferInstanceAs (Decidable (_ = _))

/-- The third point of a line of the given slope through two points,
mirrored. -/
def onLine (slope x₁ y₁ x₂ : Field) : Point :=
  let x := slope * slope - x₁ - x₂
  affine x (slope * (x₁ - x) - y₁)

/-- The sum of two points. -/
def add : Point → Point → Point
  | infinity, q => q
  | p, infinity => p
  | affine x₁ y₁, affine x₂ y₂ =>
    if x₁ = x₂ then
      if y₁ + y₂ = 0 then infinity
      else onLine ((3 * (x₁ * x₁) + coefficientA) * inverse (y₁ + y₂)) x₁ y₁ x₂
    else onLine ((y₁ - y₂) * inverse (x₁ - x₂)) x₁ y₁ x₂

/-- The sum and the multiple of the point by the last `bits` bits of the
factor. -/
def addMultiple : (bits : Nat) → (sum p : Point) → (factor : Nat) → Point
  | 0, sum, _, _ => sum
  | bits + 1, sum, p, factor =>
    addMultiple bits (if factor % 2 = 1 then sum.add p else sum) (p.add p) (factor / 2)

/-- A multiple of a point. -/
def multiple (factor : Nat) (p : Point) : Point :=
  addMultiple (factor.log2 + 1) infinity p factor

/-- The first coordinate; the point at infinity has none. -/
def abscissa? : Point → Option Field
  | infinity => none
  | affine x _ => some x

end Point

/-- The base point. -/
def generator : Point :=
  .affine
    (Fin.ofNat prime 0x32C4AE2C1F1981195F9904466A39C9948FE30BBFF2660BE1715A4589334C74C7)
    (Fin.ofNat prime 0xBC3736A2F4F6779C59BDCEE36B692153D0A9877CC62A474002DF32E52139F0A0)

end ColumnMasking.Sm2
