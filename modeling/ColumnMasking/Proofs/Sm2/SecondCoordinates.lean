/-
ColumnMasking.Proofs.Sm2.SecondCoordinates — the points of the curve over a
first coordinate.

Where the cubic of a first coordinate is a square, a root of it is found
(`exists_squareRoot?`). The roots are that one and its negative, one of them
even and the other odd (`eq_of_parity`), one of them the smaller one
(`eq_of_le_neg`). So a point is known by its first coordinate and one bit.

No second coordinate is zero: the cubic has no root (`cubic_ne_zero`). A
root would be its own power by the prime, and that power is computed without
knowing the root, with remainders of polynomials modulo the cubic. The prime
is made of four powers of two, so squares are all that is taken.
-/
import ColumnMasking.Proofs.Sm2.GroupLaw

namespace ColumnMasking.Sm2

/-! ## 1. Remainders modulo the cubic -/

/-- The remainder `c₀ + c₁ X + c₂ X²` of a polynomial modulo the cubic. -/
structure Remainder where
  (c₀ c₁ c₂ : Field)
  deriving DecidableEq

namespace Remainder

/-- The polynomial one. -/
def one : Remainder := ⟨1, 0, 0⟩

/-- The polynomial `X`. -/
def unknown : Remainder := ⟨0, 1, 0⟩

/-- The difference of two remainders. -/
def sub (u v : Remainder) : Remainder :=
  ⟨u.c₀ - v.c₀, u.c₁ - v.c₁, u.c₂ - v.c₂⟩

/-- The product of two remainders: `X³` and `X⁴` are replaced by what they
leave. -/
def mul (u v : Remainder) : Remainder :=
  let d₃ := u.c₁ * v.c₂ + u.c₂ * v.c₁
  let d₄ := u.c₂ * v.c₂
  ⟨u.c₀ * v.c₀ - d₃ * coefficientB,
   u.c₀ * v.c₁ + u.c₁ * v.c₀ - d₃ * coefficientA - d₄ * coefficientB,
   u.c₀ * v.c₂ + u.c₁ * v.c₁ + u.c₂ * v.c₀ - d₄ * coefficientA⟩

/-- The power by `2 ^ count`. -/
def square (u : Remainder) : (count : Nat) → Remainder
  | 0 => u
  | count + 1 => (u.square count).mul (u.square count)

/-- The value of a remainder. -/
def value (α : ZMod prime) (u : Remainder) : ZMod prime :=
  toRing u.c₀ + toRing u.c₁ * α + toRing u.c₂ * α ^ 2

@[simp] theorem value_one (α : ZMod prime) : one.value α = 1 := by
  simp [value, one]

@[simp] theorem value_unknown (α : ZMod prime) : unknown.value α = α := by
  simp [value, unknown]

@[simp] theorem value_sub (α : ZMod prime) (u v : Remainder) :
    (u.sub v).value α = u.value α - v.value α := by
  simp only [value, sub, toRing_sub]
  ring

variable {α : ZMod prime}

/-- At a root of the cubic, products are products. -/
theorem value_mul (hroot : α ^ 3 + toRing coefficientA * α + toRing coefficientB = 0)
    (u v : Remainder) : (u.mul v).value α = u.value α * v.value α := by
  simp only [value, mul, toRing_sub, toRing_add, toRing_mul]
  linear_combination
    -(toRing u.c₁ * toRing v.c₂ + toRing u.c₂ * toRing v.c₁ + toRing u.c₂ * toRing v.c₂ * α)
      * hroot

/-- At a root of the cubic, squares are powers. -/
theorem value_square (hroot : α ^ 3 + toRing coefficientA * α + toRing coefficientB = 0)
    (u : Remainder) (count : Nat) : (u.square count).value α = u.value α ^ 2 ^ count := by
  induction count with
  | zero => simp [square]
  | succ count ih =>
    rw [square, value_mul hroot, ih, ← pow_add, pow_succ, Nat.mul_two]

/-- The difference of two products of powers of `X`. As
`prime + 2 ^ 224 + 2 ^ 96 + 1 = 2 ^ 256 + 2 ^ 64`, it is zero wherever `X` is
its own power by the prime. -/
def gap : Remainder :=
  ((unknown.square 256).mul (unknown.square 64)).sub
    ((unknown.square 1).mul ((unknown.square 224).mul (unknown.square 96)))

/-- What the gap is multiplied by to give one. -/
def gapInverse : Remainder :=
  ⟨Fin.ofNat prime 0x5E0E2126FDEBE69164A11C8AC1CF5FB82211C4E3933EC314D448E6D705128CD2,
   Fin.ofNat prime 0x6182FC5623EE11EFD76BAE156DB089DEB248CB6522EDE132C26E9722046D99E6,
   Fin.ofNat prime 0xAE7EFEE337C65B86EAAE41B7A6AA2B6C3E9FC69FC081CBEA31CCF0301B950821⟩

theorem gap_mul_gapInverse : gap.mul gapInverse = one := by
  decide +kernel

/-- At a root of the cubic there is no gap. -/
theorem value_gap (hroot : α ^ 3 + toRing coefficientA * α + toRing coefficientB = 0) :
    gap.value α = 0 := by
  have hfermat : α ^ prime = α := ZMod.pow_card α
  have hexponents : 2 ^ 256 + 2 ^ 64 = prime + (1 + (2 ^ 224 + 2 ^ 96)) := by decide
  have hpowers : α ^ 2 ^ 256 * α ^ 2 ^ 64
      = α ^ 2 ^ 1 * (α ^ 2 ^ 224 * α ^ 2 ^ 96) := by
    rw [← pow_add, hexponents, pow_add, hfermat, pow_add _ 1, pow_add _ (2 ^ 224), pow_one,
      ← mul_assoc, pow_one, ← pow_two]
  rw [gap, value_sub, value_mul hroot, value_mul hroot, value_mul hroot]
  simp only [value_square hroot, value_unknown]
  rw [hpowers, sub_self]

end Remainder

/-- The cubic has no root. -/
theorem cubic_ne_zero (x : Field) : cubic x ≠ 0 := by
  intro hzero
  have hroot : toRing x ^ 3 + toRing coefficientA * toRing x + toRing coefficientB = 0 := by
    rw [← toRing_zero, ← hzero, cubic]
    simp only [toRing_add, toRing_mul]
    ring
  have hone := Remainder.value_mul hroot Remainder.gap Remainder.gapInverse
  rw [Remainder.gap_mul_gapInverse, Remainder.value_one, Remainder.value_gap hroot,
    zero_mul] at hone
  exact one_ne_zero hone

/-! ## 2. Square roots -/

/-- A root of every square is found. -/
theorem exists_squareRoot? {x y : Field} (h : y * y = x) :
    ∃ root, squareRoot? x = some root ∧ root * root = x := by
  have hsquare : power x ((prime + 1) / 4) * power x ((prime + 1) / 4) = x := by
    have hexponent : 2 * ((prime + 1) / 4 + (prime + 1) / 4) = prime + 1 := by decide
    have hfermat : toRing y ^ prime = toRing y := ZMod.pow_card _
    rw [← toRing_inj, toRing_mul, toRing_power, ← pow_add, ← h, toRing_mul, ← pow_two, ← pow_mul,
      hexponent, pow_succ, hfermat, pow_two]
  exact ⟨_, by simp only [squareRoot?, if_pos hsquare], hsquare⟩

/-- Roots of the same square are the same up to the sign. -/
theorem eq_or_eq_neg {y z : Field} (h : y * y = z * z) : y = z ∨ y = -z := by
  rw [← toRing_inj, toRing_mul, toRing_mul, mul_self_eq_mul_self_iff] at h
  simpa only [← toRing_neg, toRing_inj] using h

/-! ## 3. Two roots -/

section

variable {x y z : Field}

/-- No second coordinate is zero. -/
theorem ne_zero_of_square (hy : y * y = cubic x) : y ≠ 0 := by
  rintro rfl
  refine cubic_ne_zero x ?_
  rw [← hy, ← toRing_inj, toRing_mul, toRing_zero, mul_zero]

/-- Of a residue that is not zero and its negative one is even and one odd. -/
theorem parity_neg (hy : y ≠ 0) : (-y).val % 2 = 1 - y.val % 2 := by
  have hodd : prime % 2 = 1 := by decide
  have hlt := y.isLt
  rw [Fin.val_neg, if_neg hy]
  omega

/-- A second coordinate is known by its parity. -/
theorem eq_of_parity (hy : y * y = cubic x) (hz : z * z = cubic x)
    (h : y.val % 2 = z.val % 2) : y = z := by
  rcases eq_or_eq_neg (hy.trans hz.symm) with hsame | hnegative
  · exact hsame
  · rw [hnegative, parity_neg (ne_zero_of_square hz)] at h
    omega

/-- A second coordinate is known to be the smaller of the two. -/
theorem eq_of_le_neg (hy : y * y = cubic x) (hz : z * z = cubic x) (hyle : y ≤ -y)
    (hzle : z ≤ -z) : y = z := by
  rcases eq_or_eq_neg (hy.trans hz.symm) with hsame | rfl
  · exact hsame
  · rw [neg_neg] at hyle
    exact le_antisymm hyle hzle

end

end ColumnMasking.Sm2
