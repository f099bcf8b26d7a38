/-
ColumnMasking.Proofs.Sm2.ResidueRing — residues as elements of the ring
of residues, where their powers are powers and their inverses inverses.

Residues are computed with as bounded numbers. `toRing` takes them to
`ZMod m`, where the laws of rings and fields are at hand; it respects
every operation and forgets nothing (`toRing_injective`). A power is the
power there (`toRing_power`), and modulo a prime so is an inverse, by
Fermat's little theorem (`toRing_inverse`).
-/
import Mathlib.Data.ZMod.Basic
import Mathlib.FieldTheory.Finite.Basic
import ColumnMasking.Sm2.Residue

namespace ColumnMasking.Sm2

variable {m : Nat}

/-! ## 1. Residues in the ring -/

/-- A residue as an element of the ring of residues. -/
def toRing (x : Fin m) : ZMod m := (x.val : ZMod m)

/-- Different residues are different elements. -/
theorem toRing_injective : Function.Injective (toRing : Fin m → ZMod m) := by
  intro x y h
  have hmod : x.val % m = y.val % m := (ZMod.natCast_eq_natCast_iff' _ _ _).mp h
  rw [Nat.mod_eq_of_lt x.isLt, Nat.mod_eq_of_lt y.isLt] at hmod
  exact Fin.ext hmod

/-- Two residues are one when their elements are. -/
@[simp] theorem toRing_inj {x y : Fin m} : toRing x = toRing y ↔ x = y :=
  toRing_injective.eq_iff

/-- Sums are sums. -/
@[simp] theorem toRing_add (x y : Fin m) : toRing (x + y) = toRing x + toRing y := by
  rw [toRing, Fin.val_add, ZMod.natCast_mod, Nat.cast_add]
  rfl

/-- Products are products. -/
@[simp] theorem toRing_mul (x y : Fin m) : toRing (x * y) = toRing x * toRing y := by
  rw [toRing, Fin.val_mul, ZMod.natCast_mod, Nat.cast_mul]
  rfl

/-- Differences are differences. -/
@[simp] theorem toRing_sub (x y : Fin m) : toRing (x - y) = toRing x - toRing y := by
  have hle : y.val ≤ m := Nat.le_of_lt y.isLt
  rw [toRing, Fin.val_sub, ZMod.natCast_mod, Nat.cast_add, Nat.cast_sub hle, ZMod.natCast_self,
    toRing, toRing]
  ring

section Numerals

variable [NeZero m]

/-- The residue of a number is the number in the ring. -/
@[simp] theorem toRing_ofNat (n : Nat) : toRing (Fin.ofNat m n) = (n : ZMod m) :=
  ZMod.natCast_mod n m

/-- Zero is zero. -/
@[simp] theorem toRing_zero : toRing (0 : Fin m) = 0 := by
  rw [← Nat.cast_zero]
  exact toRing_ofNat 0

/-- One is one. -/
@[simp] theorem toRing_one : toRing (1 : Fin m) = 1 := by
  rw [← Nat.cast_one]
  exact toRing_ofNat 1

/-- Negatives are negatives. -/
@[simp] theorem toRing_neg (x : Fin m) : toRing (-x) = -toRing x := by
  rw [← zero_sub, toRing_sub, toRing_zero, zero_sub]

/-- An element is zero when its residue is. -/
@[simp] theorem toRing_eq_zero_iff {x : Fin m} : toRing x = 0 ↔ x = 0 := by
  rw [← toRing_zero, toRing_inj]

end Numerals

/-! ## 2. Powers and inverses -/

/-- The product is multiplied by the power that is left to take. -/
theorem toRing_powerFrom : ∀ (bits : Nat) (product base : Fin m) {exponent : Nat},
    exponent < 2 ^ bits →
    toRing (powerFrom bits product base exponent) = toRing product * toRing base ^ exponent
  | 0, product, base, exponent, h => by
    have hzero : exponent = 0 := by omega
    rw [powerFrom, hzero, pow_zero, mul_one]
  | bits + 1, product, base, exponent, h => by
    have hhalf : exponent / 2 < 2 ^ bits := by omega
    have hsplit : 2 * (exponent / 2) + exponent % 2 = exponent := Nat.div_add_mod exponent 2
    rw [powerFrom, toRing_powerFrom bits _ _ hhalf, toRing_mul, ← pow_two, ← pow_mul]
    -- the lowest bit decides whether the base goes into the product
    split
    · rename_i hodd
      rw [hodd] at hsplit
      rw [toRing_mul, mul_assoc, ← pow_succ', hsplit]
    · have heven : exponent % 2 = 0 := by omega
      rw [heven, Nat.add_zero] at hsplit
      rw [hsplit]

/-- A power of a residue is the power of the element. -/
@[simp] theorem toRing_power (base : Fin m) (exponent : Nat) :
    toRing (power base exponent) = toRing base ^ exponent := by
  have hone : toRing (⟨1 % m, Nat.mod_lt 1 base.pos⟩ : Fin m) = 1 := by
    rw [toRing, ZMod.natCast_mod, Nat.cast_one]
  rw [power, toRing_powerFrom _ _ _ Nat.lt_log2_self, hone, one_mul]

/-- Modulo a prime the inverse of a residue is the inverse of the
element. -/
theorem toRing_inverse [NeZero m] [Fact m.Prime] {x : Fin m} (hx : x ≠ 0) :
    toRing (inverse x) = (toRing x)⁻¹ := by
  have htwo : 2 ≤ m := (Fact.out : m.Prime).two_le
  have hne : toRing x ≠ 0 := fun h => hx (toRing_eq_zero_iff.mp h)
  have hfermat : toRing x ^ (m - 2) * toRing x = 1 := by
    rw [← pow_succ, show m - 2 + 1 = m - 1 by omega]
    exact ZMod.pow_card_sub_one_eq_one hne
  rw [inverse, toRing_power]
  exact eq_inv_of_mul_eq_one_left hfermat

end ColumnMasking.Sm2
