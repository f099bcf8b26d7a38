/-
ColumnMasking.Proofs.Sm2.GroupLaw — the points of the curve are a group,
and multiples of a point are its multiples there.

Sums are computed along the chord and the tangent, on residues. Mathlib
has the group of points of a Weierstrass curve over a field; `curve` is
the one with the same coefficients over `ZMod prime`. `Point.ofGroup`
writes an element of that group as a point. It respects sums
(`ofGroup_add`) and multiples (`ofGroup_nsmul`), and what it reaches are
the points of the curve, all of them (`exists_ofGroup`). So whatever
holds of multiples in a commutative group holds of multiples of points:
`multiple_multiple_comm` is the case that two parties agree on a shared
point.
-/
import Mathlib.AlgebraicGeometry.EllipticCurve.Affine.Point
import ColumnMasking.Proofs.Sm2.Primality

namespace ColumnMasking.Sm2

open WeierstrassCurve

/-! ## 1. Residues from the ring -/

/-- An element of the ring of residues as a residue. -/
def ofRing {m : Nat} [NeZero m] (x : ZMod m) : Fin m := ⟨x.val, ZMod.val_lt x⟩

/-- The residue of an element has the element back. -/
@[simp] theorem toRing_ofRing {m : Nat} [NeZero m] (x : ZMod m) : toRing (ofRing x) = x :=
  ZMod.natCast_rightInverse x

/-- The element of a residue has the residue back. -/
@[simp] theorem ofRing_toRing {m : Nat} [NeZero m] (x : Fin m) : ofRing (toRing x) = x :=
  toRing_injective (toRing_ofRing (toRing x))

/-- Different elements are different residues. -/
@[simp] theorem ofRing_inj {m : Nat} [NeZero m] {x y : ZMod m} : ofRing x = ofRing y ↔ x = y :=
  (Function.LeftInverse.injective toRing_ofRing).eq_iff

/-! ## 2. The curve over the ring -/

/-- The curve with the coefficients of `cubic`. -/
def curve : Affine (ZMod prime) :=
  ⟨0, 0, 0, toRing coefficientA, toRing coefficientB⟩

/-- The curve has no singular point. -/
theorem discriminant_ne_zero : curve.Δ ≠ 0 := by
  have hresidue : (64 * (coefficientA * coefficientA * coefficientA)
      + 432 * (coefficientB * coefficientB) : Field) ≠ 0 := by
    decide
  intro hzero
  refine hresidue (toRing_eq_zero_iff.mp ?_)
  have h64 : toRing (64 : Field) = 64 := toRing_ofNat 64
  have h432 : toRing (432 : Field) = 432 := toRing_ofNat 432
  simp only [toRing_add, toRing_mul, h64, h432]
  simp only [WeierstrassCurve.Δ, b₂, b₄, b₆, b₈, curve] at hzero
  linear_combination -hzero

/-- The mirror image of a point. -/
theorem negY_eq (x y : ZMod prime) : curve.negY x y = -y := by
  simp only [Affine.negY, curve]
  ring

/-- The first coordinate of the third point of a line, mirrored. -/
theorem addX_eq (x₁ x₂ ℓ : ZMod prime) : curve.addX x₁ x₂ ℓ = ℓ ^ 2 - x₁ - x₂ := by
  simp only [Affine.addX, curve]
  ring

/-- The second coordinate of the third point of a line, mirrored. -/
theorem addY_eq (x₁ x₂ y₁ ℓ : ZMod prime) :
    curve.addY x₁ x₂ y₁ ℓ = ℓ * (x₁ - (ℓ ^ 2 - x₁ - x₂)) - y₁ := by
  rw [Affine.addY, negY_eq, Affine.negAddY, addX_eq]
  ring

namespace Point

/-- The equation of the curve says the same of residues and of elements. -/
theorem equation_iff (x y : ZMod prime) :
    curve.Equation x y ↔ (affine (ofRing x) (ofRing y)).OnCurve := by
  rw [Affine.equation_iff, OnCurve, ← toRing_inj]
  simp only [curve, cubic, toRing_add, toRing_mul, toRing_ofRing]
  constructor
  · intro h
    linear_combination h
  · intro h
    linear_combination h

/-- Every solution of the equation is a regular point. -/
theorem nonsingular_iff (x y : ZMod prime) :
    curve.Nonsingular x y ↔ (affine (ofRing x) (ofRing y)).OnCurve := by
  rw [← equation_iff]
  exact (Affine.equation_iff_nonsingular_of_Δ_ne_zero discriminant_ne_zero).symm

/-! ## 3. The group of points -/

/-- An element of the group as a point. -/
def ofGroup : curve.Point → Point
  | .zero => infinity
  | .some x y _ => affine (ofRing x) (ofRing y)

/-- The neutral element is the point at infinity. -/
@[simp] theorem ofGroup_zero : ofGroup 0 = infinity := rfl

/-- Only the neutral element is the point at infinity. -/
theorem ofGroup_eq_infinity_iff {P : curve.Point} : ofGroup P = infinity ↔ P = 0 := by
  cases P with
  | zero => simp [ofGroup, Affine.Point.zero_def]
  | some x y h => simp [ofGroup]

/-- Elements are points of the curve. -/
theorem onCurve_ofGroup (P : curve.Point) : (ofGroup P).OnCurve := by
  cases P with
  | zero => trivial
  | some x y h => exact (nonsingular_iff x y).mp h

/-- Points of the curve are elements. -/
theorem exists_ofGroup {p : Point} (h : p.OnCurve) : ∃ P : curve.Point, ofGroup P = p := by
  cases p with
  | infinity => exact ⟨0, rfl⟩
  | affine x y =>
    have hregular : curve.Nonsingular (toRing x) (toRing y) := by
      rw [nonsingular_iff, ofRing_toRing, ofRing_toRing]
      exact h
    exact ⟨.some _ _ hregular, by rw [ofGroup, ofRing_toRing, ofRing_toRing]⟩

/-! ## 4. Sums -/

/-- Infinity adds nothing in front. -/
@[simp] theorem infinity_add (p : Point) : infinity.add p = p := rfl

/-- Infinity adds nothing behind. -/
@[simp] theorem add_infinity (p : Point) : p.add infinity = p := by
  cases p <;> rfl

/-- The third point of a line, computed in the ring. -/
theorem onLine_ofRing {slope : Field} {ℓ : ZMod prime} (h : toRing slope = ℓ)
    (x₁ y₁ x₂ : ZMod prime) :
    onLine slope (ofRing x₁) (ofRing y₁) (ofRing x₂)
      = affine (ofRing (curve.addX x₁ x₂ ℓ)) (ofRing (curve.addY x₁ x₂ y₁ ℓ)) := by
  simp only [onLine, affine.injEq]
  constructor
  · refine toRing_injective ?_
    simp only [toRing_sub, toRing_mul, toRing_ofRing, h, addX_eq]
    ring
  · refine toRing_injective ?_
    simp only [toRing_sub, toRing_mul, toRing_ofRing, h, addY_eq]
    ring

/-- Two points are mirror images when their second coordinates cancel. -/
theorem ofRing_add_eq_zero_iff (x y₁ y₂ : ZMod prime) :
    ofRing y₁ + ofRing y₂ = 0 ↔ y₁ = curve.negY x y₂ := by
  rw [← toRing_inj, toRing_add, toRing_ofRing, toRing_ofRing, toRing_zero, negY_eq]
  exact add_eq_zero_iff_eq_neg

/-- The slope of the tangent at a point that is not its own mirror image. -/
theorem toRing_tangent {x₁ x₂ y₁ y₂ : ZMod prime} (hx : x₁ = x₂) (hsame : y₁ = y₂)
    (hy : ¬ y₁ = curve.negY x₂ y₂) :
    toRing ((3 * (ofRing x₁ * ofRing x₁) + coefficientA) * inverse (ofRing y₁ + ofRing y₂))
      = curve.slope x₁ x₂ y₁ y₂ := by
  have hsum : ¬ ofRing y₁ + ofRing y₂ = 0 := fun h => hy ((ofRing_add_eq_zero_iff x₂ y₁ y₂).mp h)
  have h3 : toRing (3 : Field) = 3 := toRing_ofNat 3
  rw [Affine.slope_of_Y_ne hx hy, toRing_mul, toRing_inverse hsum, div_eq_mul_inv]
  simp only [toRing_mul, toRing_add, toRing_ofRing, h3, negY_eq, ← hsame]
  simp only [curve]
  ring

/-- The slope of the chord between two points apart. -/
theorem toRing_chord {x₁ x₂ : ZMod prime} (hx : ¬ x₁ = x₂) (y₁ y₂ : ZMod prime) :
    toRing ((ofRing y₁ - ofRing y₂) * inverse (ofRing x₁ - ofRing x₂))
      = curve.slope x₁ x₂ y₁ y₂ := by
  have hdifference : ofRing x₁ - ofRing x₂ ≠ 0 := by
    intro h
    rw [← toRing_inj, toRing_sub, toRing_ofRing, toRing_ofRing, toRing_zero] at h
    exact hx (sub_eq_zero.mp h)
  rw [Affine.slope_of_X_ne hx, div_eq_mul_inv]
  simp only [toRing_mul, toRing_sub, toRing_ofRing, toRing_inverse hdifference]

/-- Sums along the chord and the tangent are the sums of the group. -/
theorem ofGroup_add (P Q : curve.Point) : ofGroup (P + Q) = (ofGroup P).add (ofGroup Q) := by
  cases P with
  | zero => rw [← Affine.Point.zero_def, zero_add, ofGroup_zero, infinity_add]
  | some x₁ y₁ h₁ =>
    cases Q with
    | zero => rw [← Affine.Point.zero_def, add_zero, ofGroup_zero, add_infinity]
    | some x₂ y₂ h₂ =>
      have hmirror := ofRing_add_eq_zero_iff x₂ y₁ y₂
      by_cases hx : x₁ = x₂
      · by_cases hy : y₁ = curve.negY x₂ y₂
        · -- a point and its mirror image
          rw [Affine.Point.add_of_Y_eq hx hy]
          simp only [ofGroup, add, if_pos (ofRing_inj.mpr hx), if_pos (hmirror.mpr hy)]
        · -- a point and itself: the tangent
          have hsame : y₁ = y₂ := Affine.Y_eq_of_Y_ne h₁.left h₂.left hx hy
          have hsum : ¬ ofRing y₁ + ofRing y₂ = 0 := fun h => hy (hmirror.mp h)
          rw [Affine.Point.add_of_Y_ne hy]
          simp only [ofGroup, add, if_pos (ofRing_inj.mpr hx), if_neg hsum]
          rw [onLine_ofRing (toRing_tangent hx hsame hy)]
      · -- two points apart: the chord
        have hapart : ¬ ofRing x₁ = ofRing x₂ := fun h => hx (ofRing_inj.mp h)
        rw [Affine.Point.add_of_X_ne hx]
        simp only [ofGroup, add, if_neg hapart]
        rw [onLine_ofRing (toRing_chord hx y₁ y₂)]

/-! ## 5. Multiples -/

/-- The sum grows by the multiple that is left to take. -/
theorem ofGroup_addMultiple : ∀ (bits : Nat) (S P : curve.Point) {factor : Nat},
    factor < 2 ^ bits →
    addMultiple bits (ofGroup S) (ofGroup P) factor = ofGroup (S + factor • P)
  | 0, S, P, factor, h => by
    have hzero : factor = 0 := by omega
    rw [addMultiple, hzero, zero_nsmul, add_zero]
  | bits + 1, S, P, factor, h => by
    have hhalf : factor / 2 < 2 ^ bits := by omega
    have hsplit : factor % 2 + 2 * (factor / 2) = factor := Nat.mod_add_div factor 2
    have htail : factor • P = (factor % 2) • P + (factor / 2) • (P + P) := by
      rw [← two_nsmul, ← mul_nsmul, ← add_nsmul, hsplit]
    rw [addMultiple, htail, ← add_assoc]
    -- the lowest bit decides whether the point goes into the sum
    split
    · rename_i hodd
      rw [← ofGroup_add, ← ofGroup_add, ofGroup_addMultiple bits _ _ hhalf, hodd, one_nsmul]
    · rename_i hnot
      have heven : factor % 2 = 0 := by omega
      rw [← ofGroup_add, ofGroup_addMultiple bits _ _ hhalf, heven, zero_nsmul, add_zero]

/-- A multiple of a point is the multiple of the element. -/
theorem ofGroup_nsmul (factor : Nat) (P : curve.Point) :
    ofGroup (factor • P) = (ofGroup P).multiple factor := by
  rw [multiple, ← ofGroup_zero, ofGroup_addMultiple _ _ _ Nat.lt_log2_self, zero_add]

variable {p : Point}

/-- Multiples stay on the curve. -/
theorem onCurve_multiple (h : p.OnCurve) (factor : Nat) : (p.multiple factor).OnCurve := by
  obtain ⟨P, rfl⟩ := exists_ofGroup h
  rw [← ofGroup_nsmul]
  exact onCurve_ofGroup _

/-- The order in which two multiples are taken makes no difference. -/
theorem multiple_multiple_comm (h : p.OnCurve) (a b : Nat) :
    (p.multiple a).multiple b = (p.multiple b).multiple a := by
  obtain ⟨P, rfl⟩ := exists_ofGroup h
  simp only [← ofGroup_nsmul]
  rw [← mul_nsmul, ← mul_nsmul, Nat.mul_comm]

end Point
end ColumnMasking.Sm2
