/-
ColumnMasking.Proofs.Sm2.PointCount — the curve has as many points as the base
point has multiples.

A point is known by its first coordinate and the parity of the second one
(`Point.eq_of_mark`). So there are at most `2 * prime + 1` points, which is
less than three times the order of the base point. By Lagrange's theorem they
are the order or twice the order. They would be even in number only with a
point that is its own mirror image, and there is none, for no second
coordinate is zero (`Point.add_self_ne_zero`).

So every point of the curve, whether a multiple of the base point or not
known to be one, has multiples that count modulo the order
(`Point.multiple_mod`).
-/
import Mathlib.GroupTheory.Perm.Cycle.Type
import ColumnMasking.Proofs.Sm2.ScaledPoint
import ColumnMasking.Proofs.Sm2.SecondCoordinates

namespace ColumnMasking.Sm2.Point

open WeierstrassCurve

/-! ## 1. At most two points over a first coordinate -/

/-- What a point of the curve is known by: the first coordinate and whether
the second one is even. -/
def mark : Point → Option (Field × Bool)
  | infinity => none
  | affine x y => some (x, y.val % 2 = 0)

/-- Points of the curve with the same mark are the same. -/
theorem eq_of_mark {p q : Point} (hp : p.OnCurve) (hq : q.OnCurve) (h : p.mark = q.mark) :
    p = q := by
  cases p with
  | infinity =>
    cases q with
    | infinity => rfl
    | affine x y => exact absurd h nofun
  | affine x y =>
    cases q with
    | infinity => exact absurd h nofun
    | affine u v =>
      obtain ⟨rfl, heven⟩ := Prod.mk.inj (Option.some.inj h)
      have hparity : y.val % 2 = v.val % 2 := by
        have hiff := decide_eq_decide.mp heven
        omega
      rw [eq_of_parity hp hq hparity]

/-- Different elements of the group are different points. -/
theorem ofGroup_injective : Function.Injective ofGroup := by
  intro P Q h
  cases P with
  | zero => exact (ofGroup_eq_infinity_iff.mp h.symm).symm
  | some x y hxy =>
    cases Q with
    | zero => exact absurd h nofun
    | some u v huv =>
      obtain ⟨hx, hy⟩ := affine.inj h
      obtain rfl := ofRing_inj.mp hx
      obtain rfl := ofRing_inj.mp hy
      rfl

theorem mark_ofGroup_injective : Function.Injective fun P => (ofGroup P).mark :=
  fun _ _ h => ofGroup_injective (eq_of_mark (onCurve_ofGroup _) (onCurve_ofGroup _) h)

instance : Finite curve.Point := Finite.of_injective _ mark_ofGroup_injective

/-- There are at most two points over each first coordinate, and infinity. -/
theorem natCard_le : Nat.card curve.Point ≤ 2 * prime + 1 := by
  refine (Nat.card_le_card_of_injective _ mark_ofGroup_injective).trans_eq ?_
  rw [Nat.card_eq_fintype_card, Fintype.card_option, Fintype.card_prod, Fintype.card_fin,
    Fintype.card_bool, Nat.mul_comm]

/-! ## 2. No point of order two -/

/-- Only infinity is its own mirror image. -/
theorem add_self_ne_zero {P : curve.Point} (h : P ≠ 0) : P + P ≠ 0 := by
  intro hsum
  have hpoint : (ofGroup P).add (ofGroup P) = infinity := by
    rw [← ofGroup_add, hsum, ofGroup_zero]
  have hcurve := onCurve_ofGroup P
  cases hP : ofGroup P with
  | infinity => exact h (ofGroup_eq_infinity_iff.mp hP)
  | affine x y =>
    rw [hP] at hpoint hcurve
    -- the tangent gives a point, so the second coordinates have to cancel
    have hcancel : y + y = 0 := by
      by_contra hne
      simp only [add, if_neg hne, onLine] at hpoint
      simp at hpoint
    have hdouble : (2 : ZMod prime) * toRing y = 0 := by
      rw [two_mul, ← toRing_add, hcancel, toRing_zero]
    have hzero := (mul_eq_zero.mp hdouble).resolve_left ScaledPoint.two_ne_zero_ring
    exact ne_zero_of_square hcurve (toRing_eq_zero_iff.mp hzero)

/-! ## 3. The count -/

/-- The curve has as many points as the order says. -/
theorem natCard_eq : Nat.card curve.Point = order := by
  obtain ⟨B, hB⟩ := exists_base
  have hdvd : order ∣ Nat.card curve.Point := addOrderOf_base hB ▸ addOrderOf_dvd_natCard B
  obtain ⟨k, hk⟩ := hdvd
  have hpos : 0 < Nat.card curve.Point := Nat.card_pos
  have hsmall : k < 3 := by
    have hbound : 2 * prime + 1 < order * 3 := by decide
    have hle := natCard_le
    rw [hk] at hle
    exact Nat.lt_of_mul_lt_mul_left (Nat.lt_of_le_of_lt hle hbound)
  have htwo : k ≠ 2 := by
    rintro rfl
    obtain ⟨P, hP⟩ := exists_prime_addOrderOf_dvd_card' 2 (Dvd.intro_left order hk.symm)
    have hne : P ≠ 0 := by
      rintro rfl
      rw [addOrderOf_zero] at hP
      exact absurd hP (by decide)
    refine add_self_ne_zero hne ?_
    rw [← two_nsmul, ← hP, addOrderOf_nsmul_eq_zero]
  have hone : k = 1 := by
    have hzero : k ≠ 0 := by
      rintro rfl
      rw [hk, Nat.mul_zero] at hpos
      exact absurd hpos (Nat.lt_irrefl 0)
    omega
  rw [hk, hone, Nat.mul_one]

variable {p : Point}

/-- For every point of the curve factors count modulo the order. -/
theorem multiple_mod (h : p.OnCurve) (a : Nat) : p.multiple (a % order) = p.multiple a := by
  obtain ⟨P, rfl⟩ := exists_ofGroup h
  rw [← ofGroup_nsmul, ← ofGroup_nsmul, ← natCard_eq, mod_natCard_nsmul]

end ColumnMasking.Sm2.Point
