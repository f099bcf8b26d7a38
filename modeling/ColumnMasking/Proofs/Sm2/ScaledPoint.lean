/-
ColumnMasking.Proofs.Sm2.ScaledPoint — multiples of a point found without
division, and the order of the base point.

A sum of points takes an inverse, and an inverse takes as many products
as a whole multiple takes sums. Points given up to a scale need none:
`(x, y, z)` stands for the point `(x / z², y / z³)`. `climb` goes through
the bits of a factor from the highest one, doubling for each and adding
the point where the bit is one. It stops where a formula does not apply;
where it ends, it stands for the multiple (`stands_climb`), which one
inverse then turns into a point (`multiple_eq_of_climb?`).

So a multiple of the base point is cheap to check. The one that counts is
the multiple by the order less one: it is the mirror image of the base
point (`climb?_order_pred`). With the order being prime, that makes the
order of the base point what it is called (`addOrderOf_base`), and sums of
multiples of it are multiples by the sum modulo the order
(`multiple_add_multiple`).
-/
import Mathlib.GroupTheory.OrderOfElement
import ColumnMasking.Proofs.Sm2.GroupLaw
import ColumnMasking.Sm2.Scalar

namespace ColumnMasking.Sm2

open WeierstrassCurve

/-! ## 1. Points up to a scale -/

/-- Three residues that stand for the point `(x / z², y / z³)`. -/
structure ScaledPoint where
  (x y z : Field)
  deriving DecidableEq

namespace ScaledPoint

/-- The point that the residues stand for. -/
def point (t : ScaledPoint) : Point :=
  let unscale := inverse t.z
  .affine (t.x * (unscale * unscale)) (t.y * (unscale * unscale * unscale))

/-- The sum of a point and itself, unless that is infinity. -/
def double? (t : ScaledPoint) : Option ScaledPoint :=
  if t.y = 0 then none
  else
    let slope := 3 * (t.x * t.x) + coefficientA * (t.z * t.z * (t.z * t.z))
    let s := 4 * (t.x * (t.y * t.y))
    let x := slope * slope - 2 * s
    some ⟨x, slope * (s - x) - 8 * (t.y * t.y * (t.y * t.y)), 2 * (t.y * t.z)⟩

/-- The sum of a point and another one, unless their first coordinates are
the same. -/
def add? (t : ScaledPoint) (u v : Field) : Option ScaledPoint :=
  let h := u * (t.z * t.z) - t.x
  if h = 0 then none
  else
    let slope := v * (t.z * t.z * t.z) - t.y
    let x := slope * slope - h * h * h - 2 * (t.x * (h * h))
    some ⟨x, slope * (t.x * (h * h) - x) - t.y * (h * h * h), t.z * h⟩

/-- Takes in the last `bits` bits of the factor, the highest one first. -/
def climb (u v : Field) (factor : Nat) : (bits : Nat) → ScaledPoint → Option ScaledPoint
  | 0, t => some t
  | bits + 1, t =>
    match t.double? with
    | none => none
    | some d =>
      if factor / 2 ^ bits % 2 = 1 then
        match d.add? u v with
        | none => none
        | some s => climb u v factor bits s
      else climb u v factor bits d

/-- The multiple of a point by a factor that is not zero, if every formula
on the way applies. -/
def climb? (p : Point) (factor : Nat) : Option Point :=
  match p with
  | .infinity => none
  | .affine u v => (climb u v factor factor.log2 ⟨u, v, 1⟩).map point

/-! ## 2. What they stand for -/

/-- The residues stand for an element of the group. -/
def Stands (t : ScaledPoint) (P : curve.Point) : Prop :=
  ∃ (x y : ZMod prime) (h : curve.Nonsingular x y), P = .some x y h ∧ toRing t.z ≠ 0
    ∧ toRing t.x = x * toRing t.z ^ 2 ∧ toRing t.y = y * toRing t.z ^ 3

/-- A point stands for itself. -/
theorem stands_one {x y : ZMod prime} (h : curve.Nonsingular x y) :
    Stands ⟨ofRing x, ofRing y, 1⟩ (.some x y h) :=
  ⟨x, y, h, rfl, by simp, by simp, by simp⟩

/-- What the residues stand for is the point that they are turned into. -/
theorem point_of_stands {t : ScaledPoint} {P : curve.Point} (h : t.Stands P) :
    t.point = Point.ofGroup P := by
  obtain ⟨x, y, hregular, rfl, hz, hx, hy⟩ := h
  have hinverse : toRing (inverse t.z) = (toRing t.z)⁻¹ :=
    toRing_inverse fun hzero => hz (toRing_eq_zero_iff.mpr hzero)
  simp only [point, Point.ofGroup, Point.affine.injEq]
  constructor
  · refine toRing_injective ?_
    simp only [toRing_mul, hinverse, hx, toRing_ofRing]
    field_simp
  · refine toRing_injective ?_
    simp only [toRing_mul, hinverse, hy, toRing_ofRing]
    field_simp

/-- Two is not zero. -/
theorem two_ne_zero_ring : (2 : ZMod prime) ≠ 0 := by
  have htwo : (2 : Field) ≠ 0 := by decide
  intro h
  exact htwo (toRing_eq_zero_iff.mp ((toRing_ofNat 2).trans h))

/-- A point off the first axis is not its own mirror image. -/
theorem ne_negY {y : ZMod prime} (hy : y ≠ 0) (x : ZMod prime) : y ≠ curve.negY x y := by
  intro h
  rw [negY_eq] at h
  exact mul_ne_zero two_ne_zero_ring hy (by linear_combination h)

/-- The slope of the tangent, without division. -/
theorem slope_tangent {y : ZMod prime} (hy : y ≠ 0) (x : ZMod prime) :
    curve.slope x x y y * (2 * y) = 3 * x ^ 2 + toRing coefficientA := by
  have hdouble : y - curve.negY x y = 2 * y := by
    rw [negY_eq]
    ring
  rw [Affine.slope_of_Y_ne rfl (ne_negY hy x), hdouble,
    div_mul_cancel₀ _ (mul_ne_zero two_ne_zero_ring hy)]
  simp only [curve]
  ring

/-- The slope of the chord, without division. -/
theorem slope_chord {x u : ZMod prime} (hx : x ≠ u) (y v : ZMod prime) :
    curve.slope x u y v * (x - u) = y - v := by
  rw [Affine.slope_of_X_ne hx, div_mul_cancel₀ _ (sub_ne_zero.mpr hx)]

/-- Doubling stands for the sum of the element and itself. -/
theorem stands_double {t d : ScaledPoint} {P : curve.Point} (h : t.Stands P)
    (hd : t.double? = some d) : d.Stands (P + P) := by
  obtain ⟨x, y, hregular, rfl, hz, hx, hy⟩ := h
  simp only [double?] at hd
  split at hd
  · simp at hd
  · rename_i hne
    have hyne : y ≠ 0 := by
      rintro rfl
      exact hne (toRing_eq_zero_iff.mp (by rw [hy, zero_mul]))
    have h2 : toRing (2 : Field) = 2 := toRing_ofNat 2
    have h3 : toRing (3 : Field) = 3 := toRing_ofNat 3
    have h4 : toRing (4 : Field) = 4 := toRing_ofNat 4
    have h8 : toRing (8 : Field) = 8 := toRing_ofNat 8
    generalize hℓ : curve.slope x x y y = ℓ
    -- the slope, up to the scale of the result
    have hslope : 3 * (toRing t.x * toRing t.x)
          + toRing coefficientA * (toRing t.z * toRing t.z * (toRing t.z * toRing t.z))
        = ℓ * (2 * (toRing t.y * toRing t.z)) := by
      have htangent := slope_tangent hyne x
      rw [hℓ] at htangent
      rw [hx, hy]
      linear_combination -(toRing t.z ^ 4) * htangent
    obtain rfl := Option.some.inj hd
    rw [Affine.Point.add_self_of_Y_ne (ne_negY hyne x)]
    refine ⟨_, _, _, rfl, ?_, ?_, ?_⟩
    · simp only [toRing_mul, h2, hy]
      exact mul_ne_zero two_ne_zero_ring
        (mul_ne_zero (mul_ne_zero hyne (pow_ne_zero 3 hz)) hz)
    · simp only [toRing_mul, toRing_add, toRing_sub, h2, h3, h4, hslope, addX_eq, hℓ]
      rw [hx, hy]
      ring
    · simp only [toRing_mul, toRing_add, toRing_sub, h2, h3, h4, h8, hslope, addY_eq, hℓ]
      rw [hx, hy]
      ring

/-- Adding a point stands for the sum. -/
theorem stands_add {t s : ScaledPoint} {P : curve.Point} (h : t.Stands P) {u v : ZMod prime}
    (hregular : curve.Nonsingular u v) (hs : t.add? (ofRing u) (ofRing v) = some s) :
    s.Stands (P + .some u v hregular) := by
  obtain ⟨x, y, hxy, rfl, hz, hx, hy⟩ := h
  simp only [add?] at hs
  split at hs
  · simp at hs
  · rename_i hne
    have hapart : x ≠ u := by
      rintro rfl
      refine hne (toRing_eq_zero_iff.mp ?_)
      rw [toRing_sub, toRing_mul, toRing_mul, toRing_ofRing, hx]
      ring
    generalize hℓ : curve.slope x u y v = ℓ
    -- the difference of the first coordinates and the slope, up to scale
    have hwidth : u * (toRing t.z * toRing t.z) - toRing t.x = (u - x) * toRing t.z ^ 2 := by
      rw [hx]
      ring
    have hslope : v * (toRing t.z * toRing t.z * toRing t.z) - toRing t.y
        = ℓ * ((u - x) * toRing t.z ^ 3) := by
      have hchord := slope_chord hapart y v
      rw [hℓ] at hchord
      rw [hy]
      linear_combination (toRing t.z ^ 3) * hchord
    obtain rfl := Option.some.inj hs
    rw [Affine.Point.add_of_X_ne hapart]
    refine ⟨_, _, _, rfl, ?_, ?_, ?_⟩
    · simp only [toRing_mul, toRing_sub, toRing_ofRing, hwidth]
      exact mul_ne_zero hz (mul_ne_zero (sub_ne_zero.mpr hapart.symm) (pow_ne_zero 2 hz))
    · have h2 : toRing (2 : Field) = 2 := toRing_ofNat 2
      simp only [toRing_mul, toRing_sub, toRing_ofRing, h2, hwidth, hslope, addX_eq, hℓ]
      rw [hx]
      ring
    · have h2 : toRing (2 : Field) = 2 := toRing_ofNat 2
      simp only [toRing_mul, toRing_sub, toRing_ofRing, h2, hwidth, hslope, addY_eq, hℓ]
      rw [hx, hy]
      ring

/-! ## 3. Multiples -/

/-- The climb ends at the multiple by the whole factor, if it starts at the
multiple by what stands above the bits. -/
theorem stands_climb {u v : ZMod prime} (hregular : curve.Nonsingular u v) (factor : Nat) :
    ∀ (bits : Nat) {t s : ScaledPoint},
      t.Stands ((factor / 2 ^ bits) • .some u v hregular) →
      climb (ofRing u) (ofRing v) factor bits t = some s →
      s.Stands (factor • .some u v hregular)
  | 0, t, s, ht, hs => by
    rw [climb, Option.some.injEq] at hs
    rw [pow_zero, Nat.div_one] at ht
    exact hs ▸ ht
  | bits + 1, t, s, ht, hs => by
    have hsplit : factor / 2 ^ bits
        = factor / 2 ^ (bits + 1) + factor / 2 ^ (bits + 1) + factor / 2 ^ bits % 2 := by
      rw [pow_succ, ← Nat.div_div_eq_div_mul]
      omega
    rw [climb] at hs
    split at hs
    · simp at hs
    · rename_i d hd
      have hdouble := stands_double ht hd
      rw [← add_nsmul] at hdouble
      split at hs
      · rename_i hodd
        split at hs
        · simp at hs
        · rename_i e he
          have hsum := stands_add hdouble hregular he
          refine stands_climb hregular factor bits ?_ hs
          rw [hsplit, hodd, add_nsmul _ _ 1, one_nsmul]
          exact hsum
      · rename_i hnot
        have heven : factor / 2 ^ bits % 2 = 0 := by omega
        refine stands_climb hregular factor bits ?_ hs
        rw [hsplit, heven, Nat.add_zero]
        exact hdouble

/-- Where a climb ends is the multiple. -/
theorem multiple_eq_of_climb? {p q : Point} (hcurve : p.OnCurve) {factor : Nat}
    (hfactor : factor ≠ 0) (h : climb? p factor = some q) : p.multiple factor = q := by
  cases p with
  | infinity => simp [climb?] at h
  | affine u v =>
    obtain ⟨t, ht, rfl⟩ := Option.map_eq_some_iff.mp h
    have hregular : curve.Nonsingular (toRing u) (toRing v) := by
      rw [Point.nonsingular_iff, ofRing_toRing, ofRing_toRing]
      exact hcurve
    have htop : factor / 2 ^ factor.log2 = 1 := by
      have hle := Nat.log2_self_le hfactor
      have hlt := Nat.lt_log2_self (n := factor)
      rw [pow_succ] at hlt
      exact Nat.div_eq_of_lt_le (by omega) (by omega)
    have hstart : Stands ⟨ofRing (toRing u), ofRing (toRing v), 1⟩
        ((factor / 2 ^ factor.log2) • .some _ _ hregular) := by
      rw [htop, one_nsmul]
      exact stands_one hregular
    have hend := stands_climb hregular factor _ hstart
      (by rw [ofRing_toRing, ofRing_toRing]; exact ht)
    rw [point_of_stands hend, Point.ofGroup_nsmul, Point.ofGroup, ofRing_toRing, ofRing_toRing]

end ScaledPoint

/-! ## 4. The base point -/

/-- The base point is on the curve. -/
theorem onCurve_generator : generator.OnCurve := by
  decide

/-- The multiple by the order less one is the mirror image of the base
point. -/
theorem climb?_order_pred :
    (ScaledPoint.climb? generator (order - 1)).map (Point.add · generator) = some .infinity := by
  decide +kernel

/-- The element of the base point. -/
theorem exists_base : ∃ B : curve.Point, Point.ofGroup B = generator :=
  Point.exists_ofGroup onCurve_generator

/-- The order of the base point is the one that it is said to have. -/
theorem addOrderOf_base {B : curve.Point} (hB : Point.ofGroup B = generator) :
    addOrderOf B = order := by
  have hnonzero : B ≠ 0 := by
    rintro rfl
    exact absurd hB nofun
  refine addOrderOf_eq_prime ?_ hnonzero
  obtain ⟨q, hq, hsum⟩ := Option.map_eq_some_iff.mp climb?_order_pred
  have hmultiple : generator.multiple (order - 1) = q :=
    ScaledPoint.multiple_eq_of_climb? onCurve_generator (by decide) hq
  have hnext : order - 1 + 1 = order := by decide
  refine Point.ofGroup_eq_infinity_iff.mp ?_
  rw [← hnext, succ_nsmul, Point.ofGroup_add, Point.ofGroup_nsmul, hB, hmultiple]
  exact hsum

namespace Point

/-- The multiples of the base point that are infinity. -/
theorem multiple_generator_eq_infinity_iff {a : Nat} :
    generator.multiple a = infinity ↔ order ∣ a := by
  obtain ⟨B, hB⟩ := exists_base
  rw [← hB, ← ofGroup_nsmul, ofGroup_eq_infinity_iff, ← addOrderOf_base hB]
  exact addOrderOf_dvd_iff_nsmul_eq_zero.symm

/-- Factors count modulo the order. -/
theorem multiple_generator_mod (a : Nat) :
    generator.multiple (a % order) = generator.multiple a := by
  obtain ⟨B, hB⟩ := exists_base
  rw [← hB, ← ofGroup_nsmul, ← ofGroup_nsmul, ← addOrderOf_base hB, mod_addOrderOf_nsmul]

/-- The sum of a multiple of the base point and a multiple of a multiple of
it. -/
theorem multiple_add_multiple (a b d : Nat) :
    (generator.multiple a).add ((generator.multiple d).multiple b)
      = generator.multiple ((a + b * d) % order) := by
  rw [multiple_generator_mod]
  obtain ⟨B, hB⟩ := exists_base
  rw [← hB]
  simp only [← ofGroup_nsmul, ← ofGroup_add]
  rw [← mul_nsmul, ← add_nsmul, Nat.mul_comm d b]

end Point

namespace Scalar

/-- A scalar multiple of the base point is on the curve. -/
theorem onCurve_times_generator (d : Scalar) : (d.times generator).OnCurve :=
  Point.onCurve_multiple onCurve_generator d.value

/-- A scalar multiple of the base point is not infinity. -/
theorem times_generator_ne_infinity (d : Scalar) : d.times generator ≠ .infinity := by
  intro h
  have hdvd := Point.multiple_generator_eq_infinity_iff.mp h
  have hle := Nat.le_of_dvd d.pos hdvd
  exact absurd d.lt_order (Nat.not_lt.mpr hle)

end Scalar
end ColumnMasking.Sm2
