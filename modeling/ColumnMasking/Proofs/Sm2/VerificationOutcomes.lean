/-
ColumnMasking.Proofs.Sm2.VerificationOutcomes — what a verifier says of any 64
bytes at all.

A verifier takes them for two halves and says whether it accepts these
(`exists_verdict`). What it asks of two numbers is `Signature.Accepted`:
numbers that are no scalars are not taken modulo the order but refused, and so
are halves that cancel. The point of the sum of the halves is told without a
residue, since for every point of the curve factors count modulo the order
(`Signature.isValid_iff`).
-/
import ColumnMasking.Proofs.Sm2.PointCount
import ColumnMasking.Proofs.Sm2.SignatureTheorems

namespace ColumnMasking.Sm2

/-! ## 1. Two halves -/

/-- The first coordinate as a number, zero for infinity. -/
def Point.abscissa (p : Point) : Nat := (p.abscissa?.getD 0).val

/-- The point that a verifier computes of two halves. -/
def Signature.sumPoint (p : Point) (r s : Nat) : Point :=
  (generator.multiple s).add (p.multiple (r + s))

namespace Signature

variable {p : Point} {digest : Fin order}

/-- The halves of a signature cancel when the order divides their sum. -/
theorem halves_eq_zero_iff {r s : Scalar} :
    r.residue + s.residue = 0 ↔ order ∣ r.value + s.value := by
  rw [← toRing_eq_zero_iff, toRing_add, toRing_residue, toRing_residue, ← Nat.cast_add,
    ZMod.natCast_eq_zero_iff]

/-- The digest and a first coordinate add up to a half when the numbers do. -/
theorem add_ofNat_eq_residue_iff {r : Scalar} {x : Nat} :
    digest + Fin.ofNat order x = r.residue ↔ (digest.val + x) % order = r.value := by
  rw [← Fin.val_inj, val_add_ofNat]
  rfl

/-- The verifier's factor of the public point is the sum of the halves. -/
theorem multiple_halves (hcurve : p.OnCurve) (r s : Scalar) :
    p.multiple (r.residue + s.residue).val = p.multiple (r.value + s.value) := by
  have hval : (r.residue + s.residue).val = (r.value + s.value) % order := Fin.val_add _ _
  rw [hval, Point.multiple_mod hcurve]

/-- When a signature is valid under a point of the curve. -/
theorem isValid_iff (hcurve : p.OnCurve) (signature : Signature) :
    signature.isValid p digest = true ↔
      ¬ order ∣ signature.r.value + signature.s.value ∧
      sumPoint p signature.r.value signature.s.value ≠ .infinity ∧
      (digest.val + (sumPoint p signature.r.value signature.s.value).abscissa) % order
        = signature.r.value := by
  have hpoint : (signature.s.times generator).add
      (p.multiple (signature.r.residue + signature.s.residue).val)
      = sumPoint p signature.r.value signature.s.value := by
    rw [multiple_halves hcurve]
    rfl
  simp only [isValid, hpoint]
  cases hsum : sumPoint p signature.r.value signature.s.value with
  | infinity => simp [Point.abscissa?]
  | affine x y =>
    simp only [Point.abscissa?, Point.abscissa, Option.getD_some, Bool.and_eq_true,
      decide_eq_true_iff, ne_eq, halves_eq_zero_iff, add_ofNat_eq_residue_iff, reduceCtorEq,
      not_false_eq_true, true_and]

/-- What is asked of two halves, given as numbers: each is a scalar, they do
not cancel, and the first coordinate of their sum point leaves the first half
when it is added to the digest. -/
structure Accepted (p : Point) (digest : Fin order) (r s : Nat) : Prop where
  first : 0 < r ∧ r < order
  second : 0 < s ∧ s < order
  not_cancelled : ¬ order ∣ r + s
  finite : sumPoint p r s ≠ .infinity
  congruent : (digest.val + (sumPoint p r s).abscissa) % order = r

/-- A signature is valid when its halves are accepted. -/
theorem isValid_iff_accepted (hcurve : p.OnCurve) (signature : Signature) :
    signature.isValid p digest = true
      ↔ Accepted p digest signature.r.value signature.s.value := by
  rw [isValid_iff hcurve]
  constructor
  · rintro ⟨hcancel, hfinite, hcongruent⟩
    exact ⟨⟨signature.r.pos, signature.r.lt_order⟩, ⟨signature.s.pos, signature.s.lt_order⟩,
      hcancel, hfinite, hcongruent⟩
  · intro h
    exact ⟨h.not_cancelled, h.finite, h.congruent⟩

/-! ## 2. Sixty-four bytes -/

variable {bs : Bytes}

/-- The first half that the bytes spell, as a number. -/
def firstHalf (bs : Bytes) : Nat := Bytes.toNat (bs.take KeyMaterial.coordinateLength)

/-- The second half that the bytes spell, as a number. -/
def secondHalf (bs : Bytes) : Nat := Bytes.toNat (bs.drop KeyMaterial.coordinateLength)

/-- As many bytes as a signature has are one when both halves are scalars. -/
theorem ofBytes?_eq_bind (hlength : bs.length = length) :
    ofBytes? bs = (Scalar.ofNat? (firstHalf bs)).bind fun r =>
      (Scalar.ofNat? (secondHalf bs)).bind fun s => some ⟨r, s⟩ := by
  have hfirst : (bs.take KeyMaterial.coordinateLength).length = KeyMaterial.coordinateLength := by
    rw [List.length_take, hlength]
    rfl
  have hsecond : (bs.drop KeyMaterial.coordinateLength).length = KeyMaterial.coordinateLength := by
    rw [List.length_drop, hlength]
    rfl
  rw [ofBytes?, Scalar.ofBytes?, Scalar.ofBytes?, if_pos hfirst, if_pos hsecond]
  rfl

/-- The halves of a signature are those that its bytes spell. -/
theorem halves_of_ofBytes? {signature : Signature} (hlength : bs.length = length)
    (h : ofBytes? bs = some signature) :
    signature.r.value = firstHalf bs ∧ signature.s.value = secondHalf bs := by
  rw [ofBytes?_eq_bind hlength] at h
  obtain ⟨r, hr, h⟩ := Option.bind_eq_some_iff.mp h
  obtain ⟨s, hs, h⟩ := Option.bind_eq_some_iff.mp h
  obtain rfl := Option.some.inj h
  exact ⟨Scalar.ofNat?_eq_some hr, Scalar.ofNat?_eq_some hs⟩

/-- Bytes whose halves are accepted are a signature. -/
theorem Accepted.exists_signature (hlength : bs.length = length)
    (h : Accepted p digest (firstHalf bs) (secondHalf bs)) :
    ∃ signature, ofBytes? bs = some signature := by
  obtain ⟨r, hr⟩ := Scalar.exists_ofNat?_iff.mpr h.first
  obtain ⟨s, hs⟩ := Scalar.exists_ofNat?_iff.mpr h.second
  exact ⟨⟨r, s⟩, by rw [ofBytes?_eq_bind hlength, hr, hs]; rfl⟩

end Signature

/-! ## 3. Verifying -/

variable {key : PublicKey} {p : Point} {signature : Bytes} {identity : String}

/-- The key of a point of the curve says of as many bytes as a signature has
whether their halves are accepted, if the identity is not too long. -/
theorem exists_verdict (hpoint : key.point = .ok p) (hlength : signature.length = Signature.length)
    (hfits : (Utf8.encode identity).length ≤ maxIdentityLength) (message : Bytes) :
    ∃ valid, key.verify message signature identity = .ok valid ∧
      (valid = true ↔ Signature.Accepted p (messageDigest (Utf8.encode identity) p message)
        (Signature.firstHalf signature) (Signature.secondHalf signature)) := by
  have hlong : ¬ signature.length ≠ Signature.length := not_not_intro hlength
  have hlimit : ¬ maxIdentityLength < (Utf8.encode identity).length := Nat.not_lt.mpr hfits
  obtain ⟨hcurve, -⟩ := PublicKey.onCurve_of_point hpoint
  unfold PublicKey.verify
  simp only [if_neg hlong, hpoint, if_neg hlimit]
  cases hread : Signature.ofBytes? signature with
  | none =>
    refine ⟨false, rfl, ?_⟩
    constructor
    · exact nofun
    · intro haccepted
      obtain ⟨pair, hpair⟩ := haccepted.exists_signature hlength
      rw [hread] at hpair
      simp at hpair
  | some pair =>
    obtain ⟨hr, hs⟩ := Signature.halves_of_ofBytes? hlength hread
    refine ⟨_, rfl, ?_⟩
    rw [pair.isValid_iff_accepted hcurve, hr, hs]

/-- Any other count of bytes is refused first. -/
theorem verify_of_length (h : signature.length ≠ Signature.length) (key : PublicKey)
    (message : Bytes) :
    key.verify message signature identity = .error (.signatureLength signature.length) := by
  unfold PublicKey.verify
  rw [if_pos h]
  rfl

/-- An identity that is too long is refused last. -/
theorem verify_of_identity (hpoint : key.point = .ok p)
    (hlength : signature.length = Signature.length)
    (hlong : maxIdentityLength < (Utf8.encode identity).length) (message : Bytes) :
    key.verify message signature identity = .error .verifyingIdentityTooLong := by
  unfold PublicKey.verify
  simp only [if_neg (not_not_intro hlength), hpoint, if_pos hlong]
  rfl

end ColumnMasking.Sm2
