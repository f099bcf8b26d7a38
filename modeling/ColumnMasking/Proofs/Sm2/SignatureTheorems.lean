/-
ColumnMasking.Proofs.Sm2.SignatureTheorems — a signature that was made is
valid under the public point of the private scalar.

The second half of a signature is chosen such that, modulo the order,
`s + (r + s) · d = k` (`multiplier_eq`). So the sum of the two multiples
that a verifier takes is the multiple of the base point by the nonce, whose
first coordinate went into the first half (`isValid_of_make?`). The two
halves do not cancel, for the signer has made sure that `r + k` is not
zero (`halves_ne_zero`). Signer and verifier digest the same message under
the same identity and the same point (`verify_of_sign`).
-/
import ColumnMasking.Proofs.CallResults
import ColumnMasking.Proofs.Sm2.KeyForms
import ColumnMasking.Sm2.Signature

namespace ColumnMasking.Sm2

/-! ## 1. Halves of a signature -/

/-- The scalar of a residue is that residue. -/
theorem Scalar.residue_of_ofNat? {r : Fin order} {s : Scalar} (h : ofNat? r.val = some s) :
    s.residue = r :=
  Fin.ext (Scalar.ofNat?_eq_some h)

/-- A scalar as an element of the ring is its number. -/
theorem toRing_residue (s : Scalar) : toRing s.residue = (s.value : ZMod order) := rfl

namespace Signature

variable {d k : Scalar} {digest : Fin order} {signature : Signature}

/-- The sum that a first half is, as a number. -/
theorem val_add_ofNat (digest : Fin order) (x : Nat) :
    (digest + Fin.ofNat order x).val = (digest.val + x) % order := by
  rw [Fin.val_add, Fin.val_ofNat, Nat.add_mod_mod]

/-- What a signature that was made consists of. -/
theorem exists_abscissa_of_make? (h : make? d digest k = some signature) :
    ∃ x, (k.times generator).abscissa? = some x
      ∧ signature.r.residue = digest + Fin.ofNat order x.val
      ∧ signature.r.residue + k.residue ≠ 0
      ∧ 1 + d.residue ≠ 0
      ∧ signature.s.residue
          = inverse (1 + d.residue) * (k.residue - signature.r.residue * d.residue) := by
  unfold make? at h
  obtain ⟨x, hx, h⟩ := Option.bind_eq_some_iff.mp h
  simp only at h
  split at h
  · simp at h
  · rename_i huse
    obtain ⟨hnonce, hkey⟩ := not_or.mp huse
    obtain ⟨r, hr, h⟩ := Option.bind_eq_some_iff.mp h
    obtain ⟨s, hs, h⟩ := Option.bind_eq_some_iff.mp h
    obtain rfl := Option.some.inj h
    have hrResidue := Scalar.residue_of_ofNat? hr
    have hsResidue := Scalar.residue_of_ofNat? hs
    refine ⟨x, hx, hrResidue, ?_, hkey, ?_⟩
    · rw [hrResidue]
      exact hnonce
    · rw [hsResidue, hrResidue]

/-- In the ring, the second half times one more than the private scalar is
what the division was made of. -/
theorem second_mul_eq (h : make? d digest k = some signature) :
    toRing signature.s.residue * (1 + toRing d.residue)
      = toRing k.residue - toRing signature.r.residue * toRing d.residue := by
  obtain ⟨x, -, -, -, hkey, hs⟩ := exists_abscissa_of_make? h
  have hne : 1 + toRing d.residue ≠ 0 := by
    rw [← toRing_one, ← toRing_add]
    exact fun hzero => hkey (toRing_eq_zero_iff.mp hzero)
  rw [hs, toRing_mul, toRing_sub, toRing_mul, toRing_inverse hkey, toRing_add, toRing_one]
  field_simp

/-- The halves do not cancel. -/
theorem halves_ne_zero (h : make? d digest k = some signature) :
    signature.r.residue + signature.s.residue ≠ 0 := by
  obtain ⟨x, -, -, hnonce, -, -⟩ := exists_abscissa_of_make? h
  have hsecond := second_mul_eq h
  intro hzero
  rw [← toRing_inj, toRing_add, toRing_zero] at hzero
  refine hnonce (toRing_eq_zero_iff.mp ?_)
  rw [toRing_add]
  -- `s = -r` leaves `k = -r`
  linear_combination (1 + toRing d.residue) * hzero - hsecond

/-- The factor of the base point in the verifier's sum is the nonce. -/
theorem multiplier_eq (h : make? d digest k = some signature) :
    (signature.s.value + (signature.r.residue + signature.s.residue).val * d.value) % order
      = k.value := by
  have hring : ((signature.s.value
      + (signature.r.residue + signature.s.residue).val * d.value : Nat) : ZMod order)
      = (k.value : ZMod order) := by
    have hsecond := second_mul_eq h
    have hsum : (((signature.r.residue + signature.s.residue).val : Nat) : ZMod order)
        = toRing signature.r.residue + toRing signature.s.residue := toRing_add _ _
    simp only [toRing_residue] at hsecond hsum
    push_cast
    rw [hsum]
    linear_combination hsecond
  have hmod := (ZMod.natCast_eq_natCast_iff' _ _ _).mp hring
  rw [hmod, Nat.mod_eq_of_lt k.lt_order]

/-- A signature that was made is valid. -/
theorem isValid_of_make? (h : make? d digest k = some signature) :
    signature.isValid (d.times generator) digest = true := by
  obtain ⟨x, hx, hr, -, -, -⟩ := exists_abscissa_of_make? h
  have hpoint : (signature.s.times generator).add ((d.times generator).multiple
      (signature.r.residue + signature.s.residue).val) = k.times generator := by
    simp only [Scalar.times]
    rw [Point.multiple_add_multiple, multiplier_eq h]
  have hne := halves_ne_zero h
  simp only [isValid, hpoint, hx, Bool.and_eq_true]
  exact ⟨decide_eq_true hne, decide_eq_true hr.symm⟩

/-! ## 2. Signatures as bytes -/

/-- A signature has 64 bytes. -/
theorem length_toBytes (signature : Signature) : signature.toBytes.length = length := by
  simp [toBytes, length, KeyMaterial.coordinateLength]

/-- A signature is read back from its bytes. -/
theorem ofBytes?_toBytes (signature : Signature) :
    ofBytes? signature.toBytes = some signature := by
  have htake : signature.toBytes.take KeyMaterial.coordinateLength = signature.r.toBytes :=
    List.take_left' signature.r.length_toBytes
  have hdrop : signature.toBytes.drop KeyMaterial.coordinateLength = signature.s.toBytes :=
    List.drop_left' signature.r.length_toBytes
  simp only [ofBytes?, htake, hdrop, Scalar.ofBytes?_toBytes, Option.bind_eq_bind,
    Option.bind_some]
  rfl

end Signature

/-! ## 3. Signing -/

/-- A digest is signed with a nonce that gives a signature. -/
theorem signWith_eq_ok_iff {d k : Scalar} {digest : Fin order} {signature : Bytes} :
    signWith d digest k = .ok signature ↔
      ∃ pair, Signature.make? d digest k = some pair ∧ signature = pair.toBytes := by
  unfold signWith
  cases Signature.make? d digest k with
  | none => simp
  | some pair => simp [eq_comm]

/-- A nonce that gives no signature is the one reason not to sign with it. -/
theorem signWith_eq_error_iff {d k : Scalar} {digest : Fin order} {error : Error} :
    signWith d digest k = .error error ↔
      error = .noSignature ∧ Signature.make? d digest k = none := by
  unfold signWith
  cases Signature.make? d digest k with
  | none => simp [eq_comm]
  | some pair => simp

namespace PrivateKey

variable {key : PrivateKey} {d : Scalar} {message : Bytes} {identity : String}

/-- Under an identity that is not too long, the message is signed with its
nonce, and there is no answer without one. -/
theorem sign?_eq_map (hscalar : key.scalar = .ok d)
    (hfits : (Utf8.encode identity).length ≤ maxIdentityLength) :
    key.sign? message identity
      = (nonce? d (messageDigest (Utf8.encode identity) (d.times generator) message)).map
          (signWith d (messageDigest (Utf8.encode identity) (d.times generator) message)) := by
  simp only [sign?, hscalar, if_neg (Nat.not_lt.mpr hfits)]

/-- Under an identity that is too long nothing is signed. -/
theorem sign?_of_long (hscalar : key.scalar = .ok d)
    (hlong : maxIdentityLength < (Utf8.encode identity).length) :
    key.sign? message identity = some (.error .signingIdentityTooLong) := by
  simp only [sign?, hscalar, if_pos hlong]

/-- A caller is given the answer of the signer. -/
theorem sign_of_sign? {answer : Except Error Bytes}
    (h : key.sign? message identity = some answer) : key.sign message identity = answer := by
  rw [sign, h, Option.getD_some]

/-- The signatures that a caller is given are those of the signer. -/
theorem sign_eq_ok_iff_sign? {signature : Bytes} :
    key.sign message identity = .ok signature
      ↔ key.sign? message identity = some (.ok signature) := by
  rw [sign]
  cases key.sign? message identity with
  | none => simp
  | some answer => simp

/-- The mark of an endless search is no answer. -/
theorem sign?_ne_noAnswer : key.sign? message identity ≠ some (.error .noAnswer) := by
  rcases key.scalar_eq_ok_or_error with ⟨d, hscalar⟩ | hscalar
  · by_cases hfits : (Utf8.encode identity).length ≤ maxIdentityLength
    · rw [sign?_eq_map hscalar hfits, Ne, Option.map_eq_some_iff]
      rintro ⟨k, -, h⟩
      obtain ⟨herror, -⟩ := signWith_eq_error_iff.mp h
      simp at herror
    · rw [sign?_of_long hscalar (Nat.not_le.mp hfits)]
      simp
  · simp [sign?, hscalar]

/-- A caller is given that mark where there is no answer, and nowhere
else. -/
theorem sign_eq_noAnswer_iff :
    key.sign message identity = .error .noAnswer ↔ key.sign? message identity = none := by
  constructor
  · intro h
    cases hanswer : key.sign? message identity with
    | none => rfl
    | some answer =>
      rw [sign_of_sign? hanswer] at h
      rw [h] at hanswer
      exact absurd hanswer sign?_ne_noAnswer
  · intro h
    rw [sign, h, Option.getD_none]

end PrivateKey

/-! ## 4. Signing and verifying -/

variable {privateKey : PrivateKey} {d : Scalar} {message : Bytes} {identity : String}
  {signature : Bytes}

/-- Signing gives the signature made for the digest of the message under
its nonce, if the identity is not too long. -/
theorem sign_eq_ok_iff (hscalar : privateKey.scalar = .ok d) :
    privateKey.sign message identity = .ok signature ↔
      (Utf8.encode identity).length ≤ maxIdentityLength ∧ ∃ k pair,
        nonce? d (messageDigest (Utf8.encode identity) (d.times generator) message) = some k
        ∧ Signature.make? d (messageDigest (Utf8.encode identity) (d.times generator) message) k
          = some pair
        ∧ signature = pair.toBytes := by
  rw [PrivateKey.sign_eq_ok_iff_sign?]
  by_cases hfits : (Utf8.encode identity).length ≤ maxIdentityLength
  · rw [PrivateKey.sign?_eq_map hscalar hfits, Option.map_eq_some_iff]
    simp only [signWith_eq_ok_iff, hfits, true_and, exists_and_left]
  · rw [PrivateKey.sign?_of_long hscalar (Nat.not_le.mp hfits)]
    simp [hfits]

/-- Every signature that was made verifies under the public point of the
private scalar, and consists of two scalars. -/
theorem verify_of_sign (hscalar : privateKey.scalar = .ok d) {key : PublicKey}
    (hpoint : key.point = .ok (d.times generator))
    (h : privateKey.sign message identity = .ok signature) :
    key.verify message signature identity = .ok true ∧
    ∃ r s : Scalar, signature = r.toBytes ++ s.toBytes := by
  obtain ⟨hfits, k, pair, -, hmade, hsignature⟩ := (sign_eq_ok_iff hscalar).mp h
  refine ⟨?_, pair.r, pair.s, hsignature⟩
  have hlong : ¬ pair.toBytes.length ≠ Signature.length := not_not_intro pair.length_toBytes
  have hlimit : ¬ maxIdentityLength < (Utf8.encode identity).length := Nat.not_lt.mpr hfits
  rw [hsignature]
  unfold PublicKey.verify
  simp only [if_neg hlong, hpoint, if_neg hlimit, pair.ofBytes?_toBytes]
  exact congrArg Except.ok (Signature.isValid_of_make? hmade)

/-! ## 5. A letter that is signed -/

/-- The private scalar one. -/
def letterKey : Scalar := ⟨1, by decide, by decide⟩

/-- The digest of the letter `a` under the key one and the default
identity. -/
def letterDigest : Fin order :=
  Fin.ofNat _ 0x03B9DAD03B7E6AC1E01D5B1D0160BFE151D7FCBE6AA548B35E1D5CC776BDE757

/-- The first candidate for its nonce. -/
def letterNonce : Scalar :=
  ⟨0xC0BD62DF348355C0D5725390FAA6246F1B119E9C5A20D9F3B89C56EA8C03B930, by decide, by decide⟩

/-- Its signature. -/
def letterSignature : Signature :=
  ⟨⟨0x3896930064FE5FF07B534DB0061FA675A0EDDCEE8A2C5FE4E8C25789A39993D3, by decide, by decide⟩,
   ⟨0xC41367EEE7C27AE82D0F82F07A433EFC7613D08C78DD3F9D11CAF9B5111FB340, by decide, by decide⟩⟩

theorem length_encode_defaultIdentity : (Utf8.encode defaultIdentity).length = 16 := by
  decide +kernel

/-- The first candidate is a scalar, and of use. -/
theorem letter_signed :
    messageDigest (Utf8.encode defaultIdentity) (letterKey.times generator) (Utf8.encode "a")
        = letterDigest
      ∧ Scalar.ofBytes? (NonceState.start letterKey letterDigest).candidate = some letterNonce
      ∧ Signature.make? letterKey letterDigest letterNonce = some letterSignature := by
  have htimes : letterNonce.times generator = .affine
      (Fin.ofNat _ 0x34DCB830297FF52E9B35F29304BEE6944F15E0301F8717318AA4FAC22CDBAC7C)
      (Fin.ofNat _ 0x8A893A300678D061B560FB47BA66B9F4EF8B4C3FEFD9E5336ECA627887856139) :=
    ScaledPoint.multiple_eq_of_climb? onCurve_generator (by decide) (by decide +kernel)
  refine ⟨by decide +kernel, by decide +kernel, ?_⟩
  rw [Signature.make?, htimes]
  decide +kernel

end ColumnMasking.Sm2
