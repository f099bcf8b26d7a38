/-
ColumnMasking.Proofs.Sm2.SigningOutcomes — when signing gives no signature.

The nonce of a signature is the first candidate of the generator that is a
scalar (`NonceState.firstScalar?_eq_some_iff`); candidates that are none are
passed over, for as long as it takes, and where that is for ever there is no
answer at all (`PrivateKey.sign?_eq_none_iff`). One nonce is tried, so signing
fails where that nonce is useless: where one of the halves is zero, or the
first one cancels the nonce (`Signature.make?_eq_none_iff`).

One key is of no use whatever the nonce is. The second half is a quotient by
one more than the private scalar, and that is zero for the order less one
(`one_add_residue_eq_zero_iff`), which is a scalar like any other. Every
other key that is accepted or generated fails for useless nonces alone
(`PrivateKey.sign_fails_iff_useless`).
-/
import ColumnMasking.Proofs.Sm2.SignatureTheorems

namespace ColumnMasking.Sm2

/-! ## 1. The search for a nonce -/

namespace NonceState

variable {g : NonceState} {k : Scalar}

/-- The scalar that the generator gives after `i` candidates, if that one is
a scalar. -/
def scalarAfter? (g : NonceState) (i : Nat) : Option Scalar :=
  Scalar.ofBytes? (next^[i] g).candidate

/-- The scalar is the first one among the candidates. -/
def Derives (g : NonceState) (k : Scalar) : Prop :=
  ∃ i, g.scalarAfter? i = some k ∧ ∀ j < i, g.scalarAfter? j = none

@[simp] theorem scalarAfter?_zero : g.scalarAfter? 0 = Scalar.ofBytes? g.candidate := rfl

@[simp] theorem scalarAfter?_succ (i : Nat) : g.scalarAfter? (i + 1) = g.next.scalarAfter? i := rfl

theorem derives_of_some (h : Scalar.ofBytes? g.candidate = some k) : g.Derives k :=
  ⟨0, scalarAfter?_zero.trans h, fun j hj => absurd hj (Nat.not_lt_zero j)⟩

/-- Where a candidate is none, the search goes on from the next state. -/
theorem derives_of_none (hnone : Scalar.ofBytes? g.candidate = none) (h : g.next.Derives k) :
    g.Derives k := by
  obtain ⟨i, hi, hbefore⟩ := h
  refine ⟨i + 1, (scalarAfter?_succ i).trans hi, ?_⟩
  intro j hj
  cases j with
  | zero => exact scalarAfter?_zero.trans hnone
  | succ j => exact (scalarAfter?_succ j).trans (hbefore j (Nat.lt_of_succ_lt_succ hj))

/-- The search ends at every scalar that no other one precedes. -/
theorem firstScalar?_of_scalarAfter? {i : Nat} (h : g.scalarAfter? i = some k)
    (hbefore : ∀ j < i, g.scalarAfter? j = none) : g.firstScalar? = some k := by
  induction i generalizing g with
  | zero => exact firstScalar?_of_some (scalarAfter?_zero.symm.trans h)
  | succ i ih =>
    have hnone := hbefore 0 i.succ_pos
    rw [scalarAfter?_zero] at hnone
    rw [firstScalar?_of_none hnone]
    refine ih ((scalarAfter?_succ i).symm.trans h) ?_
    intro j hj
    exact (scalarAfter?_succ j).symm.trans (hbefore (j + 1) (Nat.succ_lt_succ hj))

/-- What the search finds is the first scalar among the candidates, and it
finds one where there is one. -/
theorem firstScalar?_eq_some_iff : g.firstScalar? = some k ↔ g.Derives k := by
  constructor
  · -- along the calls of the search
    refine firstScalar?.partial_correctness Derives ?_ g k
    intro search ih g k h
    split at h
    · rename_i k' hk'
      obtain rfl := Option.some.inj h
      exact derives_of_some hk'
    · rename_i hnone
      exact derives_of_none hnone (ih _ _ h)
  · rintro ⟨i, hi, hbefore⟩
    exact firstScalar?_of_scalarAfter? hi hbefore

end NonceState

/-! ## 2. Useless nonces -/

/-- One more than a private scalar is zero when the scalar is the order less
one. -/
theorem one_add_residue_eq_zero_iff {d : Scalar} :
    1 + d.residue = 0 ↔ d.value = order - 1 := by
  have hlt := d.lt_order
  have hpos := d.pos
  rw [← toRing_eq_zero_iff, toRing_add, toRing_one, toRing_residue, ← Nat.cast_one,
    ← Nat.cast_add, ZMod.natCast_eq_zero_iff]
  constructor
  · intro hdvd
    have hle := Nat.le_of_dvd (by omega) hdvd
    omega
  · intro hlast
    rw [hlast, Nat.add_sub_cancel' (by omega : 1 ≤ order)]

/-- One more than a private scalar has an inverse unless the scalar is the
order less one. -/
theorem isUnit_one_add_iff {d : Scalar} :
    IsUnit (1 + (d.value : ZMod order)) ↔ d.value ≠ order - 1 := by
  rw [isUnit_iff_ne_zero, ← toRing_residue, ← toRing_one, ← toRing_add, Ne, toRing_eq_zero_iff,
    one_add_residue_eq_zero_iff]

/-- A scalar multiple of the base point has a first coordinate. -/
theorem Scalar.exists_abscissa (k : Scalar) :
    ∃ x, (k.times generator).abscissa? = some x := by
  cases hpoint : k.times generator with
  | infinity => exact absurd hpoint k.times_generator_ne_infinity
  | affine x y => exact ⟨x, rfl⟩

/-- Zero is the one residue that is no scalar. -/
theorem Scalar.ofNat?_val_eq_none_iff {r : Fin order} : ofNat? r.val = none ↔ r = 0 := by
  have hlt := r.isLt
  rw [Option.eq_none_iff_forall_ne_some, ← not_exists, exists_ofNat?_iff, ← Fin.val_eq_zero_iff]
  omega

/-- A nonce is useless for a digest under a private scalar: with `x` the
first coordinate of its multiple of the base point, the first half
`r = e + x` is zero, or it cancels the nonce, or the second half
`(1 + d)⁻¹ (k - r d)` is zero. -/
def UselessNonce (d : Scalar) (digest : Fin order) (k : Scalar) : Prop :=
  ∃ x, (k.times generator).abscissa? = some x ∧
    let r := (digest.val + x.val) % order
    r = 0 ∨ r + k.value = order
      ∨ (1 + (d.value : ZMod order))⁻¹ * ((k.value : ZMod order) - r * d.value) = 0

namespace Signature

variable {d k : Scalar} {digest : Fin order}

/-- A half that is not zero cancels the nonce when their sum is the order. -/
theorem add_residue_eq_zero_iff {r : Fin order} (hr : r ≠ 0) :
    r + k.residue = 0 ↔ r.val + k.value = order := by
  have hpos : 0 < r.val := Nat.pos_of_ne_zero fun hzero => hr (Fin.ext hzero)
  have hlt := k.lt_order
  have hrlt := r.isLt
  have hval : (r + k.residue).val = (r.val + k.value) % order := Fin.val_add _ _
  rw [← Fin.val_inj, hval, Fin.val_zero]
  -- the sum is not zero and below twice the order
  by_cases hsmall : r.val + k.value < order
  · rw [Nat.mod_eq_of_lt hsmall]
    omega
  · rw [Nat.mod_eq_sub_mod (Nat.not_lt.mp hsmall), Nat.mod_eq_of_lt (by omega)]
    omega

/-- There is no signature where a half is zero, or the first one cancels the
nonce, or the private scalar is the order less one. -/
theorem make?_eq_none_iff_residue {x : Field} (hx : (k.times generator).abscissa? = some x) :
    make? d digest k = none ↔
      let r := digest + Fin.ofNat order x.val
      1 + d.residue = 0 ∨ r = 0 ∨ r + k.residue = 0
        ∨ inverse (1 + d.residue) * (k.residue - r * d.residue) = 0 := by
  simp only [make?, hx, Option.bind_eq_bind, Option.bind_some]
  generalize digest + Fin.ofNat order x.val = r
  generalize inverse (1 + d.residue) * (k.residue - r * d.residue) = s
  by_cases huse : r + k.residue = 0 ∨ 1 + d.residue = 0
  · rw [if_pos huse]
    simp only [Option.bind_none, true_iff]
    tauto
  · rw [if_neg huse, ← Scalar.ofNat?_val_eq_none_iff (r := r),
      ← Scalar.ofNat?_val_eq_none_iff (r := s)]
    obtain ⟨hcancel, hkey⟩ := not_or.mp huse
    cases Scalar.ofNat? r.val <;> cases Scalar.ofNat? s.val <;> simp [hcancel, hkey]

/-- Unless the private scalar is the order less one, a nonce gives no
signature exactly when it is useless. -/
theorem make?_eq_none_iff (hd : d.value ≠ order - 1) :
    make? d digest k = none ↔ UselessNonce d digest k := by
  obtain ⟨x, hx⟩ := k.exists_abscissa
  have hkey : 1 + d.residue ≠ 0 := fun hzero => hd (one_add_residue_eq_zero_iff.mp hzero)
  rw [make?_eq_none_iff_residue hx]
  simp only [UselessNonce, hx, Option.some.injEq, exists_eq_left', ← val_add_ofNat, hkey, false_or,
    Fin.val_eq_zero_iff]
  generalize digest + Fin.ofNat order x.val = r
  have hs : inverse (1 + d.residue) * (k.residue - r * d.residue) = 0
      ↔ (1 + (d.value : ZMod order))⁻¹
        * ((k.value : ZMod order) - ((r.val : Nat) : ZMod order) * d.value) = 0 := by
    rw [← toRing_eq_zero_iff, toRing_mul, toRing_inverse hkey, toRing_sub, toRing_mul, toRing_add,
      toRing_one]
    rfl
  rw [hs]
  -- what cancels the nonce is stated for a first half that is not zero
  by_cases hzero : r = 0
  · simp only [hzero, true_or]
  · rw [add_residue_eq_zero_iff hzero]

/-- The order less one gives no signature with any nonce. -/
theorem make?_of_order_pred (hd : d.value = order - 1) : make? d digest k = none := by
  obtain ⟨x, hx⟩ := k.exists_abscissa
  exact (make?_eq_none_iff_residue hx).mpr (.inl (one_add_residue_eq_zero_iff.mpr hd))

end Signature

/-! ## 3. A letter under the order less one -/

/-- The order less one as a private scalar. -/
def lastKey : Scalar := ⟨order - 1, by decide, by decide⟩

/-- The digest of the letter `a` under it and the default identity. -/
def lastDigest : Fin order :=
  Fin.ofNat _ 0xCEE735D2EADF3AFA257D1098A5DF019066CC00A4BF17F400BDB06CB3634E8926

/-- The nonce for it. -/
def lastNonce : Scalar :=
  ⟨0x78222E818A72DCB9FB78E7AE98B18F84EF23AFAA06F04500BCEAD38A12DCF205, by decide, by decide⟩

/-- The first coordinate of the multiple of the base point by that nonce. -/
def lastAbscissa : Field :=
  Fin.ofNat _ 0xB23596E7FBE8B9013B3454AD0C360AC92FBD24D5CB6ED5CA8C095A85C20F857C

/-- The first candidate is a scalar, and the first half that it gives neither is
zero nor cancels it, nor is that zero which the second half would be a quotient
of. -/
theorem last_derived :
    messageDigest (Utf8.encode defaultIdentity) (lastKey.times generator) (Utf8.encode "a")
        = lastDigest
      ∧ Scalar.ofBytes? (NonceState.start lastKey lastDigest).candidate = some lastNonce
      ∧ (lastNonce.times generator).abscissa? = some lastAbscissa
      ∧ (lastDigest.val + lastAbscissa.val) % order ≠ 0
      ∧ (lastDigest.val + lastAbscissa.val) % order + lastNonce.value ≠ order
      ∧ (lastNonce.value : ZMod order)
          - ((lastDigest.val + lastAbscissa.val) % order : Nat) * lastKey.value ≠ 0 := by
  have hkey : lastKey.times generator = .affine
      (Fin.ofNat _ 0x32C4AE2C1F1981195F9904466A39C9948FE30BBFF2660BE1715A4589334C74C7)
      (Fin.ofNat _ 0x43C8C95C0B098863A642311C9496DEAC2F56788239D5B8C0FD20CD1ADEC60F5F) :=
    ScaledPoint.multiple_eq_of_climb? onCurve_generator (by decide) (by decide +kernel)
  have hnonce : lastNonce.times generator = .affine lastAbscissa
      (Fin.ofNat _ 0x6EB771D9811762BFBCE584B4F18497AD4C66E8E16BF76FCA117257F392961E6A) :=
    ScaledPoint.multiple_eq_of_climb? onCurve_generator (by decide) (by decide +kernel)
  have hdividend : lastNonce.residue
      - (lastDigest + Fin.ofNat order lastAbscissa.val) * lastKey.residue ≠ 0 := by
    decide +kernel
  rw [Ne, ← toRing_eq_zero_iff, toRing_sub, toRing_mul] at hdividend
  rw [hkey, hnonce]
  refine ⟨by decide +kernel, by decide +kernel, rfl, by decide +kernel, by decide +kernel, ?_⟩
  rw [← Signature.val_add_ofNat]
  exact hdividend

/-! ## 4. Signing -/

namespace PrivateKey

variable {key : PrivateKey} {d : Scalar} {message : Bytes} {identity : String}

/-- Under an identity that is not too long there is no answer when no nonce is
derived. -/
theorem sign?_eq_none_iff (hscalar : key.scalar = .ok d)
    (hfits : (Utf8.encode identity).length ≤ maxIdentityLength) :
    key.sign? message identity = none ↔
      ¬ ∃ k, (NonceState.start d
        (messageDigest (Utf8.encode identity) (d.times generator) message)).Derives k := by
  rw [sign?_eq_map hscalar hfits, Option.map_eq_none_iff, Option.eq_none_iff_forall_ne_some,
    not_exists]
  exact forall_congr' fun k => not_congr NonceState.firstScalar?_eq_some_iff

/-- Under an identity that is not too long the answer is what the nonce that
is derived gives. -/
theorem sign?_eq_some_iff (hscalar : key.scalar = .ok d)
    (hfits : (Utf8.encode identity).length ≤ maxIdentityLength) {answer : Except Error Bytes} :
    key.sign? message identity = some answer ↔
      ∃ k, (NonceState.start d
        (messageDigest (Utf8.encode identity) (d.times generator) message)).Derives k ∧
        signWith d (messageDigest (Utf8.encode identity) (d.times generator) message) k
          = answer := by
  rw [sign?_eq_map hscalar hfits, Option.map_eq_some_iff]
  exact exists_congr fun k => and_congr_left' NonceState.firstScalar?_eq_some_iff

/-- Under the order less one the answer is a failure. -/
theorem signWith_of_order_pred (hd : d.value = order - 1) (digest : Fin order) (k : Scalar) :
    signWith d digest k = .error .noSignature :=
  signWith_eq_error_iff.mpr ⟨rfl, Signature.make?_of_order_pred hd⟩

/-- Under the order less one nothing is signed. -/
theorem sign?_ne_ok_of_order_pred (hscalar : key.scalar = .ok d) (hd : d.value = order - 1)
    (hfits : (Utf8.encode identity).length ≤ maxIdentityLength) (signature : Bytes) :
    key.sign? message identity ≠ some (.ok signature) := by
  intro h
  obtain ⟨k, -, hsigned⟩ := (sign?_eq_some_iff hscalar hfits).mp h
  rw [signWith_of_order_pred hd] at hsigned
  exact absurd hsigned nofun

/-- A key that is accepted or generated is the key of a scalar. -/
theorem exists_scalar_of_accepted_or_generated (h : (∃ m, ofMaterial m = .ok key)
      ∨ ∃ e pair rest, KeyPair.generate.run e = (.ok pair, rest) ∧ pair.privateKey = key) :
    ∃ d, key.scalar = .ok d := by
  rcases h with ⟨m, hm⟩ | ⟨e, pair, rest, hpair, rfl⟩
  · obtain ⟨d, rfl⟩ := eq_ofScalar_of_ofMaterial hm
    exact ⟨d, scalar_ofScalar d⟩
  · obtain ⟨d, -, rfl⟩ := KeyPair.run_generate_eq_ok_iff.mp hpair
    exact ⟨d, scalar_ofScalar d⟩

/-- Of the keys that are accepted or generated one is of no use: under the
order less one, where one more than the scalar has no inverse, nothing is
signed, and every nonce that is derived fails. Under every other key, and an
identity of at most 8191 bytes, signing a message fails exactly when the nonce
derived for it is useless, and every other nonce that is derived gives its
signature. There is no answer exactly when no nonce is derived. A caller is
given whatever answer there is, and the mark only where there is none. -/
theorem sign_fails_iff_useless (h : (∃ m, ofMaterial m = .ok key)
      ∨ ∃ e pair rest, KeyPair.generate.run e = (.ok pair, rest) ∧ pair.privateKey = key) :
    ∃ d, key.scalar = .ok d ∧
      (IsUnit (1 + (d.value : ZMod order)) ↔ d.value ≠ order - 1) ∧
      ∀ (message : Bytes) (identity : String), (Utf8.encode identity).length ≤ 8191 →
        let digest := messageDigest (Utf8.encode identity) (d.times generator) message
        let start := NonceState.start d digest
        (key.sign? message identity = none ↔ ¬ ∃ k, start.Derives k) ∧
        (key.sign message identity = .error .noAnswer ↔ key.sign? message identity = none) ∧
        (∀ answer, key.sign? message identity = some answer →
          key.sign message identity = answer) ∧
        (d.value ≠ order - 1 →
          (∀ error, key.sign? message identity = some (.error error) ↔
            error = .noSignature ∧ ∃ k, start.Derives k ∧ UselessNonce d digest k) ∧
          (∀ k, start.Derives k → ¬ UselessNonce d digest k →
            ∃ signature, Signature.make? d digest k = some signature ∧
              key.sign? message identity = some (.ok signature.toBytes))) ∧
        (d.value = order - 1 →
          (∀ k, start.Derives k → key.sign? message identity = some (.error .noSignature)) ∧
          ∀ signature, key.sign? message identity ≠ some (.ok signature)) := by
  obtain ⟨d, hscalar⟩ := exists_scalar_of_accepted_or_generated h
  refine ⟨d, hscalar, isUnit_one_add_iff, ?_⟩
  intro message identity hfits digest start
  refine ⟨sign?_eq_none_iff hscalar hfits, sign_eq_noAnswer_iff, fun _ => sign_of_sign?,
    fun hd => ⟨?_, ?_⟩, fun hd => ⟨?_, ?_⟩⟩
  · intro error
    rw [sign?_eq_some_iff hscalar hfits, ← exists_and_left]
    refine exists_congr fun k => ?_
    rw [signWith_eq_error_iff, Signature.make?_eq_none_iff hd]
    exact and_left_comm
  · intro k hk huseful
    obtain ⟨signature, hmade⟩ := Option.ne_none_iff_exists'.mp
      (mt (Signature.make?_eq_none_iff hd).mp huseful)
    refine ⟨signature, hmade, (sign?_eq_some_iff hscalar hfits).mpr ⟨k, hk, ?_⟩⟩
    exact signWith_eq_ok_iff.mpr ⟨signature, hmade, rfl⟩
  · intro k hk
    exact (sign?_eq_some_iff hscalar hfits).mpr ⟨k, hk, signWith_of_order_pred hd digest k⟩
  · exact sign?_ne_ok_of_order_pred hscalar hd hfits

/-- Under the private key one the letter `a` is signed with the nonce derived
for it. Under the order less one a nonce is derived too, and fails. -/
theorem sign_fails_iff_useless_bounds :
    ((NonceState.start letterKey letterDigest).Derives letterNonce ∧
      ¬ UselessNonce letterKey letterDigest letterNonce ∧
      (PrivateKey.ofScalar letterKey).sign? (Utf8.encode "a") defaultIdentity
        = some (.ok letterSignature.toBytes)) ∧
    ((NonceState.start lastKey lastDigest).Derives lastNonce ∧
      (PrivateKey.ofScalar lastKey).sign? (Utf8.encode "a") defaultIdentity
        = some (.error .noSignature)) := by
  have hfits : (Utf8.encode defaultIdentity).length ≤ 8191 := by
    rw [length_encode_defaultIdentity]
    decide
  constructor
  · obtain ⟨hdigest, hcandidate, hmake⟩ := letter_signed
    have hderived := NonceState.derives_of_some hcandidate
    have huseful : ¬ UselessNonce letterKey letterDigest letterNonce := by
      rw [← Signature.make?_eq_none_iff (by decide), hmake]
      exact nofun
    obtain ⟨d, hd, -, hsigning⟩ :=
      sign_fails_iff_useless (.inl ⟨_, ofMaterial_toBytes letterKey .hex⟩)
    obtain rfl := Except.ok.inj ((scalar_ofScalar letterKey).symm.trans hd)
    obtain ⟨-, -, -, hother, -⟩ := hsigning (Utf8.encode "a") defaultIdentity hfits
    rw [hdigest] at hother
    obtain ⟨signature, hmade, hsigned⟩ := (hother (by decide)).right letterNonce hderived huseful
    obtain rfl := Option.some.inj (hmake.symm.trans hmade)
    exact ⟨hderived, huseful, hsigned⟩
  · obtain ⟨hdigest, hcandidate, -⟩ := last_derived
    have hderived := NonceState.derives_of_some hcandidate
    obtain ⟨d, hd, -, hsigning⟩ :=
      sign_fails_iff_useless (.inl ⟨_, ofMaterial_toBytes lastKey .hex⟩)
    obtain rfl := Except.ok.inj ((scalar_ofScalar lastKey).symm.trans hd)
    obtain ⟨-, -, -, -, hlast⟩ := hsigning (Utf8.encode "a") defaultIdentity hfits
    rw [hdigest] at hlast
    exact ⟨hderived, (hlast rfl).left lastNonce hderived⟩

/-- The digits of the order less one are accepted as a private key text, and one
more than its scalar has no inverse. Signing the letter `a` fails under it
though the nonce derived for it is not useless: the first half is not zero and
does not cancel the nonce, and neither is that zero which the second half is a
quotient of. In fact it signs nothing. -/
theorem exists_key_that_never_signs :
    ∃ m key d, KeyMaterial.sm2PrivateKey
          "fffffffeffffffffffffffffffffffff7203df6b21c6052b53bbf40939d54122" .hex = .ok m
      ∧ ofMaterial m = .ok key ∧ key.scalar = .ok d
      ∧ ¬ IsUnit (1 + (d.value : ZMod order))
      ∧ (∃ (k : Scalar) (x : Field),
          let digest := messageDigest (Utf8.encode defaultIdentity) (d.times generator)
            (Utf8.encode "a")
          let r := (digest.val + x.val) % order
          (NonceState.start d digest).Derives k ∧ (k.times generator).abscissa? = some x
          ∧ r ≠ 0 ∧ r + k.value ≠ order ∧ (k.value : ZMod order) - r * d.value ≠ 0
          ∧ key.sign? (Utf8.encode "a") defaultIdentity = some (.error .noSignature))
      ∧ ∀ (message : Bytes) (identity : String), (Utf8.encode identity).length ≤ 8191 →
          ∀ signature, key.sign? message identity ≠ some (.ok signature) := by
  have hscalar := scalar_ofScalar lastKey
  have hfits : (Utf8.encode defaultIdentity).length ≤ maxIdentityLength := by
    rw [length_encode_defaultIdentity]
    decide
  obtain ⟨hdigest, hcandidate, habscissa, hhalf, hcancel, hdividend⟩ := last_derived
  have hderived := NonceState.derives_of_some hcandidate
  rw [← hdigest] at hderived hhalf hcancel hdividend
  refine ⟨⟨lastKey.toBytes, .sm2PrivateKey, .hex⟩, .ofScalar lastKey, lastKey,
    by decide +kernel, ofMaterial_toBytes lastKey .hex, hscalar, ?_,
    ⟨lastNonce, lastAbscissa, hderived, habscissa, hhalf, hcancel, hdividend, ?_⟩, ?_⟩
  · exact fun hunit => isUnit_one_add_iff.mp hunit rfl
  · exact (sign?_eq_some_iff hscalar hfits).mpr
      ⟨lastNonce, hderived, signWith_of_order_pred rfl _ _⟩
  · intro message identity hfits
    exact sign?_ne_ok_of_order_pred hscalar rfl hfits

end PrivateKey

end ColumnMasking.Sm2
