/-
ColumnMasking.Proofs.Engine.Sm2Outcomes — what decides the outcome of an SM2
call that verifies or deciphers.

A call looks for the faults of the key first and then for those of the text
that it is given (`decidedBy_sm2Verify`, `decidedBy_sm2Decrypt`). Past these a
verifier has an answer in any case, and a ciphertext is deciphered or
undecipherable. The key itself is never found unfit afterwards: those who
accept a private key and those who use it agree on what a scalar is
(`exists_ofMaterial_iff_scalar`).
-/
import ColumnMasking.Proofs.Engine.ReadTexts
import ColumnMasking.Proofs.Engine.Sm2Keys
import ColumnMasking.Proofs.ExportedKeys
import ColumnMasking.Proofs.Sm2.VerificationOutcomes
import ColumnMasking.Suite

namespace ColumnMasking.Engine

variable {engine : Engine} {publicKey privateKey message signature ciphertext : String}
  {identity : Option String} {layout : Sm2.Layout} {encoding : Encoding}

/-! ## 1. Verifying -/

/-- How a signature text is verified or refused. -/
theorem decidedBy_sm2Verify :
    DecidedBy (engine.sm2Verify publicKey message signature identity encoding).result
      [(¬ ∃ p, engine.PublicPoint publicKey p, .invalidKey),
       (¬ ∃ bytes, encoding.decode signature = .ok bytes ∧ bytes.length = 64, .decoding),
       (8191 < (Utf8.encode (identityOr identity)).length, .invalidKey)]
      fun outcome => ∃ p bytes valid, engine.PublicPoint publicKey p ∧
        encoding.decode signature = .ok bytes ∧ outcome = .ok valid ∧
        (valid = true ↔ Sm2.Signature.Accepted p
          (Sm2.messageDigest (Utf8.encode (identityOr identity)) p (Utf8.encode message))
          (Sm2.Signature.firstHalf bytes) (Sm2.Signature.secondHalf bytes)) := by
  unfold sm2Verify
  simp only [Checked.result_bind, Checked.result_ofExcept]
  refine decidedBy_sm2PublicKey.bind fun key hkey => ?_
  obtain ⟨p, hp, rfl⟩ := sm2PublicKey_eq_ok_iff.mp hkey
  have hpoint := Sm2.PublicKey.point_ofPoint hp.left hp.right.left
  by_cases hread : ∃ bytes, encoding.decode signature = .ok bytes ∧ bytes.length = 64
  · refine .of_not (not_not_intro hread) ?_
    obtain ⟨bytes, hbytes, hlength⟩ := hread
    rw [hbytes]
    by_cases hlong : 8191 < (Utf8.encode (identityOr identity)).length
    · refine .of_fault hlong ⟨.sm2 .verifyingIdentityTooLong, ?_, rfl⟩
      exact mapError_eq_error_iff.mpr
        ⟨_, Sm2.verify_of_identity hpoint hlength hlong (Utf8.encode message), rfl⟩
    · obtain ⟨valid, hvalid, hverdict⟩ :=
        Sm2.exists_verdict hpoint hlength (Nat.not_lt.mp hlong) (Utf8.encode message)
      exact .of_not hlong
        ⟨p, bytes, valid, hp, rfl, mapError_eq_ok_iff.mpr hvalid, hverdict⟩
  · refine .of_fault hread ?_
    cases hbytes : encoding.decode signature with
    | error cause => exact ⟨.decoding cause, rfl, rfl⟩
    | ok bytes =>
      have hlength : bytes.length ≠ Sm2.Signature.length := fun h => hread ⟨bytes, hbytes, h⟩
      exact ⟨.sm2 (.signatureLength bytes.length), mapError_eq_error_iff.mpr
        ⟨_, Sm2.verify_of_length hlength _ (Utf8.encode message), rfl⟩, rfl⟩

/-- A verifier separates what is malformed from what is false. The outcome is
decided by the first fault that applies: a public key text that stands for no
point of the curve, a signature text that is not read as 64 bytes, an identity
of more than 8191 bytes. Past these the answer is yes or no. It is no when a
half is zero or not below the order, or when the order divides their sum. It
is yes only if the digest and the first coordinate of the sum point, zero for
infinity, leave the first half; that and that the sum point is not infinity is
all that is asked of other halves. No identity, the empty one and the default
one are the same. -/
theorem sm2Verify_outcomes (engine : Engine) (publicKey message signature : String)
    (identity : Option String) (encoding : Encoding) :
    DecidedBy (engine.sm2Verify publicKey message signature identity encoding).result
      [(¬ ∃ p, engine.PublicPoint publicKey p, .invalidKey),
       (¬ ∃ bytes, encoding.decode signature = .ok bytes ∧ bytes.length = 64, .decoding),
       (8191 < (Utf8.encode (identityOr identity)).length, .invalidKey)]
      (fun outcome => ∃ p bytes valid, engine.PublicPoint publicKey p ∧
        encoding.decode signature = .ok bytes ∧ outcome = .ok valid ∧
        let r := Bytes.toNat (bytes.take 32)
        let s := Bytes.toNat (bytes.drop 32)
        let digest :=
          Sm2.messageDigest (Utf8.encode (identityOr identity)) p (Utf8.encode message)
        let sum := (Sm2.generator.multiple s).add (p.multiple (r + s))
        (r = 0 ∨ Sm2.order ≤ r ∨ s = 0 ∨ Sm2.order ≤ s ∨ Sm2.order ∣ r + s → valid = false) ∧
        (valid = true → (digest.val + sum.abscissa) % Sm2.order = r) ∧
        ((0 < r ∧ r < Sm2.order) → (0 < s ∧ s < Sm2.order) → ¬ Sm2.order ∣ r + s →
          (valid = true
            ↔ sum ≠ .infinity ∧ (digest.val + sum.abscissa) % Sm2.order = r))) ∧
    engine.sm2Verify publicKey message signature (some "") encoding
      = engine.sm2Verify publicKey message signature none encoding ∧
    engine.sm2Verify publicKey message signature (some Sm2.defaultIdentity) encoding
      = engine.sm2Verify publicKey message signature none encoding := by
  refine ⟨decidedBy_sm2Verify.imp ?_, rfl, rfl⟩
  rintro ⟨p, bytes, valid, hp, hbytes, houtcome, hverdict⟩
  refine ⟨p, bytes, valid, hp, hbytes, houtcome, ?_, ?_, ?_⟩
  · intro hhalves
    rw [← Bool.not_eq_true, hverdict]
    rintro ⟨hr, hs, hcancel, -, -⟩
    rcases hhalves with h | h | h | h | h
    · exact absurd hr.left (Nat.not_lt.mpr (Nat.le_of_eq h))
    · exact absurd hr.right (Nat.not_lt.mpr h)
    · exact absurd hs.left (Nat.not_lt.mpr (Nat.le_of_eq h))
    · exact absurd hs.right (Nat.not_lt.mpr h)
    · exact hcancel h
  · intro hvalid
    exact (hverdict.mp hvalid).congruent
  · intro hr hs hcancel
    rw [hverdict]
    constructor
    · intro h
      exact ⟨h.finite, h.congruent⟩
    · rintro ⟨hfinite, hcongruent⟩
      exact ⟨hr, hs, hcancel, hfinite, hcongruent⟩

/-- Under the key of the base point, the signature of the letter `a` is true,
and 64 zeros are false. So are one and the order less one, whose sum the order
divides. -/
theorem sm2Verify_outcomes_generator :
    (Engine.default.sm2Verify (Hex.encode Sm2.generator.encode) "a"
      (Hex.encode Sm2.letterSignature.toBytes) none .hex).result = .ok true ∧
    (Engine.default.sm2Verify (Hex.encode Sm2.generator.encode) "a"
      (Hex.encode (List.replicate 64 0)) none .hex).result = .ok false ∧
    (Engine.default.sm2Verify (Hex.encode Sm2.generator.encode) "a"
      (Hex.encode (Bytes.ofNat 32 1 ++ Bytes.ofNat 32 (Sm2.order - 1))) none .hex).result
        = .ok false := by
  have hpoint : Engine.default.PublicPoint (Hex.encode Sm2.generator.encode) Sm2.generator :=
    ⟨Sm2.onCurve_generator, Sm2.Point.noConfusion, ⟨_, .sm2PublicKey, .hex⟩,
      KeyMaterial.sm2PublicKey_encode (by decide +kernel) false, rfl⟩
  have hread (bs : Bytes) : Encoding.hex.decode (Hex.encode bs) = .ok bs :=
    Encoding.decode_encode .hex bs
  -- past the three faults, for any signature of 64 bytes
  have hanswer (bs : Bytes) (hlength : bs.length = 64) := by
    obtain ⟨⟨-, hkey⟩, -⟩ := sm2Verify_outcomes Engine.default
      (Hex.encode Sm2.generator.encode) "a" (Hex.encode bs) none .hex
    obtain ⟨-, hbytes⟩ := hkey (not_not_intro ⟨_, hpoint⟩)
    obtain ⟨-, hidentity⟩ := hbytes (not_not_intro ⟨_, hread bs, hlength⟩)
    exact hidentity (by decide +kernel)
  refine ⟨?_, ?_, ?_⟩
  · obtain ⟨p, bytes, valid, hp, hsame, houtcome, -, -, hverdict⟩ :=
      hanswer _ Sm2.letterSignature.length_toBytes
    obtain rfl := hpoint.unique hp
    obtain rfl := Except.ok.inj ((hread _).symm.trans hsame)
    have hfirst : Bytes.toNat (Sm2.letterSignature.toBytes.take 32)
        = Sm2.letterSignature.r.value := by
      decide +kernel
    have hsecond : Bytes.toNat (Sm2.letterSignature.toBytes.drop 32)
        = Sm2.letterSignature.s.value := by
      decide +kernel
    obtain ⟨hdigest, -, hmade⟩ := Sm2.letter_signed
    obtain ⟨x, hx, hr, -⟩ := Sm2.Signature.exists_abscissa_of_make? hmade
    -- the sum point is the multiple by the nonce of the signature
    have hsum : (Sm2.generator.multiple Sm2.letterSignature.s.value).add
        (Sm2.generator.multiple (Sm2.letterSignature.r.value + Sm2.letterSignature.s.value))
        = Sm2.letterNonce.times Sm2.generator :=
      Sm2.Point.multiple_add_multiple _ _ 1
    have habscissa : (Sm2.letterNonce.times Sm2.generator).abscissa = x.val := by
      rw [Sm2.Point.abscissa, hx, Option.getD_some]
    rw [hfirst, hsecond, hsum, habscissa] at hverdict
    have htrue : valid = true := by
      refine (hverdict ?_ ?_ ?_).mpr ⟨Sm2.letterNonce.times_generator_ne_infinity, ?_⟩
      · decide +kernel
      · decide +kernel
      · decide +kernel
      · exact (congrArg (fun digest => (digest.val + x.val) % Sm2.order) hdigest).trans
          (Sm2.Signature.add_ofNat_eq_residue_iff.mp hr.symm)
    rw [houtcome, htrue]
  · obtain ⟨p, bytes, valid, -, hsame, houtcome, hfalse, -⟩ := hanswer (List.replicate 64 0) rfl
    obtain rfl := Except.ok.inj ((hread _).symm.trans hsame)
    rw [houtcome, hfalse (.inl rfl)]
  · obtain ⟨p, bytes, valid, -, hsame, houtcome, hfalse, -⟩ :=
      hanswer (Bytes.ofNat 32 1 ++ Bytes.ofNat 32 (Sm2.order - 1)) rfl
    obtain rfl := Except.ok.inj ((hread _).symm.trans hsame)
    rw [houtcome, hfalse (.inr (.inr (.inr (.inr (by decide +kernel)))))]

/-! ## 2. Deciphering -/

/-- The two checks of the range of a private key agree: 32 bytes are accepted
for a key when they are a scalar for those who use the key. -/
theorem exists_ofMaterial_iff_scalar {bs : Bytes} (hlength : bs.length = 32)
    (source : KeyMaterial.Source) :
    (∃ key, Sm2.PrivateKey.ofMaterial ⟨bs, .sm2PrivateKey, source⟩ = .ok key)
      ↔ ∃ d, (Sm2.PrivateKey.mk bs).scalar = .ok d := by
  have hlong : ¬ bs.length < Sm2.PrivateKey.minLength := by
    rw [hlength]
    decide
  have hmissing : KeyMaterial.coordinateLength - bs.length = 0 := by
    rw [hlength]
    rfl
  rw [Sm2.PrivateKey.exists_ofMaterial_iff rfl]
  simp only [Sm2.PrivateKey.scalar, if_neg hlong, hmissing, List.replicate_zero, List.nil_append]
  cases Sm2.Scalar.ofBytes? bs with
  | none => simp
  | some d => simp

/-- Without a ciphertext or a key there is no text. -/
theorem sm2Decrypt_of_empty (h : ciphertext = "" ∨ privateKey = "") :
    engine.sm2Decrypt privateKey ciphertext layout encoding = .ok none := by
  rw [sm2Decrypt, if_pos h]

/-- How a ciphertext text is deciphered or not. -/
theorem decidedBy_sm2Decrypt (hciphertext : ciphertext ≠ "") (hprivate : privateKey ≠ "") :
    DecidedBy (engine.sm2Decrypt privateKey ciphertext layout encoding)
      [(¬ engine.PrivateNumber privateKey, .invalidKey),
       (∀ bytes, encoding.decode ciphertext ≠ .ok bytes, .decoding)]
      fun outcome => (∃ plaintext, outcome = .ok (some plaintext)) ∨
        FailsAs outcome .decryption := by
  rw [sm2Decrypt, if_neg (not_or_intro hciphertext hprivate)]
  refine decidedBy_sm2PrivateKey.bind fun key hkey => ?_
  obtain ⟨d, -, rfl⟩ := sm2PrivateKey_eq_ok_iff.mp hkey
  have hread : DecidedBy ((encoding.decode ciphertext).mapError Error.decoding)
      [(∀ bytes, encoding.decode ciphertext ≠ .ok bytes, .decoding)] Succeeds :=
    .mapError fun _ => rfl
  refine hread.bind fun bytes hbytes => ?_
  have hne : bytes ≠ [] := by
    rintro rfl
    exact hciphertext (encoding.decode_eq_nil_iff.mp (mapError_eq_ok_iff.mp hbytes))
  rcases Sm2.PrivateKey.decrypt_eq_ok_or_error (Sm2.PrivateKey.scalar_ofScalar d) hne with
    ⟨plaintext, hopened⟩ | ⟨error, hrefused, hkind⟩
  · refine .inl ⟨Utf8.decodeLossy plaintext, ?_⟩
    exact bind_eq_ok_iff.mpr ⟨plaintext, mapError_eq_ok_iff.mpr hopened, rfl⟩
  · refine .inr ⟨.sm2 error, ?_, hkind⟩
    exact bind_eq_error_iff.mpr (.inl (mapError_eq_error_iff.mpr ⟨error, hrefused, rfl⟩))

/-- There is no text exactly without a ciphertext or a key. -/
theorem sm2Decrypt_eq_none_iff :
    engine.sm2Decrypt privateKey ciphertext layout encoding = .ok none
      ↔ ciphertext = "" ∨ privateKey = "" := by
  refine ⟨fun h => ?_, sm2Decrypt_of_empty⟩
  by_contra hempty
  rw [sm2Decrypt, if_neg hempty] at h
  obtain ⟨key, -, h⟩ := bind_eq_ok_iff.mp h
  obtain ⟨bytes, -, h⟩ := bind_eq_ok_iff.mp h
  obtain ⟨plaintext, -, h⟩ := bind_eq_ok_iff.mp h
  exact absurd h nofun

/-- The classes of failure of deciphering. -/
theorem kind_of_sm2Decrypt {error : Error}
    (h : engine.sm2Decrypt privateKey ciphertext layout encoding = .error error) :
    error.kind ∈ [.invalidKey, .decoding, .decryption] := by
  by_cases hempty : ciphertext = "" ∨ privateKey = ""
  · rw [sm2Decrypt_of_empty hempty] at h
    simp at h
  · obtain ⟨hciphertext, hprivate⟩ := not_or.mp hempty
    rcases (decidedBy_sm2Decrypt hciphertext hprivate).kind_mem h with
      hfault | ⟨plaintext, hok⟩ | hfails
    · exact List.mem_append_left [.decryption] hfault
    · rw [hok] at h
      simp at h
    · rw [hfails.kind_eq h]
      decide

/-- Deciphering gives no text exactly when there is no ciphertext or no key.
Otherwise its outcome is decided by the first fault that applies: a private
key text that denotes no scalar, a ciphertext text that is not read. Past
these there is a text, or the ciphertext is undecipherable. So the failures
are of three classes only.

The two checks of a private key agree on all 32 bytes, so a key that is
accepted can always be deciphered with, and the suite is always provided. -/
theorem sm2Decrypt_outcomes (engine : Engine) (privateKey ciphertext : String)
    (layout : Sm2.Layout) (encoding : Encoding) :
    (engine.sm2Decrypt privateKey ciphertext layout encoding = .ok none
      ↔ ciphertext = "" ∨ privateKey = "") ∧
    (ciphertext ≠ "" → privateKey ≠ "" →
      DecidedBy (engine.sm2Decrypt privateKey ciphertext layout encoding)
        [(¬ ∃ n, KeyMaterial.DenotesNumber privateKey engine.settings.keyEncoding n
            ∧ 1 ≤ n ∧ n ≤ Sm2.order - 1, .invalidKey),
         (∀ bytes, encoding.decode ciphertext ≠ .ok bytes, .decoding)]
        fun outcome => (∃ plaintext, outcome = .ok (some plaintext)) ∨
          FailsAs outcome .decryption) ∧
    (∀ error, engine.sm2Decrypt privateKey ciphertext layout encoding = .error error →
      error.kind ≠ .encryption ∧ error.kind ≠ .invalidArgument ∧ error.kind ≠ .configuration) ∧
    (∀ m key, Sm2.PrivateKey.ofMaterial m = .ok key →
      ∃ d, key.scalar = .ok d ∧ Sm2.Decryptor.new key layout = .ok ⟨d, layout⟩) ∧
    (∀ (bs : Bytes) (source : KeyMaterial.Source), bs.length = 32 →
      ((∃ key, Sm2.PrivateKey.ofMaterial ⟨bs, .sm2PrivateKey, source⟩ = .ok key)
        ↔ ∃ d, (Sm2.PrivateKey.mk bs).scalar = .ok d)) ∧
    (Suite.sm2 layout).isProvided = true := by
  refine ⟨sm2Decrypt_eq_none_iff, decidedBy_sm2Decrypt, ?_, ?_,
    fun bs source hlength => exists_ofMaterial_iff_scalar hlength source,
    Suite.isProvided_eq_true _⟩
  · intro error h
    have hkind := kind_of_sm2Decrypt h
    generalize error.kind = kind at hkind
    revert kind
    decide
  · intro m key h
    obtain ⟨d, rfl⟩ := Sm2.PrivateKey.eq_ofScalar_of_ofMaterial h
    have hscalar := Sm2.PrivateKey.scalar_ofScalar d
    exact ⟨d, hscalar, bind_eq_ok_iff.mpr ⟨d, hscalar, rfl⟩⟩

/-- The order is no private key, and that is noticed before a ciphertext that
cannot be read. -/
theorem sm2Decrypt_outcomes_order :
    FailsAs (Engine.default.sm2Decrypt
      "fffffffeffffffffffffffffffffffff7203df6b21c6052b53bbf40939d54123" "!" .c1c3c2 .base64)
      .invalidKey := by
  obtain ⟨-, hdecided, -⟩ := sm2Decrypt_outcomes Engine.default
    "fffffffeffffffffffffffffffffffff7203df6b21c6052b53bbf40939d54123" "!" .c1c3c2 .base64
  refine (hdecided (by decide) (by decide)).left ?_
  rintro ⟨n, ⟨-, -, rfl⟩, -, hlast⟩
  exact absurd hlast (by decide +kernel)

end ColumnMasking.Engine
