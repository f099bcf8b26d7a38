/-
ColumnMasking.Proofs.Sql.SignatureRoundTrip — a signature that is made is
found valid, by the engine and by the SQL functions.

Signing and verifying name the identity by an optional text; only what
`identityOr` makes of it counts. Between the two calls lies the encoding of
the signature. The SQL functions come in pairs, one for each encoding; each
of them is the call of the engine on its parameters (`result_signer`,
`result_verifier`), and draws nothing.
-/
import ColumnMasking.Proofs.Engine.Sm2RoundTrip
import ColumnMasking.Proofs.Sm2.SignatureTheorems
import ColumnMasking.Sql.Invoke

namespace ColumnMasking

/-! ## 1. The engine -/

namespace Engine

variable {engine : Engine} {privateKey publicKey message signature : String}
  {secret : Sm2.PrivateKey} {d : Sm2.Scalar} {receiver : Sm2.PublicKey} {encoding : Encoding}

/-- A signature under a private key is valid under its public point and the
same identity, and spells two scalars. -/
theorem sm2Verify_of_scalar (hsecret : engine.sm2PrivateKey privateKey = .ok secret)
    (hscalar : secret.scalar = .ok d)
    (hreceiver : (engine.sm2PublicKey publicKey).result = .ok receiver)
    (hpoint : receiver.point = .ok (d.times Sm2.generator)) {identity identity' : Option String}
    (hidentity : identityOr identity = identityOr identity')
    (h : engine.sm2Sign privateKey message identity encoding = .ok signature) :
    (engine.sm2Verify publicKey message signature identity' encoding).result = .ok true ∧
    ∃ r s : Sm2.Scalar, encoding.decode signature = .ok (r.toBytes ++ s.toBytes)
      ∧ (r.toBytes ++ s.toBytes).length = 64 := by
  unfold sm2Sign at h
  obtain ⟨secret', hsecret', h⟩ := bind_eq_ok_iff.mp h
  obtain rfl : secret = secret' := Except.ok.inj (hsecret.symm.trans hsecret')
  obtain ⟨bytes, hbytes, h⟩ := bind_eq_ok_iff.mp h
  have hsignature : signature = encoding.encode bytes := (Except.ok.inj h).symm
  have hdecoded : encoding.decode signature = .ok bytes := by
    rw [hsignature, Encoding.decode_encode]
  obtain ⟨hvalid, r, s, hhalves⟩ :=
    Sm2.verify_of_sign hscalar hpoint (mapError_eq_ok_iff.mp hbytes)
  refine ⟨?_, r, s, ?_, ?_⟩
  · unfold sm2Verify
    refine Checked.result_bind_eq_ok_iff.mpr ⟨receiver, hreceiver, ?_⟩
    refine Checked.result_bind_eq_ok_iff.mpr ⟨bytes, mapError_eq_ok_iff.mpr hdecoded, ?_⟩
    rw [← hidentity]
    exact mapError_eq_ok_iff.mpr hvalid
  · rw [hdecoded, hhalves]
  · simp [KeyMaterial.coordinateLength]

end Engine

/-! ## 2. The SQL functions -/

namespace Sql.Function

/-- The function that signs in an encoding. -/
def signer : Encoding → Function
  | .hex => sm2SignHex
  | .base64 => sm2Sign

/-- The function that verifies signatures in an encoding. -/
def verifier : Encoding → Function
  | .hex => sm2VerifyHex
  | .base64 => sm2Verify

variable (engine : Engine) (encoding : Encoding) (message key signature : String)
  (identity : Option Parameter) (e : Entropy)

/-- Signing in SQL is signing. The identity may be left out, NULL or a
text. -/
theorem result_signer :
    (((signer encoding).invoke engine ([some message, some key] ++ identity.toList)).runOn e).result
      = ((engine.sm2Sign key message identity.join encoding).map some, e) := by
  have hparameters : ((signer encoding).invoke engine
        ([some message, some key] ++ identity.toList)).runOn e
      = (signing engine (some message) (some key) identity.join encoding).runOn e := by
    cases encoding <;> cases identity <;> rfl
  rw [hparameters, signing, Call.ofExcept, Call.result_runOn_ofChecked_bind,
    Checked.result_ofExcept]
  cases engine.sm2Sign key message identity.join encoding <;> rfl

/-- Verifying in SQL is verifying, with the answer as a text. -/
theorem result_verifier :
    (((verifier encoding).invoke engine
        ([some message, some key, some signature] ++ identity.toList)).runOn e).result
      = ((engine.sm2Verify key message signature identity.join encoding).result.map
          fun valid => some (if valid then "true" else "false"), e) := by
  have hparameters : ((verifier encoding).invoke engine
        ([some message, some key, some signature] ++ identity.toList)).runOn e
      = (verification engine (some message) (some key) (some signature) identity.join
          encoding).runOn e := by
    cases encoding <;> cases identity <;> rfl
  rw [hparameters, verification, Call.result_runOn_ofChecked_bind]
  cases (engine.sm2Verify key message signature identity.join encoding).result <;> rfl

end Sql.Function

/-! ## 3. What is signed is valid -/

open Sql Sql.Function

/-- Whatever is signed under a private key is valid under its public point,
for every message, encoding and way to name the same identity, and spells
two scalars in 64 bytes. So it is in SQL. -/
theorem sm2Verify_of_sm2Sign (engine : Engine) {privateKey : String} {secret : Sm2.PrivateKey}
    (hsecret : engine.sm2PrivateKey privateKey = .ok secret) :
    ∃ d : Sm2.Scalar, secret.scalar = .ok d ∧
      ∀ (publicKey message : String) (receiver : Sm2.PublicKey) (encoding : Encoding),
        (engine.sm2PublicKey publicKey).result = .ok receiver →
        receiver.point = .ok (d.times Sm2.generator) →
        (∀ (identity identity' : Option String) (signature : String),
          Engine.identityOr identity = Engine.identityOr identity' →
          engine.sm2Sign privateKey message identity encoding = .ok signature →
          (engine.sm2Verify publicKey message signature identity' encoding).result = .ok true ∧
          ∃ r s : Sm2.Scalar, encoding.decode signature = .ok (r.toBytes ++ s.toBytes)
            ∧ (r.toBytes ++ s.toBytes).length = 64) ∧
        (∀ (identity identity' : Option Parameter) (signature : String) (e e' : Entropy),
          Engine.identityOr identity.join = Engine.identityOr identity'.join →
          (((signer encoding).invoke engine
              ([some message, some privateKey] ++ identity.toList)).runOn e).result.1
            = .ok (some signature) →
          (((verifier encoding).invoke engine
              ([some message, some publicKey, some signature] ++ identity'.toList)).runOn
                e').result.1
            = .ok (some "true")) := by
  obtain ⟨-, d, -, hscalar⟩ := engine.exists_scalar_of_sm2PrivateKey hsecret
  refine ⟨d, hscalar, ?_⟩
  intro publicKey message receiver encoding hreceiver hpoint
  constructor
  · intro identity identity' signature hidentity h
    exact Engine.sm2Verify_of_scalar hsecret hscalar hreceiver hpoint hidentity h
  · intro identity identity' signature e e' hidentity h
    rw [result_signer] at h
    rw [result_verifier]
    cases hsigned : engine.sm2Sign privateKey message identity.join encoding with
    | error error =>
      rw [hsigned] at h
      exact absurd h nofun
    | ok signed =>
      rw [hsigned] at h
      obtain rfl : signed = signature := Option.some.inj (Except.ok.inj h)
      obtain ⟨hvalid, -⟩ :=
        Engine.sm2Verify_of_scalar hsecret hscalar hreceiver hpoint hidentity hsigned
      rw [hvalid]
      rfl

/-- The letter `a`, signed under the private key one without an identity
and verified under the empty one; the public point is the base point. -/
theorem sm2Verify_of_sm2Sign_letter :
    (Engine.default.sm2Verify
        ("32c4ae2c1f1981195f9904466a39c9948fe30bbff2660be1715a4589334c74c7"
          ++ "bc3736a2f4f6779c59bdcee36b692153d0a9877cc62a474002df32e52139f0a0") "a"
        ("OJaTAGT+X/B7U02wBh+mdaDt3O6KLF/k6MJXiaOZk9PEE2fu58J66C0PgvB6Qz78"
          ++ "dhPQjHjdP50Ryvm1ER+zQA==") (some "") .base64).result
      = .ok true := by
  have hone : (Sm2.PrivateKey.ofScalar Sm2.letterKey).scalar = .ok Sm2.letterKey :=
    Sm2.PrivateKey.scalar_ofScalar Sm2.letterKey
  have hsigned : (Sm2.PrivateKey.ofScalar Sm2.letterKey).sign (Utf8.encode "a")
      (Engine.identityOr none) = .ok Sm2.letterSignature.toBytes := by
    obtain ⟨hdigest, hcandidate, hmade⟩ := Sm2.letter_signed
    rw [← hdigest] at hmade hcandidate
    exact (Sm2.sign_eq_ok_iff hone).mpr ⟨by decide +kernel, Sm2.letterNonce, Sm2.letterSignature,
      Sm2.NonceState.firstScalar?_of_some hcandidate, hmade, rfl⟩
  have hsecret : Engine.default.sm2PrivateKey "1" = .ok (.ofScalar Sm2.letterKey) := by
    decide +kernel
  obtain ⟨d, hd, hvalid⟩ := sm2Verify_of_sm2Sign Engine.default hsecret
  obtain rfl := Except.ok.inj (hone.symm.trans hd)
  refine ((hvalid _ "a" (.ofPoint Sm2.generator) .base64 (by decide +kernel)
    (by decide +kernel)).left none (some "") _ rfl ?_).left
  refine bind_eq_ok_iff.mpr ⟨.ofScalar Sm2.letterKey, hsecret, ?_⟩
  refine bind_eq_ok_iff.mpr ⟨Sm2.letterSignature.toBytes, mapError_eq_ok_iff.mpr hsigned, ?_⟩
  decide +kernel

end ColumnMasking
