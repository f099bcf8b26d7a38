/-
ColumnMasking.Proofs.Engine.Sm2RoundTrip — a text masked with SM2 is
unmasked with the private key that belongs to the public one.

A private key text that is accepted is not empty and stands for the key of
a scalar (`exists_scalar_of_sm2PrivateKey`). What was sealed for the
multiple of the base point by that scalar is opened by it
(`Sm2.decrypt_of_encrypt`); around that lie the encoding of the ciphertext
and the characters of the text, as for any cipher.
-/
import ColumnMasking.Engine.Sm2
import ColumnMasking.Proofs.Sm2.SegmentTheorems
import ColumnMasking.Proofs.Text.EncodingRoundTrip

namespace ColumnMasking.Engine

/-! ## 1. Key texts -/

/-- An accepted private key text is not empty and stands for the key of a
scalar. -/
theorem exists_scalar_of_sm2PrivateKey (engine : Engine) {text : String} {key : Sm2.PrivateKey}
    (h : engine.sm2PrivateKey text = .ok key) :
    text ≠ "" ∧ ∃ d : Sm2.Scalar, key = .ofScalar d ∧ key.scalar = .ok d := by
  unfold sm2PrivateKey at h
  obtain ⟨m, hm, hkey⟩ := bind_eq_ok_iff.mp h
  constructor
  · rintro rfl
    exact absurd (mapError_eq_ok_iff.mp hm) nofun
  · obtain ⟨d, rfl⟩ := Sm2.PrivateKey.eq_ofScalar_of_ofMaterial (mapError_eq_ok_iff.mp hkey)
    exact ⟨d, rfl, Sm2.PrivateKey.scalar_ofScalar d⟩

/-! ## 2. Masked texts -/

/-- A text that was enciphered is the encoding of the bytes that its public
key gave on the stream. -/
theorem exists_bytes_of_sm2Encrypt (engine : Engine) {publicKey plaintext : String}
    (hplaintext : plaintext ≠ "") {layout : Sm2.Layout} {encoding : Encoding} {e : Entropy}
    {ciphertext : String}
    (h : ((engine.sm2Encrypt publicKey plaintext layout encoding).runOn e).result.1
      = .ok ciphertext) :
    ∃ receiver bytes rest, (engine.sm2PublicKey publicKey).result = .ok receiver
      ∧ (receiver.encrypt layout (Utf8.encode plaintext)).run e = (.ok bytes, rest)
      ∧ ciphertext = encoding.encode bytes := by
  unfold sm2Encrypt at h
  rw [if_neg hplaintext, Call.result_runOn_ofChecked_bind] at h
  cases hreceiver : (engine.sm2PublicKey publicKey).result with
  | error error =>
    rw [hreceiver] at h
    exact absurd h nofun
  | ok receiver =>
    simp only [hreceiver, Call.result_runOn_ofDrawing_bind, sm2EncryptBytes,
      Drawing.run_adapt] at h
    cases hdrawn : (receiver.encrypt layout (Utf8.encode plaintext)).run e with
    | mk result rest =>
      rw [hdrawn] at h
      cases result with
      | error error => exact absurd h nofun
      | ok bytes => exact ⟨receiver, bytes, rest, rfl, hdrawn, (Except.ok.inj h).symm⟩

/-- Whatever text was enciphered for the public point of a private key is
given back by that key, for both orders of the segments, both encodings and
any random stream. -/
theorem sm2Decrypt_of_sm2Encrypt (engine : Engine) {privateKey : String}
    {secret : Sm2.PrivateKey} (hsecret : engine.sm2PrivateKey privateKey = .ok secret) :
    ∃ d : Sm2.Scalar, secret.scalar = .ok d ∧
      ∀ (publicKey plaintext : String) (receiver : Sm2.PublicKey) (layout : Sm2.Layout)
        (encoding : Encoding) (e : Entropy) (ciphertext : String),
        (engine.sm2PublicKey publicKey).result = .ok receiver →
        receiver.point = .ok (d.times Sm2.generator) →
        plaintext ≠ "" →
        ((engine.sm2Encrypt publicKey plaintext layout encoding).runOn e).result.1
          = .ok ciphertext →
        engine.sm2Decrypt privateKey ciphertext layout encoding = .ok (some plaintext) ∧
        ∃ bytes, encoding.decode ciphertext = .ok bytes
          ∧ bytes.length = 97 + (Utf8.encode plaintext).length ∧ bytes.head? = some 0x04 := by
  obtain ⟨hnonempty, d, -, hscalar⟩ := engine.exists_scalar_of_sm2PrivateKey hsecret
  refine ⟨d, hscalar, ?_⟩
  intro publicKey plaintext receiver layout encoding e ciphertext hreceiver hpoint hplaintext h
  obtain ⟨receiver', bytes, rest, hreceiver', hbytes, rfl⟩ :=
    engine.exists_bytes_of_sm2Encrypt hplaintext h
  obtain rfl : receiver = receiver' := Except.ok.inj (hreceiver.symm.trans hreceiver')
  have htext : Utf8.encode plaintext ≠ [] := fun hnil =>
    hplaintext (Utf8.encode_eq_nil_iff.mp hnil)
  obtain ⟨hback, hlength, hhead⟩ := Sm2.decrypt_of_encrypt hscalar hpoint htext hbytes
  have hdecoded := Encoding.decode_encode encoding bytes
  refine ⟨?_, bytes, hdecoded, hlength, hhead⟩
  have hne : encoding.encode bytes ≠ "" := by
    intro hempty
    rw [(Encoding.encode_eq_empty_iff encoding).mp hempty] at hhead
    exact absurd hhead nofun
  unfold sm2Decrypt
  rw [if_neg (not_or_intro hne hnonempty)]
  refine bind_eq_ok_iff.mpr ⟨secret, hsecret, ?_⟩
  refine bind_eq_ok_iff.mpr ⟨bytes, mapError_eq_ok_iff.mpr hdecoded, ?_⟩
  refine bind_eq_ok_iff.mpr ⟨Utf8.encode plaintext, mapError_eq_ok_iff.mpr hback, ?_⟩
  rw [Utf8.decodeLossy_encode]
  rfl

/-- A letter of two bytes under the private key one, whose public point is
the base point; the stream gives the ephemeral scalar two. -/
theorem sm2Decrypt_of_sm2Encrypt_letter :
    Engine.default.sm2Decrypt "1"
        ("BFbO/WDXyHwADVjvV/pzuk2cDfoIwIpzMUlcLh2j8r1SMbfn5syBifZoU1zg+OrxvW3oTBgvbI5xb3gN"
          ++ "OpcKI8NVJXXp2a8CBS/32/HM2ugtHsPIkuGIghfYd5Db1ILDvhYj")
        .c1c3c2 .base64
      = .ok (some "é") := by
  let one : Sm2.Scalar := ⟨1, by decide, by decide⟩
  have hone : (Sm2.PrivateKey.ofScalar one).scalar = .ok one := Sm2.PrivateKey.scalar_ofScalar one
  have hsecret : Engine.default.sm2PrivateKey "1" = .ok (.ofScalar one) := by
    decide +kernel
  obtain ⟨d, hd, hback⟩ := sm2Decrypt_of_sm2Encrypt Engine.default hsecret
  obtain rfl := Except.ok.inj (hone.symm.trans hd)
  refine (hback ("32c4ae2c1f1981195f9904466a39c9948fe30bbff2660be1715a4589334c74c7"
      ++ "bc3736a2f4f6779c59bdcee36b692153d0a9877cc62a474002df32e52139f0a0") "é"
    (.ofPoint Sm2.generator) .c1c3c2 .base64 ⟨Bytes.ofNat 32 2⟩ _ ?_ ?_ ?_ ?_).left
  · decide +kernel
  · decide +kernel
  · decide
  · decide +kernel

end ColumnMasking.Engine
