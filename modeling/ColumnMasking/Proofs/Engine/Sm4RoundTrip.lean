/-
ColumnMasking.Proofs.Engine.Sm4RoundTrip — a text masked with SM4 is
unmasked by the same arguments.

Both directions resolve the key and the IV by the same steps, which see
neither the text nor the ciphertext, so what they gave once they give
again. Between them lie the encoding of the ciphertext
(`Encoding.decode_encode`), the cipher (`Mode.decrypt_of_encrypt`) and the
characters of the text (`Utf8.decodeLossy_encode`). The empty text passes
all of it by, in both directions.
-/
import ColumnMasking.Engine.Sm4
import ColumnMasking.Proofs.Sm4.AcceptedCiphertexts
import ColumnMasking.Proofs.Text.EncodingRoundTrip

namespace ColumnMasking.Engine

/-- Deciphering with the bytes of a text gives them back. -/
theorem sm4DecryptBytes_of_sm4EncryptBytes (engine : Engine) {key : Sm4.Key} {iv : Option Sm4.Iv}
    {text ciphertext : Bytes} {aad : Option Bytes} {mode : Sm4.Mode} (htext : text ≠ [])
    (h : engine.sm4EncryptBytes key iv text aad mode = .ok ciphertext) :
    ciphertext ≠ [] ∧ engine.sm4DecryptBytes key iv ciphertext aad mode = .ok text := by
  unfold sm4EncryptBytes at h
  unfold sm4DecryptBytes
  obtain ⟨hne, hback⟩ := Sm4.Mode.decrypt_of_encrypt htext (mapError_eq_ok_iff.mp h)
  exact ⟨hne, mapError_eq_ok_iff.mpr hback⟩

/-- Whatever text was enciphered is given back, whether or not it is
empty and wherever the IV comes from. -/
theorem sm4Decrypt_of_sm4Encrypt (engine : Engine) (key plaintext : String) (mode : Sm4.Mode)
    (iv aad : Option String) (encoding : Encoding) {ciphertext : String}
    (h : (engine.sm4Encrypt key plaintext mode iv aad encoding).result = .ok ciphertext) :
    (engine.sm4Decrypt key ciphertext mode iv aad encoding).result = .ok plaintext := by
  unfold sm4Encrypt at h
  unfold sm4Decrypt
  by_cases hempty : plaintext = ""
  · rw [if_pos hempty, Checked.result_pure] at h
    have hciphertext : ciphertext = "" := (Except.ok.inj h).symm
    rw [if_pos hciphertext, Checked.result_pure, hempty]
  · rw [if_neg hempty] at h
    obtain ⟨k, hk, h⟩ := Checked.result_bind_eq_ok_iff.mp h
    obtain ⟨v, hv, h⟩ := Checked.result_bind_eq_ok_iff.mp h
    obtain ⟨bytes, hbytes, h⟩ := Checked.result_bind_eq_ok_iff.mp h
    rw [Checked.result_pure] at h
    have hciphertext : ciphertext = encoding.encode bytes := (Except.ok.inj h).symm
    have htext : Utf8.encode plaintext ≠ [] := fun hnil => hempty (Utf8.encode_eq_nil_iff.mp hnil)
    obtain ⟨hne, hback⟩ := engine.sm4DecryptBytes_of_sm4EncryptBytes htext hbytes
    have hnotEmpty : ciphertext ≠ "" := by
      rw [hciphertext]
      exact fun h => hne ((Encoding.encode_eq_empty_iff encoding).mp h)
    have hdecoded : ((encoding.decode ciphertext).mapError Error.decoding) = .ok bytes := by
      rw [hciphertext, Encoding.decode_encode, Except.mapError]
    rw [if_neg hnotEmpty]
    -- key and IV are resolved as before, then the ciphertext is read and deciphered
    refine Checked.result_bind_eq_ok_iff.mpr ⟨k, hk, ?_⟩
    refine Checked.result_bind_eq_ok_iff.mpr ⟨v, hv, ?_⟩
    refine Checked.result_bind_eq_ok_iff.mpr ⟨bytes, hdecoded, ?_⟩
    refine Checked.result_bind_eq_ok_iff.mpr ⟨Utf8.encode plaintext, hback, ?_⟩
    rw [Checked.result_pure, Utf8.decodeLossy_encode]

/-- A letter of two bytes, sealed under a nonce that is taken from the key. -/
theorem sm4Decrypt_of_sm4Encrypt_keyDerivedNonce :
    ((Engine.mk { Settings.default with noncePolicy := .legacyKeyDerived }).sm4Decrypt
        "0123456789abcdeffedcba9876543210" "cb27VmyLeXbUKeZZbASnROEu" .gcm none (some "id")
        .base64).result = .ok "é" :=
  sm4Decrypt_of_sm4Encrypt _ _ _ _ _ _ _ (by decide +kernel)

end ColumnMasking.Engine
