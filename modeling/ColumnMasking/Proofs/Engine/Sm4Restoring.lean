/-
ColumnMasking.Proofs.Engine.Sm4Restoring — what becomes of a ciphertext that
is deciphered and enciphered again.

Between the two calls the bytes of the plaintext pass through a text. Bytes
that are a text pass unharmed, and the bytes of the ciphertext come back:
they are the only ones that give the plaintext
(`Mode.encrypt_of_decrypt`). Other bytes leave a replacement character in the
text, and what is enciphered then is not what was deciphered; a ciphertext
has one plaintext, so another one comes back. No bytes at all are the empty
text, which is not enciphered.

GCM deciphers texts of up to sixteen bytes more than it enciphers. These are
the only ones that the second call refuses.
-/
import ColumnMasking.Proofs.Engine.ReadTexts
import ColumnMasking.Proofs.Text.Utf8Readings

namespace ColumnMasking

/-! ## 1. Bytes -/

/-- What was deciphered is enciphered to the ciphertext that it came out of,
unless it is too long to be enciphered. -/
theorem Sm4.Mode.encrypt_of_decrypt {mode : Mode} {key : Key} {iv : Option Iv}
    (hkey : key.bytes.length = Key.size) (hiv : mode.AdmitsIv iv) {ciphertext text : Bytes}
    {aad : Option Bytes} (hne : ciphertext ≠ []) (htext : text ≠ [])
    (h : mode.decrypt key iv ciphertext aad = .ok text) (again : Bytes) :
    mode.encrypt key iv text aad = .ok again
      ↔ again = ciphertext ∧ mode.Within Gcm.maxLength text := by
  obtain ⟨u, hinputs, hrow⟩ := bind_eq_ok_iff.mp h
  obtain ⟨hciphertext, -, haad⟩ := (decryptRow_eq_ok_iff hkey hiv hne aad text).mp hrow
  have hchecked : mode.encrypt key iv text aad = mode.encryptRow key iv text aad := by
    rw [encrypt, hinputs]
    rfl
  rw [hchecked, encryptRow_eq_ok_iff hkey hiv htext, ← hciphertext]
  simp only [haad, and_true]

namespace Engine

variable {engine : Engine} {key : String} {mode : Sm4.Mode} {iv aad : Option String}
  {encoding : Encoding} {k : Sm4.Key} {v : Option Sm4.Iv} {ciphertext plaintext again : String}

/-! ## 2. Texts -/

/-- A text that is not empty is enciphered by its bytes. -/
theorem sm4Encrypt_eq_ok_iff (hinputs : engine.sm4Inputs key mode iv encoding = .ok (k, v))
    (hne : plaintext ≠ "") :
    (engine.sm4Encrypt key plaintext mode iv aad encoding).result = .ok again
      ↔ ∃ bytes, mode.encrypt k v (Utf8.encode plaintext) (aad.map Utf8.encode) = .ok bytes
        ∧ encoding.encode bytes = again := by
  rw [result_sm4Encrypt, if_neg hne, hinputs]
  show ((mode.encrypt k v _ _).mapError Error.sm4).map encoding.encode = .ok again ↔ _
  simp only [map_eq_ok_iff, mapError_eq_ok_iff]

/-- A text that is not empty is deciphered by its bytes. -/
theorem exists_of_sm4Decrypt (hne : ciphertext ≠ "")
    (h : (engine.sm4Decrypt key ciphertext mode iv aad encoding).result = .ok plaintext) :
    ∃ k v bytes opened, engine.sm4Inputs key mode iv encoding = .ok (k, v) ∧
      encoding.decode ciphertext = .ok bytes ∧ bytes ≠ [] ∧
      mode.decrypt k v bytes (aad.map Utf8.encode) = .ok opened ∧
      plaintext = Utf8.decodeLossy opened := by
  rw [result_sm4Decrypt, if_neg hne] at h
  obtain ⟨⟨k, v⟩, hinputs, h⟩ := bind_eq_ok_iff.mp h
  obtain ⟨bytes, hread, h⟩ := bind_eq_ok_iff.mp h
  obtain ⟨opened, hopened, htext⟩ := map_eq_ok_iff.mp h
  have hread := mapError_eq_ok_iff.mp hread
  refine ⟨k, v, bytes, opened, hinputs, hread, ?_, mapError_eq_ok_iff.mp hopened, htext.symm⟩
  rintro rfl
  exact hne (encoding.decode_eq_nil_iff.mp hread)

/-- The ciphertext comes back when what was deciphered is a text. -/
theorem sm4Encrypt_of_text (hinputs : engine.sm4Inputs key mode iv encoding = .ok (k, v))
    {bytes opened : Bytes} (hne : bytes ≠ [])
    (hopened : mode.decrypt k v bytes (aad.map Utf8.encode) = .ok opened)
    (hnonempty : opened ≠ []) (htext : Utf8.encode (Utf8.decodeLossy opened) = opened) :
    (engine.sm4Encrypt key (Utf8.decodeLossy opened) mode iv aad encoding).result = .ok again
      ↔ again = encoding.encode bytes ∧ mode.Within Sm4.Gcm.maxLength opened := by
  obtain ⟨hkey, hiv⟩ := admitted_of_sm4Inputs hinputs
  have hplaintext : Utf8.decodeLossy opened ≠ "" := by
    intro hempty
    rw [Utf8.encode_eq_nil_iff.mpr hempty] at htext
    exact hnonempty htext.symm
  rw [sm4Encrypt_eq_ok_iff hinputs hplaintext, htext]
  simp only [Sm4.Mode.encrypt_of_decrypt hkey hiv hne hnonempty hopened]
  constructor
  · rintro ⟨_, ⟨rfl, hwithin⟩, hagain⟩
    exact ⟨hagain.symm, hwithin⟩
  · rintro ⟨hagain, hwithin⟩
    exact ⟨bytes, ⟨rfl, hwithin⟩, hagain.symm⟩

/-- Another ciphertext comes back when what was deciphered is no text. -/
theorem sm4Encrypt_of_replaced (hinputs : engine.sm4Inputs key mode iv encoding = .ok (k, v))
    {bytes opened : Bytes} (hopened : mode.decrypt k v bytes (aad.map Utf8.encode) = .ok opened)
    (hnotText : Utf8.decode? opened = none)
    (hagain : (engine.sm4Encrypt key (Utf8.decodeLossy opened) mode iv aad encoding).result
      = .ok again) :
    ∃ bytes', encoding.decode again = .ok bytes' ∧ bytes' ≠ bytes := by
  have hplaintext : Utf8.decodeLossy opened ≠ "" := by
    intro hempty
    have hmark := Utf8.replacement_mem_of_decode? hnotText
    rw [hempty] at hmark
    simp at hmark
  obtain ⟨bytes', henciphered, rfl⟩ := (sm4Encrypt_eq_ok_iff hinputs hplaintext).mp hagain
  refine ⟨bytes', encoding.decode_encode bytes', ?_⟩
  -- one ciphertext would have both plaintexts
  rintro rfl
  have hback := (Sm4.Mode.decrypt_of_encrypt (Utf8.encode_eq_nil_iff.not.mpr hplaintext)
    henciphered).right
  rw [hopened] at hback
  obtain ⟨cs, hcs⟩ := Utf8.encode_decodeLossy_iff.mp (Except.ok.inj hback).symm
  simp [hnotText] at hcs

/-! ## 3. Deciphered and enciphered again -/

/-- A ciphertext that is deciphered and enciphered again comes back exactly
when its plaintext was a text.

Where the bytes deciphered are a text, the call gives that text, and
enciphering it gives the ciphertext in the form in which the encoding writes
it, in Base64 the very text that was deciphered; it fails for nothing but the
length that GCM alone is limited to. Where they are no text, a replacement
character shows it, and whatever enciphering gives then is read as other
bytes. Where there are none, the text is empty and remains so. -/
theorem sm4Encrypt_of_sm4Decrypt (hne : ciphertext ≠ "")
    (h : (engine.sm4Decrypt key ciphertext mode iv aad encoding).result = .ok plaintext) :
    ∃ k v bytes opened, engine.sm4Inputs key mode iv encoding = .ok (k, v) ∧
      encoding.decode ciphertext = .ok bytes ∧
      engine.sm4DecryptBytes k v bytes (aad.map Utf8.encode) mode = .ok opened ∧
      ((∃ cs, Utf8.decode? opened = some cs) → opened ≠ [] →
        Utf8.encode plaintext = opened ∧
        (∀ again, (engine.sm4Encrypt key plaintext mode iv aad encoding).result = .ok again
          ↔ again = encoding.encode bytes ∧ mode.Within Sm4.Gcm.maxLength opened) ∧
        (encoding = .base64 → encoding.encode bytes = ciphertext)) ∧
      (Utf8.decode? opened = none →
        Utf8.replacement ∈ plaintext.toList ∧
        ∀ again, (engine.sm4Encrypt key plaintext mode iv aad encoding).result = .ok again →
          ∃ bytes', encoding.decode again = .ok bytes' ∧ bytes' ≠ bytes) ∧
      (opened = [] → plaintext = "" ∧
        (engine.sm4Encrypt key plaintext mode iv aad encoding).result = .ok "") := by
  obtain ⟨k, v, bytes, opened, hinputs, hread, hbytes, hopened, rfl⟩ := exists_of_sm4Decrypt hne h
  refine ⟨k, v, bytes, opened, hinputs, hread, mapError_eq_ok_iff.mpr hopened, ?_, ?_, ?_⟩
  · intro htext hnonempty
    have hsame : Utf8.encode (Utf8.decodeLossy opened) = opened :=
      Utf8.encode_decodeLossy_iff.mpr htext
    refine ⟨hsame, fun again => sm4Encrypt_of_text hinputs hbytes hopened hnonempty hsame, ?_⟩
    rintro rfl
    exact (Base64.decode_eq_ok_iff.mp (mapError_eq_ok_iff.mp hread)).symm
  · intro hnotText
    exact ⟨Utf8.replacement_mem_of_decode? hnotText, fun again hagain =>
      sm4Encrypt_of_replaced hinputs hopened hnotText hagain⟩
  · rintro rfl
    have hempty : Utf8.decodeLossy [] = "" := by
      rw [Utf8.decodeLossy, Utf8.decodeLossyChars_nil, String.ofList_nil]
    refine ⟨hempty, ?_⟩
    rw [hempty]
    rfl

/-- A letter of two bytes, sealed in GCM under a nonce that is taken from the
key, comes back as the text that it was. -/
theorem sm4Encrypt_of_sm4Decrypt_keyDerivedNonce :
    let engine := Engine.mk { Settings.default with noncePolicy := .legacyKeyDerived }
    let key := "0123456789abcdeffedcba9876543210"
    let stored := "cb27VmyLeXbUKeZZbASnROEu"
    (engine.sm4Decrypt key stored .gcm none (some "id") .base64).result = .ok "é" ∧
    (engine.sm4Encrypt key "é" .gcm none (some "id") .base64).result = .ok stored := by
  intro engine key stored
  have hopened : (engine.sm4Decrypt key stored .gcm none (some "id") .base64).result
      = .ok "é" := by decide +kernel
  refine ⟨hopened, ?_⟩
  obtain ⟨k, v, bytes, opened, -, -, -, htext, hnotText, hnone⟩ :=
    sm4Encrypt_of_sm4Decrypt (by decide) hopened
  have hnonempty : opened ≠ [] := fun hnil => absurd (hnone hnil).left (by decide)
  cases hread : Utf8.decode? opened with
  | none => exact absurd (hnotText hread).left (by decide)
  | some cs =>
    obtain ⟨hsame, hagain, hstored⟩ := htext ⟨cs, hread⟩ hnonempty
    refine (hagain stored).mpr ⟨(hstored rfl).symm, fun _ => ?_⟩
    rw [← hsame]
    decide

end Engine
end ColumnMasking
