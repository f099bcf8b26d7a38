/-
ColumnMasking.Proofs.Engine.GcmNonces — the texts of GCM nonces, and the
nonce that is taken from the key.

A nonce of twelve or sixteen bytes may be written in digits or stand for
itself, under either encoding. Under Base64 it may also be written in
Base64 if it has sixteen bytes; the Base64 text of twelve bytes has sixteen
characters and is taken for these (`gcmNonce_of_written`).

Under the legacy policy a call without a nonce takes the bytes of its key.
That is what any engine does when the nonce given is the key text, since a
key text is the same text for a nonce (`legacyNonce_eq_keyNonce`).
-/
import ColumnMasking.Proofs.Engine.Sm4Inputs

namespace ColumnMasking.Engine

/-! ## 1. Nonces that are given -/

/-- A nonce that is given is resolved as such, whatever the policy. -/
theorem sm4Iv_of_nonce (engine : Engine) (key : String) {text : String} (hne : text ≠ "")
    (encoding : Encoding) :
    (engine.sm4Iv .gcm key (some text) encoding).result
      = ivOf (KeyMaterial.gcmNonce text encoding) := by
  have hgiven : (some text).filter (· ≠ "") = some text := by simp [hne]
  simp only [sm4Iv, hgiven, Checked.result_ofExcept]

/-- The empty text is no nonce. -/
theorem ne_empty_of_gcmNonce {text : String} {encoding : Encoding} {m : KeyMaterial}
    (h : KeyMaterial.gcmNonce text encoding = .ok m) : text ≠ "" := by
  rintro rfl
  exact absurd h nofun

/-- The inputs depend on the bytes of the nonce alone, not on its text. -/
theorem sm4Inputs_of_bytes (engine : Engine) (key : String) {encoding : Encoding}
    {text text' : String} {m m' : KeyMaterial} (h : KeyMaterial.gcmNonce text encoding = .ok m)
    (h' : KeyMaterial.gcmNonce text' encoding = .ok m') (hbytes : m.bytes = m'.bytes) :
    engine.sm4Inputs key .gcm (some text) encoding
      = engine.sm4Inputs key .gcm (some text') encoding := by
  have hiv : ivOf (.ok m) = ivOf (.ok m') := by
    show ((Sm4.Iv.nonce m.bytes).mapError Error.sm4 >>= fun v => pure (some v))
      = ((Sm4.Iv.nonce m'.bytes).mapError Error.sm4 >>= fun v => pure (some v))
    rw [hbytes]
  unfold sm4Inputs
  rw [engine.sm4Iv_of_nonce key (ne_empty_of_gcmNonce h), h,
    engine.sm4Iv_of_nonce key (ne_empty_of_gcmNonce h'), h', hiv]

/-- The written forms of a nonce of twelve or sixteen bytes, and what they
are read as.

Digits in any letter case and the bytes themselves are read as the nonce
under either encoding. The Base64 text is read as the nonce if that has
sixteen bytes, and gives the same ciphertexts as the digits; the Base64 text
of twelve bytes is read as the sixteen bytes that it has itself. -/
theorem gcmNonce_of_written {bs : Bytes} (h : bs.length = 12 ∨ bs.length = 16) :
    (∀ text encoding, text.toLower = Hex.encode bs →
      KeyMaterial.gcmNonce text encoding = .ok ⟨bs, .sm4Iv, .hex⟩) ∧
    (∀ text encoding, Utf8.encode text = bs →
      KeyMaterial.gcmNonce text encoding = .ok ⟨bs, .sm4Iv, .rawUtf8⟩) ∧
    (bs.length = 16 →
      KeyMaterial.gcmNonce (Base64.encode bs) .base64 = .ok ⟨bs, .sm4Iv, .base64⟩ ∧
      ∀ (engine : Engine) (key plaintext text : String) (aad : Option String),
        text.toLower = Hex.encode bs →
        (engine.sm4Encrypt key plaintext .gcm (some text) aad .base64).result
          = (engine.sm4Encrypt key plaintext .gcm (some (Base64.encode bs)) aad .base64).result) ∧
    (bs.length = 12 →
      (Utf8.encode (Base64.encode bs)).length = 16 ∧
      KeyMaterial.gcmNonce (Base64.encode bs) .base64
        = .ok ⟨Utf8.encode (Base64.encode bs), .sm4Iv, .rawUtf8⟩) := by
  have hlength : bs.length ∈ [KeyMaterial.nonceLength, KeyMaterial.blockLength] := by
    rcases h with h | h <;> rw [h] <;> decide
  refine ⟨?_, ?_, ?_, ?_⟩
  · intro text encoding htext
    exact KeyMaterial.gcmNonce_of_digits hlength htext encoding
  · rintro text encoding rfl
    exact KeyMaterial.gcmNonce_of_raw hlength encoding
  · intro hsixteen
    have hbase64 := KeyMaterial.gcmNonce_of_base64 hsixteen
    refine ⟨hbase64, ?_⟩
    intro engine key plaintext text aad htext
    have hdigits := KeyMaterial.gcmNonce_of_digits hlength htext .base64
    simp only [result_sm4Encrypt, engine.sm4Inputs_of_bytes key hdigits hbase64 rfl]
  · intro htwelve
    have hcount : (Utf8.encode (Base64.encode bs)).length = 16 := by
      rw [Base64.length_encode, htwelve]
    refine ⟨hcount, KeyMaterial.gcmNonce_of_raw ?_ .base64⟩
    rw [hcount]
    decide

/-- The nonce of the numbers from zero to eleven, in upper-case digits. -/
theorem gcmNonce_of_written_digits :
    KeyMaterial.gcmNonce "000102030405060708090A0B" .hex
      = .ok ⟨[0, 1, 2, 3, 4, 5, 6, 7, 8, 9, 10, 11], .sm4Iv, .hex⟩ :=
  (gcmNonce_of_written (.inl (by decide))).left _ .hex
    (Hex.toLower_eq_encode_iff.mpr (by decide))

/-- Not every nonce is what its Base64 text is read as. -/
theorem gcmNonce_base64_shadowed :
    ¬ ∀ bs : Bytes, bs.length = 12 ∨ bs.length = 16 →
      ∃ m, KeyMaterial.gcmNonce (Base64.encode bs) .base64 = .ok m ∧ m.bytes = bs := by
  intro h
  let twelve : Bytes := [0, 1, 2, 3, 4, 5, 6, 7, 8, 9, 10, 11]
  have htwelve : twelve.length = 12 := rfl
  have hsixteen : (Utf8.encode (Base64.encode twelve)).length = 16 := by
    rw [Base64.length_encode, htwelve]
  obtain ⟨m, hm, hbytes⟩ := h twelve (.inl htwelve)
  have hread := KeyMaterial.gcmNonce_of_raw (by rw [hsixteen]; decide) .base64
  obtain rfl := Except.ok.inj (hm.symm.trans hread)
  -- what is read is longer than the nonce
  have hlength := congrArg List.length hbytes
  simp only [hsixteen, htwelve] at hlength
  exact absurd hlength (by decide)

/-! ## 2. The nonce of a key -/

/-- Under the legacy policy the inputs without a nonce are those with the
key text for a nonce. -/
theorem sm4Inputs_legacy {legacy : Engine}
    (hpolicy : legacy.settings.noncePolicy = .legacyKeyDerived) {iv : Option String}
    (hiv : iv = none ∨ iv = some "") (engine : Engine) (key : String) (encoding : Encoding) :
    legacy.sm4Inputs key .gcm iv encoding = engine.sm4Inputs key .gcm (some key) encoding := by
  have hnone : iv.filter (· ≠ "") = none := by
    rcases hiv with rfl | rfl <;> rfl
  unfold sm4Inputs
  have hsame : legacy.sm4Key key encoding = engine.sm4Key key encoding := rfl
  rw [hsame]
  cases hk : engine.sm4Key key encoding with
  | error error => rfl
  | ok k =>
    obtain ⟨m, hm, -⟩ := bind_eq_ok_iff.mp hk
    have hm := mapError_eq_ok_iff.mp hm
    have hnonce := KeyMaterial.gcmNonce_of_sm4Key hm
    have hlegacy : (legacy.sm4Iv .gcm key iv encoding).result
        = ivOf (.ok (KeyMaterial.ivOfKey m)) := by
      simp only [sm4Iv, hnone, hpolicy, hm]
      rfl
    rw [hlegacy, engine.sm4Iv_of_nonce key (ne_empty_of_gcmNonce hnonce), hnonce]

/-- The legacy policy is the same as giving the key text for a nonce: in
GCM, calls without a nonce under that policy give what calls with the key
text give under any policy, value or error, on a text and on a column. -/
theorem legacyNonce_eq_keyNonce {legacy : Engine}
    (hpolicy : legacy.settings.noncePolicy = .legacyKeyDerived) {iv : Option String}
    (hiv : iv = none ∨ iv = some "") (engine : Engine) (key : String) (encoding : Encoding) :
    (∀ text aad, (legacy.sm4Encrypt key text .gcm iv aad encoding).result
      = (engine.sm4Encrypt key text .gcm (some key) aad encoding).result) ∧
    (∀ text aad, (legacy.sm4Decrypt key text .gcm iv aad encoding).result
      = (engine.sm4Decrypt key text .gcm (some key) aad encoding).result) ∧
    (∀ values, (legacy.sm4EncryptColumn key values .gcm iv encoding).result
      = (engine.sm4EncryptColumn key values .gcm (some key) encoding).result) ∧
    (∀ values, (legacy.sm4DecryptColumn key values .gcm iv encoding).result
      = (engine.sm4DecryptColumn key values .gcm (some key) encoding).result) := by
  have hinputs := sm4Inputs_legacy hpolicy hiv engine key encoding
  refine ⟨?_, ?_, ?_, ?_⟩
  · intro text aad
    rw [result_sm4Encrypt, result_sm4Encrypt, hinputs]
  · intro text aad
    rw [result_sm4Decrypt, result_sm4Decrypt, hinputs]
  · intro values
    rw [result_sm4EncryptColumn, result_sm4EncryptColumn, hinputs]
  · intro values
    rw [result_sm4DecryptColumn, result_sm4DecryptColumn, hinputs]

/-- A letter under a key in Base64, with an empty nonce under the legacy
policy and with the key text under the explicit one. -/
theorem legacyNonce_eq_keyNonce_letter :
    ((Engine.mk { Settings.default with noncePolicy := .legacyKeyDerived }).sm4Encrypt
        "AAECAwQFBgcICQoLDA0ODw==" "é" .gcm (some "") (some "id") .base64).result
      = (Engine.default.sm4Encrypt "AAECAwQFBgcICQoLDA0ODw==" "é" .gcm
          (some "AAECAwQFBgcICQoLDA0ODw==") (some "id") .base64).result :=
  (legacyNonce_eq_keyNonce rfl (.inr rfl) Engine.default _ .base64).left "é" (some "id")

end ColumnMasking.Engine
