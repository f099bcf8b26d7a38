/-
ColumnMasking.Proofs.Sql.MaskRoundTrip — what an SQL function masks its
counterpart unmasks, with their rules for NULL and for the empty string.

The two functions of a pair read the same parameters by the same rules, and
each comes to a call of the engine (`blockMode_eq_ok_iff` and the lemmas
beside it). The calls undo each other (`sm4Decrypt_of_nonempty`,
`sm2Decrypt_encode`); that the first never gives the empty string for a text
that is not empty is what keeps the second from taking a ciphertext for a
value to pass by.

`unmasks_of_masks` says it for ECB and CBC, for GCM, where NULL and the
empty string are passed through on both sides, and for SM2, where one
ciphertext can be read back from Base64 and from hexadecimal text.
-/
import ColumnMasking.Proofs.Engine.Sm2RoundTrip
import ColumnMasking.Proofs.Engine.Sm4Inputs
import ColumnMasking.Proofs.Sql.FunctionResults

namespace ColumnMasking

/-! ## 1. The engine -/

namespace Engine

variable {engine : Engine} {encoding : Encoding}

/-- A text that is not empty has a ciphertext that is not empty, and is given
back for it. -/
theorem sm4Decrypt_of_nonempty {key plaintext ciphertext : String} {mode : Sm4.Mode}
    {iv aad : Option String} (hplaintext : plaintext ≠ "")
    (h : (engine.sm4Encrypt key plaintext mode iv aad encoding).result = .ok ciphertext) :
    ciphertext ≠ ""
      ∧ (engine.sm4Decrypt key ciphertext mode iv aad encoding).result = .ok plaintext := by
  have htext : Utf8.encode plaintext ≠ [] := fun hnil =>
    hplaintext (Utf8.encode_eq_nil_iff.mp hnil)
  rw [result_sm4Encrypt, if_neg hplaintext] at h
  obtain ⟨⟨k, v⟩, hinputs, h⟩ := bind_eq_ok_iff.mp h
  obtain ⟨bytes, hbytes, rfl⟩ := map_eq_ok_iff.mp h
  obtain ⟨hne, hback⟩ := Sm4.Mode.decrypt_of_encrypt htext (mapError_eq_ok_iff.mp hbytes)
  have hciphertext : encoding.encode bytes ≠ "" := fun hempty =>
    hne ((Encoding.encode_eq_empty_iff encoding).mp hempty)
  refine ⟨hciphertext, ?_⟩
  rw [result_sm4Decrypt, if_neg hciphertext]
  refine bind_eq_ok_iff.mpr ⟨(k, v), hinputs, ?_⟩
  refine bind_eq_ok_iff.mpr ⟨bytes, mapError_eq_ok_iff.mpr (Encoding.decode_encode ..), ?_⟩
  refine map_eq_ok_iff.mpr ⟨Utf8.encode plaintext, mapError_eq_ok_iff.mpr hback, ?_⟩
  exact Utf8.decodeLossy_encode plaintext

/-- Bytes that the private key of a text opens are deciphered from their
text, in either encoding. -/
theorem sm2Decrypt_encode {privateKey plaintext : String} {secret : Sm2.PrivateKey}
    (hsecret : engine.sm2PrivateKey privateKey = .ok secret) {layout : Sm2.Layout} {bytes : Bytes}
    (hne : bytes ≠ []) (hback : secret.decrypt layout bytes = .ok (Utf8.encode plaintext))
    (encoding : Encoding) :
    engine.sm2Decrypt privateKey (encoding.encode bytes) layout encoding
      = .ok (some plaintext) := by
  have hciphertext : encoding.encode bytes ≠ "" := fun hempty =>
    hne ((Encoding.encode_eq_empty_iff encoding).mp hempty)
  have hkey : privateKey ≠ "" := (engine.exists_scalar_of_sm2PrivateKey hsecret).left
  unfold sm2Decrypt
  rw [if_neg (not_or_intro hciphertext hkey)]
  refine bind_eq_ok_iff.mpr ⟨secret, hsecret, ?_⟩
  refine bind_eq_ok_iff.mpr ⟨bytes, mapError_eq_ok_iff.mpr (Encoding.decode_encode ..), ?_⟩
  refine bind_eq_ok_iff.mpr ⟨Utf8.encode plaintext, mapError_eq_ok_iff.mpr hback, ?_⟩
  rw [Utf8.decodeLossy_encode]
  rfl

end Engine

/-! ## 2. The kinds of functions -/

namespace Sql.Function

variable {f g : Function} {e e' : Entropy}

/-- Two functions of ECB or CBC undo each other if their transformations do
and the second one takes every IV that the first one takes. -/
theorem blockMode_of_blockMode
    {mask unmask : String → String → Option String → Checked Error String}
    (hback : ∀ key text iv masked, text ≠ "" → (mask key text iv).result = .ok masked →
      masked ≠ "" ∧ (unmask key masked iv).result = .ok text)
    {key : Parameter} {iv iv' : Except Error (Option String)}
    (hiv : ∀ v, iv = .ok v → iv' = .ok v) {plaintext ciphertext : String}
    (h : ((f.blockMode mask (some plaintext) key iv).runOn e).result.1 = .ok (some ciphertext)) :
    ((g.blockMode unmask (some ciphertext) key iv').runOn e').result.1
      = .ok (some plaintext) := by
  by_cases hplaintext : plaintext = ""
  · rw [hplaintext, blockMode_empty] at h
    obtain rfl : "" = ciphertext := Option.some.inj (Except.ok.inj h)
    rw [hplaintext, blockMode_empty]
  · obtain ⟨k, v, masked, hkey, hv, hmasked, hout⟩ := (blockMode_eq_ok_iff hplaintext).mp h
    obtain rfl := Option.some.inj hout
    obtain ⟨hciphertext, hplain⟩ := hback k plaintext v ciphertext hplaintext hmasked
    exact (blockMode_eq_ok_iff hciphertext).mpr ⟨k, v, plaintext, hkey, hiv v hv, hplain, rfl⟩

/-- Two functions of GCM undo each other if their transformations do. What
the first one passes through the second one does too. -/
theorem counterMode_of_counterMode
    {mask unmask : String → String → Option String → Option String → Checked Error String}
    (hback : ∀ key text nonce aad masked, text ≠ "" →
      (mask key text nonce aad).result = .ok masked →
      masked ≠ "" ∧ (unmask key masked nonce aad).result = .ok text)
    {data key nonce aad out : Parameter}
    (h : ((counterMode mask data key nonce aad).runOn e).result.1 = .ok out) :
    ((counterMode unmask out key nonce aad).runOn e').result.1 = .ok data := by
  by_cases hmissing : data = none ∨ data = some "" ∨ key = none ∨ key = some ""
  · obtain rfl : data = out := by
      rw [counterMode_of_missing hmissing] at h
      exact Except.ok.inj h
    exact counterMode_of_missing hmissing
  · simp only [not_or] at hmissing
    obtain ⟨hdata, htext, hkey, hkeyText⟩ := hmissing
    obtain ⟨text, rfl⟩ := Option.ne_none_iff_exists'.mp hdata
    obtain ⟨k, rfl⟩ := Option.ne_none_iff_exists'.mp hkey
    have htext : text ≠ "" := fun hempty => htext (congrArg some hempty)
    have hk : k ≠ "" := fun hempty => hkeyText (congrArg some hempty)
    obtain ⟨masked, hmasked, rfl⟩ := (counterMode_eq_ok_iff htext hk).mp h
    obtain ⟨hne, hplain⟩ := hback k text nonce _ masked htext hmasked
    exact (counterMode_eq_ok_iff hne hk).mpr ⟨text, hplain, rfl⟩

/-! ## 3. Pairs of functions -/

/-- The function that masks with SM4 in a mode. -/
def masker : Sm4.Mode → Function
  | .ecb => sm4EncryptEcb
  | .cbc => sm4EncryptCbc
  | .gcm => sm4Encrypt

/-- The function that unmasks with SM4 in a mode. -/
def unmasker : Sm4.Mode → Function
  | .ecb => sm4DecryptEcb
  | .cbc => sm4DecryptCbc
  | .gcm => sm4Decrypt

variable {engine : Engine} {rest : List Parameter}

/-- What GCM masks it unmasks, NULL and empty parameters included. -/
theorem sm4Decrypt_of_sm4Encrypt_gcm {data out : Parameter}
    (h : ((sm4Encrypt.invoke engine (data :: rest)).runOn e).result.1 = .ok out) :
    ((sm4Decrypt.invoke engine (out :: rest)).runOn e').result.1 = .ok data := by
  obtain ⟨hcount, h⟩ := invoke_eq_ok_iff.mp h
  refine invoke_eq_ok_iff.mpr ⟨hcount, ?_⟩
  simp only [apply, at?_cons_zero, at?_cons_succ] at h ⊢
  refine counterMode_of_counterMode ?_ h
  intro key text nonce aad masked htext hmasked
  exact Engine.sm4Decrypt_of_nonempty htext hmasked

/-- What a mode masks it unmasks. -/
theorem unmasker_of_masker {mode : Sm4.Mode} {plaintext ciphertext : String}
    (h : (((masker mode).invoke engine (some plaintext :: rest)).runOn e).result.1
      = .ok (some ciphertext)) :
    (((unmasker mode).invoke engine (some ciphertext :: rest)).runOn e').result.1
      = .ok (some plaintext) := by
  cases mode with
  | gcm => exact sm4Decrypt_of_sm4Encrypt_gcm h
  | ecb =>
    obtain ⟨hcount, h⟩ := invoke_eq_ok_iff.mp h
    refine invoke_eq_ok_iff.mpr ⟨hcount, ?_⟩
    simp only [masker, unmasker, apply, at?_cons_zero, at?_cons_succ] at h ⊢
    refine blockMode_of_blockMode ?_ (fun v hv => hv) h
    intro key text iv masked htext hmasked
    exact Engine.sm4Decrypt_of_nonempty htext hmasked
  | cbc =>
    obtain ⟨hcount, h⟩ := invoke_eq_ok_iff.mp h
    refine invoke_eq_ok_iff.mpr ⟨hcount, ?_⟩
    simp only [masker, unmasker, apply, at?_cons_zero, at?_cons_succ] at h ⊢
    refine blockMode_of_blockMode ?_ ?_ h
    · intro key text iv masked htext hmasked
      exact Engine.sm4Decrypt_of_nonempty htext hmasked
    · -- an IV that one function takes the other takes
      intro v hv
      obtain ⟨text, htext, rfl⟩ := map_eq_ok_iff.mp hv
      exact map_eq_ok_iff.mpr ⟨text, required_eq_ok_iff.mpr (required_eq_ok_iff.mp htext), rfl⟩

/-- What GCM passes through, it passes through in both directions. -/
theorem passes_through {data : Parameter} (hcount : 1 ≤ rest.length ∧ rest.length ≤ 3)
    (hmissing : data = none ∨ data = some "" ∨ at? rest 0 = none ∨ at? rest 0 = some "") :
    ((sm4Encrypt.invoke engine (data :: rest)).runOn e).result.1 = .ok data ∧
    ((sm4Decrypt.invoke engine (data :: rest)).runOn e).result.1 = .ok data := by
  have hlength : sm4Encrypt.least ≤ (data :: rest).length
      ∧ (data :: rest).length ≤ sm4Encrypt.most := by
    simp only [least, most, List.length_cons]
    omega
  constructor
  · refine invoke_eq_ok_iff.mpr ⟨hlength, ?_⟩
    simp only [apply, at?_cons_zero, at?_cons_succ]
    exact counterMode_of_missing hmissing
  · refine invoke_eq_ok_iff.mpr ⟨hlength, ?_⟩
    simp only [apply, at?_cons_zero, at?_cons_succ]
    exact counterMode_of_missing hmissing

/-- A text that SM2 enciphers for the public point of a private key, in the
order of the settings, is given back by that key from both texts of the
ciphertext. -/
theorem sm2Decrypt_of_sm2Encrypt_settings {privateKey publicKey plaintext ciphertext : String}
    {secret : Sm2.PrivateKey} {d : Sm2.Scalar} {receiver : Sm2.PublicKey}
    (hsecret : engine.sm2PrivateKey privateKey = .ok secret) (hscalar : secret.scalar = .ok d)
    (hreceiver : (engine.sm2PublicKey publicKey).result = .ok receiver)
    (hpoint : receiver.point = .ok (d.times Sm2.generator)) (hplaintext : plaintext ≠ "")
    {modeType : Option Parameter}
    (hlayout : sm2Encrypt.layoutFor engine modeType.join = .ok engine.settings.layout)
    (h : ((sm2Encrypt.invoke engine
      ([some plaintext, some publicKey] ++ modeType.toList)).runOn e).result.1
        = .ok (some ciphertext)) :
    ((sm2Decrypt.invoke engine [some ciphertext, some privateKey]).runOn e').result.1
        = .ok (some plaintext) ∧
    ∃ bytes, Encoding.base64.decode ciphertext = .ok bytes ∧
      ((sm2HexDecrypt.invoke engine [some (Encoding.hex.encode bytes),
        some privateKey]).runOn e').result.1 = .ok (some plaintext) := by
  have hthird : at? modeType.toList 0 = modeType.join := by cases modeType <;> rfl
  obtain ⟨-, h⟩ := invoke_eq_ok_iff.mp h
  simp only [apply, List.cons_append, List.nil_append, at?_cons_zero, at?_cons_succ, hthird] at h
  obtain ⟨k, layout, masked, ⟨hk, -⟩, hlayout', hmasked, hout⟩ :=
    (sm2Encryption_eq_ok_iff hplaintext).mp h
  obtain rfl : publicKey = k := Option.some.inj hk
  obtain rfl : ciphertext = masked := Option.some.inj hout
  obtain rfl : engine.settings.layout = layout := Except.ok.inj (hlayout.symm.trans hlayout')
  obtain ⟨receiver', bytes, drawn, hreceiver', hbytes, rfl⟩ :=
    engine.exists_bytes_of_sm2Encrypt hplaintext hmasked
  obtain rfl : receiver = receiver' := Except.ok.inj (hreceiver.symm.trans hreceiver')
  have htext : Utf8.encode plaintext ≠ [] := fun hnil =>
    hplaintext (Utf8.encode_eq_nil_iff.mp hnil)
  obtain ⟨hback, -, hhead⟩ := Sm2.decrypt_of_encrypt hscalar hpoint htext hbytes
  have hne : bytes ≠ [] := by
    rintro rfl
    exact absurd hhead nofun
  have hplain := Engine.sm2Decrypt_encode hsecret hne hback
  refine ⟨?_, bytes, Encoding.decode_encode .base64 bytes, ?_⟩
  · refine invoke_eq_ok_iff.mpr ⟨⟨Nat.le_refl 2, Nat.le_refl 2⟩, ?_⟩
    simp only [apply, at?_cons_zero, at?_cons_succ, result_sm2Decryption]
    exact hplain .base64
  · refine invoke_eq_ok_iff.mpr ⟨⟨Nat.le_refl 2, Nat.le_refl 2⟩, ?_⟩
    simp only [apply, at?_cons_zero, at?_cons_succ, result_sm2Decryption]
    exact hplain .hex

end Sql.Function

/-! ## 4. What is masked is unmasked -/

open Sql Sql.Function

/-- What an SQL function masks under any parameters its counterpart unmasks
under the same ones: with SM4 in each mode a value that is not NULL, and in
GCM any value, where both functions pass a value through that is NULL or
empty or has no key. With SM2 the private key gives back what was
enciphered for its public point in the order of the settings, from the
Base64 text and from the hexadecimal one. -/
theorem unmasks_of_masks (engine : Engine) :
    (∀ (mode : Sm4.Mode) (plaintext ciphertext : String) (rest : List Parameter) (e e' : Entropy),
      (((masker mode).invoke engine (some plaintext :: rest)).runOn e).result.1
        = .ok (some ciphertext) →
      (((unmasker mode).invoke engine (some ciphertext :: rest)).runOn e').result.1
        = .ok (some plaintext)) ∧
    (∀ (data out : Parameter) (rest : List Parameter) (e e' : Entropy),
      ((sm4Encrypt.invoke engine (data :: rest)).runOn e).result.1 = .ok out →
      ((sm4Decrypt.invoke engine (out :: rest)).runOn e').result.1 = .ok data) ∧
    (∀ (data : Parameter) (rest : List Parameter) (e : Entropy),
      1 ≤ rest.length ∧ rest.length ≤ 3 →
      data = none ∨ data = some "" ∨ at? rest 0 = none ∨ at? rest 0 = some "" →
      ((sm4Encrypt.invoke engine (data :: rest)).runOn e).result.1 = .ok data ∧
      ((sm4Decrypt.invoke engine (data :: rest)).runOn e).result.1 = .ok data) ∧
    ∀ (privateKey : String) (secret : Sm2.PrivateKey),
      engine.sm2PrivateKey privateKey = .ok secret →
      ∃ d : Sm2.Scalar, secret.scalar = .ok d ∧
        ∀ (publicKey plaintext ciphertext : String) (receiver : Sm2.PublicKey)
          (modeType : Option Parameter) (e e' : Entropy),
          (engine.sm2PublicKey publicKey).result = .ok receiver →
          receiver.point = .ok (d.times Sm2.generator) →
          plaintext ≠ "" →
          sm2Encrypt.layoutFor engine modeType.join = .ok engine.settings.layout →
          ((sm2Encrypt.invoke engine
              ([some plaintext, some publicKey] ++ modeType.toList)).runOn e).result.1
            = .ok (some ciphertext) →
          ((sm2Decrypt.invoke engine [some ciphertext, some privateKey]).runOn e').result.1
            = .ok (some plaintext) ∧
          ∃ bytes, Encoding.base64.decode ciphertext = .ok bytes ∧
            ((sm2HexDecrypt.invoke engine
                [some (Encoding.hex.encode bytes), some privateKey]).runOn e').result.1
              = .ok (some plaintext) := by
  refine ⟨?_, ?_, ?_, ?_⟩
  · intro mode plaintext ciphertext rest e e' h
    exact unmasker_of_masker h
  · intro data out rest e e' h
    exact sm4Decrypt_of_sm4Encrypt_gcm h
  · intro data rest e hcount hmissing
    exact passes_through hcount hmissing
  · intro privateKey secret hsecret
    obtain ⟨-, d, -, hscalar⟩ := engine.exists_scalar_of_sm2PrivateKey hsecret
    refine ⟨d, hscalar, ?_⟩
    intro publicKey plaintext ciphertext receiver modeType e e' hreceiver hpoint hplaintext
      hlayout h
    exact sm2Decrypt_of_sm2Encrypt_settings hsecret hscalar hreceiver hpoint hplaintext hlayout h

/-- A letter of two bytes under CBC, and under the SM2 private key one, whose
public point is the base point: the stream gives the ephemeral scalar two,
and the mode type names the order of the settings. -/
theorem unmasks_of_masks_letter :
    ((sm4DecryptCbc.invoke .default
        [some "nZlN2b5Ft3EZO7ifHgLexA==", some "0123456789abcdef",
          some "fedcba9876543210"]).runOn ⟨[]⟩).result.1 = .ok (some "é") ∧
    ((sm2Decrypt.invoke .default
        [some ("BFbO/WDXyHwADVjvV/pzuk2cDfoIwIpzMUlcLh2j8r1SMbfn5syBifZoU1zg+OrxvW3oTBgvbI5xb3gN"
          ++ "OpcKI8NVJXXp2a8CBS/32/HM2ugtHsPIkuGIghfYd5Db1ILDvhYj"), some "1"]).runOn
          ⟨[]⟩).result.1 = .ok (some "é") := by
  obtain ⟨hblocks, -, -, hpoints⟩ := unmasks_of_masks .default
  constructor
  · exact hblocks .cbc "é" _ _ ⟨[]⟩ _ (by decide +kernel)
  · let one : Sm2.Scalar := ⟨1, by decide, by decide⟩
    have hone : (Sm2.PrivateKey.ofScalar one).scalar = .ok one := Sm2.PrivateKey.scalar_ofScalar one
    have hsecret : Engine.default.sm2PrivateKey "1" = .ok (.ofScalar one) := by
      decide +kernel
    obtain ⟨d, hd, hback⟩ := hpoints "1" _ hsecret
    obtain rfl := Except.ok.inj (hone.symm.trans hd)
    refine (hback ("32c4ae2c1f1981195f9904466a39c9948fe30bbff2660be1715a4589334c74c7"
        ++ "bc3736a2f4f6779c59bdcee36b692153d0a9877cc62a474002df32e52139f0a0") "é" _
      (.ofPoint Sm2.generator) (some (some " +1 ")) ⟨Bytes.ofNat 32 2⟩ ⟨[]⟩ ?_ ?_ ?_ ?_ ?_).left
    · decide +kernel
    · decide +kernel
    · decide
    · decide +kernel
    · decide +kernel

end ColumnMasking
