/-
ColumnMasking.Proofs.Engine.GeneratedKeys — which engines can read the key
pairs that they generate.

A key pair is always written in digits, whatever the settings are
(`run_generateSm2KeyPair_eq_ok_iff`). An engine whose settings have key texts
in digits reads both keys back, strictly or not, and finds the public key
from the private one (`sm2PublicKey_of_point`, `sm2PrivateKey_of_scalar`). An
engine whose settings have them in Base64 reads neither. The 130 characters
of the public key are no whole number of groups. The 64 of the private key
may well be groups, but then of too many bytes, for only an `A` stands for a
zero in front (`head?_encodeChars_zero`).
-/
import ColumnMasking.Proofs.Engine.Sm2Keys
import ColumnMasking.Proofs.ExportedKeys

namespace ColumnMasking

/-! ## 1. Digits read as Base64 -/

/-- A text in Base64 consists of groups of four. -/
theorem Base64.length_encode_mod (bs : Bytes) : (Utf8.encode (encode bs)).length % 4 = 0 := by
  rw [length_encode, Nat.mul_mod_right]

/-- Bytes that start with a zero are written with an `A` in front. -/
theorem Base64.head?_encodeChars_zero : ∀ rest : Bytes,
    (encodeChars (0 :: rest)).head? = some 'A'
  | [] => rfl
  | [b] => by
    have hb : b.toNat < 256 := b.toNat_lt
    have hzero : ((0 : UInt8).toNat * 256 + b.toNat) * 4 / 4096 = 0 := by
      simp only [UInt8.toNat_zero]
      omega
    simp only [encodeChars, hzero, List.head?_cons]
    rfl
  | b :: c :: rest => by
    have hb : b.toNat < 256 := b.toNat_lt
    have hc : c.toNat < 256 := c.toNat_lt
    have hzero : (((0 : UInt8).toNat * 256 + b.toNat) * 256 + c.toNat) / 262144 = 0 := by
      simp only [UInt8.toNat_zero]
      omega
    simp only [encodeChars, hzero, List.head?_cons]
    rfl

/-- No digit that is written is an `A`. -/
theorem Hex.ne_A_of_mem_encode {bs : Bytes} : ∀ c ∈ (encode bs).toList, c ≠ 'A' := by
  have hdigit : ∀ n < 16, digit n ≠ 'A' := by decide
  intro c hc
  rw [toList_encode] at hc
  obtain ⟨n, hn, rfl⟩ := List.mem_map.mp hc
  exact hdigit n (lt_of_mem_halves hn)

/-- The digits of bytes take two bytes of text each. -/
theorem Hex.length_utf8_encode (bs : Bytes) : (Utf8.encode (encode bs)).length = 2 * bs.length := by
  rw [Utf8.encode, (spells_encode bs).length_encodeChars, length_halves]

namespace KeyMaterial

/-- A text that is no whole number of groups is no public key in Base64. -/
theorem sm2PublicKey_base64_ne_ok {text : String} (h : (Utf8.encode text).length % 4 ≠ 0)
    {strict : Bool} {m : KeyMaterial} : (sm2PublicKey text .base64 strict).result ≠ .ok m := by
  intro hm
  obtain ⟨digits, source, hdigits, -, -⟩ := sm2PublicKey_eq_ok_iff.mp hm
  obtain ⟨⟨-, bytes, rfl, -⟩, -⟩ := digitsOfPublicKey_base64_iff.mp hdigits
  exact h (Base64.length_encode_mod bytes)

/-- The digits of 32 bytes are no private key in Base64: read so they are too
many bytes. -/
theorem sm2PrivateKey_base64_ne_ok {bs : Bytes} (h : bs.length = coordinateLength)
    {m : KeyMaterial} : sm2PrivateKey (Hex.encode bs) .base64 ≠ .ok m := by
  intro hm
  obtain ⟨raw, source, hraw, hshort, -⟩ := sm2PrivateKey_eq_ok_iff.mp hm
  have htext := eq_encode_of_bytesOfPrivateKey hraw
  have hlength : 4 * ((raw.length + 2) / 3) = 64 := by
    rw [← Base64.length_encode, ← htext, Hex.length_utf8_encode, h]
    rfl
  cases raw with
  | nil => simp at hlength
  | cons b rest =>
    have hb : b ≠ 0 := by
      rintro rfl
      have hhead : (Hex.encode bs).toList.head? = some 'A' := by
        rw [htext, Base64.encode, String.toList_ofList, Base64.head?_encodeChars_zero]
      exact Hex.ne_A_of_mem_encode 'A' (List.mem_of_head? hhead) rfl
    rw [List.dropWhile_cons_of_neg (by simpa using hb)] at hshort
    simp only [coordinateLength] at hshort
    omega

end KeyMaterial

/-! ## 2. Engines and their key pairs -/

namespace Engine

variable {engine : Engine} {d : Sm2.Scalar}

/-- A generated key pair is written in digits, for every scalar that is
drawn. -/
theorem run_generateSm2KeyPair_eq_ok_iff {e rest : Entropy} {publicText privateText : String} :
    engine.generateSm2KeyPair.run e = (.ok (publicText, privateText), rest) ↔
      ∃ d, Sm2.Scalar.draw e = (some d, rest)
        ∧ publicText = Hex.encode (d.times Sm2.generator).encode
        ∧ privateText = Hex.encode d.toBytes := by
  unfold generateSm2KeyPair
  rw [Drawing.run_bind_pure, Drawing.run_adapt]
  constructor
  · intro h
    obtain ⟨hresult, rfl⟩ := Prod.mk.inj h
    obtain ⟨pair, hpair, htexts⟩ := map_eq_ok_iff.mp hresult
    obtain ⟨rfl, rfl⟩ := Prod.mk.inj htexts
    obtain ⟨d, hd, rfl⟩ := Sm2.KeyPair.run_generate_eq_ok_iff.mp
      (Prod.ext (mapError_eq_ok_iff.mp hpair) rfl)
    exact ⟨d, hd, rfl, rfl⟩
  · rintro ⟨d, hd, rfl, rfl⟩
    rw [Sm2.KeyPair.run_generate_eq_ok_iff.mpr ⟨d, hd, rfl⟩]
    rfl

/-- Settings with keys in digits: the digits of a point stand for its key. -/
theorem sm2PublicKey_of_point (hhex : engine.settings.keyEncoding = .hex) {p : Sm2.Point}
    (hcurve : p.OnCurve) (hne : p ≠ .infinity) :
    (engine.sm2PublicKey (Hex.encode p.encode)).result = .ok (.ofPoint p) := by
  obtain ⟨bs, hbs, hlength⟩ := Sm2.Point.exists_coordinates hne
  have hmaterial := KeyMaterial.sm2PublicKey_encode hlength engine.settings.strictPublicKey
  rw [← hbs, ← hhex] at hmaterial
  exact sm2PublicKey_eq_ok_iff.mpr ⟨p, ⟨hcurve, hne, _, hmaterial, hbs⟩, rfl⟩

/-- Settings with keys in digits: the digits of a scalar stand for its key. -/
theorem sm2PrivateKey_of_scalar (hhex : engine.settings.keyEncoding = .hex) (d : Sm2.Scalar) :
    engine.sm2PrivateKey (Hex.encode d.toBytes) = .ok (.ofScalar d) := by
  unfold sm2PrivateKey
  rw [hhex]
  exact bind_eq_ok_iff.mpr ⟨_, mapError_eq_ok_iff.mpr (KeyMaterial.sm2PrivateKey_encode d),
    mapError_eq_ok_iff.mpr (Sm2.PrivateKey.ofMaterial_toBytes d .hex)⟩

/-- The public key of a private key text that stands for a scalar. -/
theorem sm2PublicKeyOf_of_scalar {privateText : String}
    (h : engine.sm2PrivateKey privateText = .ok (.ofScalar d)) :
    engine.sm2PublicKeyOf privateText
      = .ok (Hex.encode ((d.times Sm2.generator).encode.drop 1)) := by
  unfold sm2PublicKeyOf
  refine bind_eq_ok_iff.mpr ⟨_, h, ?_⟩
  refine bind_eq_ok_iff.mpr ⟨.ofPoint (d.times Sm2.generator), mapError_eq_ok_iff.mpr ?_, rfl⟩
  exact bind_eq_ok_iff.mpr ⟨d, Sm2.PrivateKey.scalar_ofScalar d, rfl⟩

/-- Settings with keys in Base64: the digits of a point are refused. -/
theorem exists_error_of_point (hbase64 : engine.settings.keyEncoding = .base64) {p : Sm2.Point}
    (hne : p ≠ .infinity) :
    ∃ error, (engine.sm2PublicKey (Hex.encode p.encode)).result = .error error := by
  refine exists_error_of_ne_ok fun key hkey => ?_
  obtain ⟨m, hm, -⟩ := Checked.result_bind_eq_ok_iff.mp hkey
  rw [hbase64] at hm
  refine KeyMaterial.sm2PublicKey_base64_ne_ok ?_ (mapError_eq_ok_iff.mp hm)
  rw [Hex.length_utf8_encode, Sm2.Point.length_encode hne]
  decide

/-- Settings with keys in Base64: the digits of a scalar are refused. -/
theorem exists_error_of_scalar (hbase64 : engine.settings.keyEncoding = .base64)
    (d : Sm2.Scalar) : ∃ error, engine.sm2PrivateKey (Hex.encode d.toBytes) = .error error := by
  refine exists_error_of_ne_ok fun key hkey => ?_
  obtain ⟨m, hm, -⟩ := bind_eq_ok_iff.mp hkey
  rw [hbase64] at hm
  exact KeyMaterial.sm2PrivateKey_base64_ne_ok d.length_toBytes (mapError_eq_ok_iff.mp hm)

/-- An engine can use the key pairs that it generates when its settings have
key texts in digits: strictly or not, it reads the public key and the private
key of one scalar, and finds the last 128 characters of the public key from
the private one. When its settings have key texts in Base64 it refuses
both. -/
theorem generated_keys_usable_under_hex {e : Entropy} {publicText privateText : String}
    (h : (engine.generateSm2KeyPair.run e).1 = .ok (publicText, privateText)) :
    (engine.settings.keyEncoding = .hex →
      (∃ d : Sm2.Scalar,
        (engine.sm2PublicKey publicText).result = .ok (.ofPoint (d.times Sm2.generator)) ∧
        engine.sm2PrivateKey privateText = .ok (.ofScalar d)) ∧
      engine.sm2PublicKeyOf privateText = .ok (String.ofList (publicText.toList.rtake 128))) ∧
    (engine.settings.keyEncoding = .base64 →
      (∃ error, (engine.sm2PublicKey publicText).result = .error error) ∧
      (∃ error, engine.sm2PrivateKey privateText = .error error) ∧
      ∃ error, engine.sm2PublicKeyOf privateText = .error error) := by
  obtain ⟨d, -, rfl, rfl⟩ := run_generateSm2KeyPair_eq_ok_iff.mp (Prod.ext h rfl)
  have hne := d.times_generator_ne_infinity
  constructor
  · intro hhex
    have hprivate := sm2PrivateKey_of_scalar hhex d
    refine ⟨⟨d, sm2PublicKey_of_point hhex d.onCurve_times_generator hne, hprivate⟩, ?_⟩
    obtain ⟨bs, hbs, hlength⟩ := Sm2.Point.exists_coordinates hne
    have hdigits : 2 * bs.length = 128 := by
      rw [hlength]
      rfl
    have hlast := Hex.rtake_toList_encode [0x04] hdigits
    have hdrop : ((0x04 : UInt8) :: bs).drop 1 = bs := rfl
    rw [sm2PublicKeyOf_of_scalar hprivate, hbs, hdrop]
    exact congrArg Except.ok (String.toList_injective (hlast.symm.trans String.toList_ofList.symm))
  · intro hbase64
    obtain ⟨error, herror⟩ := exists_error_of_scalar hbase64 d
    exact ⟨exists_error_of_point hbase64 hne, ⟨error, herror⟩,
      error, bind_eq_error_iff.mpr (.inl herror)⟩

/-- The key pair of the scalar one on the default engine, which is the base
point: what is found from the private key are its digits behind `04`. -/
theorem generated_keys_usable_under_hex_one :
    default.sm2PublicKeyOf "0000000000000000000000000000000000000000000000000000000000000001"
      = .ok ("32c4ae2c1f1981195f9904466a39c9948fe30bbff2660be1715a4589334c74c7"
          ++ "bc3736a2f4f6779c59bdcee36b692153d0a9877cc62a474002df32e52139f0a0") := by
  have hdrawn : (default.generateSm2KeyPair.run ⟨Bytes.ofNat 32 1⟩).1
      = .ok ("0432c4ae2c1f1981195f9904466a39c9948fe30bbff2660be1715a4589334c74c7"
            ++ "bc3736a2f4f6779c59bdcee36b692153d0a9877cc62a474002df32e52139f0a0",
          "0000000000000000000000000000000000000000000000000000000000000001") := by
    decide +kernel
  obtain ⟨-, hfound⟩ := (generated_keys_usable_under_hex hdrawn).left rfl
  rw [hfound]
  decide +kernel

/-- The same key pair, where the settings have key texts in Base64: either key
is refused by the engine that has generated it. -/
theorem generated_keys_refused_under_base64 :
    let engine : Engine := ⟨{ keyEncoding := .base64 }⟩
    let publicText := "0432c4ae2c1f1981195f9904466a39c9948fe30bbff2660be1715a4589334c74c7"
      ++ "bc3736a2f4f6779c59bdcee36b692153d0a9877cc62a474002df32e52139f0a0"
    let privateText := "0000000000000000000000000000000000000000000000000000000000000001"
    (engine.generateSm2KeyPair.run ⟨Bytes.ofNat 32 1⟩).1 = .ok (publicText, privateText) ∧
    (engine.sm2PublicKey publicText).result
      = .error (.keyMaterial (.malformed .sm2PublicKey .base64 (.base64 .invalidPadding))) ∧
    engine.sm2PrivateKey privateText = .error (.keyMaterial (.privateKeyTooLong 48)) ∧
    engine.sm2PublicKeyOf privateText = .error (.keyMaterial (.privateKeyTooLong 48)) := by
  decide +kernel

end Engine

end ColumnMasking
