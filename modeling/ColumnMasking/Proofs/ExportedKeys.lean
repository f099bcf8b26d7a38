/-
ColumnMasking.Proofs.ExportedKeys — keys are drawn by trial, and what is
written of a key is read back as the key.

A key pair is that of the first block of the stream that spells a scalar
(`Sm2.KeyPair.run_generate_of_first`); without such a block there is none
(`Sm2.KeyPair.run_generate_of_none`).

Keys are written in digits. Public key texts are read leniently for this, the
last 128 digits alone, so the tag in front may be left out
(`KeyMaterial.sm2PublicKey_encode_front`). Private key texts are read as
numbers, and all 32 bytes of a scalar come back, zeros in front included
(`KeyMaterial.sm2PrivateKey_encode`).
-/
import ColumnMasking.Proofs.Sm2.PrivateKeyTexts
import ColumnMasking.Proofs.Sm2.PublicKeyTexts
import ColumnMasking.Proofs.Sm2.ScalarSampling

namespace ColumnMasking

/-! ## 1. Digits of keys -/

namespace KeyMaterial

variable {bs : Bytes} {strict : Bool}

/-- The last digits of a written text are the digits of the last bytes. -/
theorem publicKeyOfDigits_encode (front : Bytes) (h : bs.length = 2 * coordinateLength)
    (source : Source) :
    publicKeyOfDigits (Hex.encode (front ++ bs)).toList source
      = .ok ⟨bs, .sm2PublicKey, source⟩ := by
  have hcount : 2 * bs.length = publicKeyDigits := by
    rw [h]
    decide
  have hlast := Hex.rtake_toList_encode front hcount
  rw [List.rtake] at hlast
  unfold publicKeyOfDigits
  rw [hlast, String.ofList_toList, Hex.decodeHexStrict_encode]

/-- The digits of two coordinates behind other bytes are resolved to them, if
their count will do. -/
theorem sm2PublicKey_encode_of_count (front : Bytes) (h : bs.length = 2 * coordinateLength)
    (hcount : checkPublicKeyLength (Hex.encode (front ++ bs)).toList strict = .ok ()) :
    (sm2PublicKey (Hex.encode (front ++ bs)) .hex strict).result
      = .ok ⟨bs, .sm2PublicKey, .hex⟩ := by
  have hne : front ++ bs ≠ [] := by
    intro hnil
    rw [(List.append_eq_nil_iff.mp hnil).right] at h
    exact absurd h (by decide)
  exact sm2PublicKey_eq_ok_iff.mpr
    ⟨_, _, digitsOfPublicKey_encode hne .hex, hcount, publicKeyOfDigits_encode front h .hex⟩

/-- The digits of two coordinates behind a four are resolved to them, strictly
or not. -/
theorem sm2PublicKey_encode (h : bs.length = 2 * coordinateLength) (strict : Bool) :
    (sm2PublicKey (Hex.encode (0x04 :: bs)) .hex strict).result
      = .ok ⟨bs, .sm2PublicKey, .hex⟩ := by
  have hstrict : checkPublicKeyLength (Hex.encode (0x04 :: bs)).toList true = .ok () := by
    refine checkPublicKeyLength_strict_iff.mpr (.inr ⟨?_, ?_⟩)
    · rw [Hex.length_toList_encode, List.length_cons, h]
      decide
    · rw [Hex.toList_encode]
      exact List.prefix_append _ _
  refine sm2PublicKey_encode_of_count [0x04] h ?_
  cases strict with
  | true => exact hstrict
  | false => exact checkPublicKeyLength_lenient_of_strict hstrict

/-- Not strictly, they are resolved behind any bytes. -/
theorem sm2PublicKey_encode_front (front : Bytes) (h : bs.length = 2 * coordinateLength) :
    (sm2PublicKey (Hex.encode (front ++ bs)) .hex false).result
      = .ok ⟨bs, .sm2PublicKey, .hex⟩ := by
  refine sm2PublicKey_encode_of_count front h (checkPublicKeyLength_lenient_iff.mpr ?_)
  have hcount : 2 * (2 * coordinateLength) = publicKeyDigits := by decide
  rw [Hex.length_toList_encode, List.length_append, h]
  omega

/-- The digits of a scalar are resolved to its bytes. -/
theorem sm2PrivateKey_encode (d : Sm2.Scalar) :
    sm2PrivateKey (Hex.encode d.toBytes) .hex = .ok ⟨d.toBytes, .sm2PrivateKey, .hex⟩ := by
  have hne : d.toBytes ≠ [] := List.ne_nil_of_length_eq_add_one d.length_toBytes
  have hsmall : d.value < 2 ^ 256 := Nat.lt_trans d.lt_order (by decide)
  have hnumber : Bytes.toNat d.toBytes = d.value := Bytes.toNat_ofNat_of_lt hsmall
  have hmaterial := sm2PrivateKey_of_encode hne .hex
  rw [hnumber, privateKeyMaterial, if_pos hsmall] at hmaterial
  exact hmaterial

end KeyMaterial

/-! ## 2. Keys read back -/

/-- The digits of the coordinates of a point are read back as its key, whatever
bytes stand in front. -/
theorem Sm2.PublicKey.importText_encode {p : Point} (hcurve : p.OnCurve) (hne : p ≠ .infinity)
    {bs : Bytes} (hbytes : p.encode = 0x04 :: bs)
    (hlength : bs.length = 2 * KeyMaterial.coordinateLength) (front : Bytes) :
    (importText (Hex.encode (front ++ bs))).result = .ok (ofPoint p) := by
  have hmaterial := KeyMaterial.sm2PublicKey_encode_front front hlength
  have hpoint := KeyMaterial.point?_of_shape (m := ⟨bs, .sm2PublicKey, .hex⟩) rfl hlength
  rw [← hbytes] at hpoint
  exact Checked.result_bind_eq_ok_iff.mpr ⟨_, mapError_eq_ok_iff.mpr hmaterial,
    ofMaterial_of_coordinates hcurve hne rfl hpoint⟩

namespace Sm2.PrivateKey

/-- The key of a scalar is read back from its digits. -/
theorem importText_exportText (d : Scalar) :
    importText (ofScalar d).exportText = .ok (ofScalar d) :=
  bind_eq_ok_iff.mpr ⟨_, mapError_eq_ok_iff.mpr (KeyMaterial.sm2PrivateKey_encode d),
    ofMaterial_toBytes d .hex⟩

/-- The public key of the key of a scalar. -/
theorem publicKey_ofScalar (d : Scalar) :
    (ofScalar d).publicKey = .ok (.ofPoint (d.times generator)) :=
  bind_eq_ok_iff.mpr ⟨d, scalar_ofScalar d, rfl⟩

end Sm2.PrivateKey

/-- A key of SM4 is read back from its digits. -/
theorem Sm4.Key.importText_exportText {key : Key} (h : key.bytes.length = 16) :
    importText key.exportText = .ok key := by
  have hne : key.bytes ≠ [] := List.ne_nil_of_length_eq_add_one h
  have hlength : key.bytes.length ∈ [KeyMaterial.blockLength] := List.mem_singleton.mpr h
  have hmaterial : KeyMaterial.sm4Key key.exportText .hex = .ok ⟨key.bytes, .sm4Key, .hex⟩ :=
    KeyMaterial.resolveBlock_of_digits hne hlength (Hex.toLower_encode key.bytes)
  exact bind_eq_ok_iff.mpr ⟨_, mapError_eq_ok_iff.mpr hmaterial, ofMaterial_of_length h⟩

/-! ## 3. Key pairs that are drawn -/

namespace Sm2.KeyPair

variable {e : Entropy} {i : Nat}

/-- The key pair of the first block that spells a scalar. -/
theorem run_generate_of_first (h : e.FirstScalar i) :
    generate.run e
      = (.ok ⟨⟨(generator.multiple (Bytes.toNat (e.block i))).encode⟩, ⟨e.block i⟩⟩,
        e.afterBlocks (i + 1)) := by
  obtain ⟨d, hd, hdrawn⟩ := Scalar.draw_of_first h
  have hbytes := Scalar.toBytes_of_ofBytes? hd
  have hvalue : d.value = Bytes.toNat (e.block i) := by
    unfold Scalar.ofBytes? at hd
    split at hd
    · exact Scalar.ofNat?_eq_some hd
    · simp at hd
  rw [run_generate_eq_ok_iff.mpr ⟨d, hdrawn, rfl⟩, ofScalar, PrivateKey.ofScalar, hbytes,
    PublicKey.ofPoint, Scalar.times, hvalue]

/-- Without a block that spells a scalar there is no key pair. -/
theorem run_generate_of_none (h : ∀ i, e.HasBlock i → ¬ e.ScalarBlock i) :
    generate.run e = (.error .keyGeneration, e.afterBlocks (e.bytes.length / 32)) := by
  simp only [generate, ExceptT.run_mk, Scalar.draw_of_none h]

/-- A key pair is only drawn where a block spells a scalar. -/
theorem exists_first_of_run_generate {rest : Entropy} {pair : KeyPair}
    (h : generate.run e = (.ok pair, rest)) : ∃ i, e.FirstScalar i := by
  rcases e.exists_first_or_none with hfirst | hnone
  · exact hfirst
  · rw [run_generate_of_none hnone] at h
    exact absurd (Prod.mk.inj h).left nofun

/-- There is no key pair exactly where no block spells a scalar. -/
theorem run_generate_eq_error_iff {rest : Entropy} {error : Error} :
    generate.run e = (.error error, rest) ↔
      (∀ i, e.HasBlock i → ¬ e.ScalarBlock i) ∧ error = .keyGeneration ∧
        rest = e.afterBlocks (e.bytes.length / 32) := by
  constructor
  · intro h
    rcases e.exists_first_or_none with ⟨i, hfirst⟩ | hnone
    · rw [run_generate_of_first hfirst] at h
      exact absurd (Prod.mk.inj h).left nofun
    · rw [run_generate_of_none hnone] at h
      obtain ⟨herror, hrest⟩ := Prod.mk.inj h
      exact ⟨hnone, (Except.error.inj herror).symm, hrest.symm⟩
  · rintro ⟨hnone, rfl, rfl⟩
    exact run_generate_of_none hnone

/-- The key pair of a scalar is read back from what is written of it: the
public key with or without its tag. -/
theorem importText_ofScalar (d : Scalar) :
    (ofScalar d).publicKey.exportText.length = 130 ∧
    ['0', '4'] <+: (ofScalar d).publicKey.exportText.toList ∧
    (ofScalar d).privateKey.exportText.length = 64 ∧
    (PublicKey.importText (ofScalar d).publicKey.exportText).result
      = .ok (ofScalar d).publicKey ∧
    (PublicKey.importText
      (String.ofList ((ofScalar d).publicKey.exportText.toList.drop 2))).result
      = .ok (ofScalar d).publicKey ∧
    PrivateKey.importText (ofScalar d).privateKey.exportText = .ok (ofScalar d).privateKey ∧
    (ofScalar d).privateKey.publicKey = .ok (ofScalar d).publicKey := by
  have hcurve := d.onCurve_times_generator
  have hne := d.times_generator_ne_infinity
  obtain ⟨bs, hbytes, hlength⟩ := Point.exists_coordinates hne
  have hpublic : (ofScalar d).publicKey.exportText = Hex.encode (0x04 :: bs) :=
    congrArg Hex.encode hbytes
  have htagged : (Hex.encode (0x04 :: bs)).toList = '0' :: '4' :: (Hex.encode bs).toList := by
    rw [Hex.toList_encode, Hex.toList_encode]
    rfl
  refine ⟨?_, ?_, ?_, ?_, ?_, PrivateKey.importText_exportText d, PrivateKey.publicKey_ofScalar d⟩
  · rw [hpublic, ← String.length_toList, Hex.length_toList_encode, List.length_cons, hlength]
    rfl
  · rw [hpublic, htagged]
    exact ⟨_, rfl⟩
  · rw [PrivateKey.exportText, ← String.length_toList, Hex.length_toList_encode, ofScalar,
      PrivateKey.ofScalar, Scalar.length_toBytes]
    rfl
  · rw [hpublic]
    exact PublicKey.importText_encode hcurve hne hbytes hlength [0x04]
  · rw [hpublic, htagged, List.drop_succ_cons, List.drop_succ_cons, List.drop_zero,
      String.ofList_toList]
    exact PublicKey.importText_encode hcurve hne hbytes hlength []

end Sm2.KeyPair

/-! ## 4. Keys that are drawn, written and read -/

/-- Key pairs are drawn by trial. The private key is the first block of 32
bytes of the stream whose number is between one and the order less one, the
public key is the uncompressed form of that multiple of the base point, and
the stream goes on behind that block. There is no key pair exactly when no
block of the stream is such a number; all blocks are taken then.

Of every key pair so drawn the public key is written in 130 characters that
start with `04` and the private key in 64. Both are read back from these, the
public key without the `04` as well, and the private key that is read has
that public key. A key of SM4 is read back from what is written of it, too. -/
theorem keyPairs_drawn_and_restored :
    (∀ (e : Entropy) (i : Nat), e.FirstScalar i →
      Sm2.KeyPair.generate.run e
        = (.ok ⟨⟨(Sm2.generator.multiple (Bytes.toNat (e.block i))).encode⟩, ⟨e.block i⟩⟩,
          ⟨e.bytes.drop (32 * (i + 1))⟩)) ∧
    (∀ (e rest : Entropy) (error : Sm2.Error),
      Sm2.KeyPair.generate.run e = (.error error, rest) ↔
        (∀ i, e.HasBlock i → ¬ e.ScalarBlock i) ∧ error = .keyGeneration ∧
          rest = ⟨e.bytes.drop (32 * (e.bytes.length / 32))⟩) ∧
    (∀ (e rest : Entropy) (pair : Sm2.KeyPair),
      Sm2.KeyPair.generate.run e = (.ok pair, rest) →
      (∃ i, e.FirstScalar i) ∧
      pair.publicKey.exportText.length = 130 ∧
      ['0', '4'] <+: pair.publicKey.exportText.toList ∧
      pair.privateKey.exportText.length = 64 ∧
      (Sm2.PublicKey.importText pair.publicKey.exportText).result = .ok pair.publicKey ∧
      (Sm2.PublicKey.importText
        (String.ofList (pair.publicKey.exportText.toList.drop 2))).result = .ok pair.publicKey ∧
      Sm2.PrivateKey.importText pair.privateKey.exportText = .ok pair.privateKey ∧
      pair.privateKey.publicKey = .ok pair.publicKey) ∧
    (∀ key : Sm4.Key, key.bytes.length = 16 →
      Sm4.Key.importText key.exportText = .ok key) := by
  refine ⟨fun _ _ => Sm2.KeyPair.run_generate_of_first,
    fun _ _ _ => Sm2.KeyPair.run_generate_eq_error_iff, ?_,
    fun _ => Sm4.Key.importText_exportText⟩
  intro e rest pair h
  refine ⟨Sm2.KeyPair.exists_first_of_run_generate h, ?_⟩
  obtain ⟨d, -, rfl⟩ := Sm2.KeyPair.run_generate_eq_ok_iff.mp h
  exact Sm2.KeyPair.importText_ofScalar d

/-- A stream of a block of zeros, the block of the number one and one more
byte: the second block is the private key, the base point is the public key,
and the last byte is left. -/
theorem keyPairs_drawn_and_restored_secondBlock :
    Sm2.KeyPair.generate.run ⟨List.replicate 32 0 ++ Bytes.ofNat 32 1 ++ [7]⟩
      = (.ok ⟨⟨Sm2.generator.encode⟩, ⟨Bytes.ofNat 32 1⟩⟩, ⟨[7]⟩) := by
  have hfirst : Entropy.FirstScalar ⟨List.replicate 32 0 ++ Bytes.ofNat 32 1 ++ [7]⟩ 1 :=
    ⟨by decide, by decide, by decide⟩
  have hblock : Entropy.block ⟨List.replicate 32 0 ++ Bytes.ofNat 32 1 ++ [7]⟩ 1
      = Bytes.ofNat 32 1 := by decide
  have hnumber : Bytes.toNat (Bytes.ofNat 32 1) = 1 := by decide
  have hpoint : Sm2.generator.multiple 1 = Sm2.generator := by decide +kernel
  rw [keyPairs_drawn_and_restored.left _ 1 hfirst, hblock, hnumber, hpoint]
  rfl

end ColumnMasking
