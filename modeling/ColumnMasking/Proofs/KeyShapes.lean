/-
ColumnMasking.Proofs.KeyShapes — the shape of resolved key material.

`Shaped` says what a way to resolve texts gives: material of one role, whose
bytes have one of certain lengths. All byte strings of these lengths are
given, so the lengths are exact; and no text is refused for malformed
hexadecimal, because the strict reading only ever sees an even count of
digits (`Hex.decode_of_spells`).

Those who take key material check its length again. For material of the
right shape these checks pass: `Sm4.Key.ofMaterial_of_length`,
`Sm4.Iv.ofMaterial_of_length` and `point?_of_shape`. `keyMaterial_shaped`
puts both sides together.
-/
import ColumnMasking.Proofs.KeyTexts
import ColumnMasking.Proofs.Text.DigitNumbers
import ColumnMasking.Sm4.Key

namespace ColumnMasking

/-! ## 1. Digits that are read strictly -/

/-- A text that spells an even count of values is read. -/
theorem Encoding.decodeHexStrict_of_spells {text : String} {ns : List Nat}
    (h : Hex.Spells text.toList ns) (heven : ns.length % 2 = 0) :
    decodeHexStrict text = .ok (Hex.pack ns) := by
  have hread := Hex.decode_of_spells h heven
  rw [String.ofList_toList] at hread
  exact mapError_eq_ok_iff.mpr hread

namespace KeyMaterial

/-- A way to resolve texts gives material of one role, whose bytes are the
byte strings of certain lengths, and refuses no text for malformed
hexadecimal. -/
structure Shaped (role : Role) (lengths : List Nat)
    (resolve : String → Encoding → Except Error KeyMaterial) : Prop where
  role_eq : ∀ {text encoding m}, resolve text encoding = .ok m → m.role = role
  length_mem : ∀ {text encoding m}, resolve text encoding = .ok m → m.bytes.length ∈ lengths
  attained : ∀ encoding (bs : Bytes), bs.length ∈ lengths →
    ∃ text m, resolve text encoding = .ok m ∧ m.bytes = bs
  not_malformed_hex : ∀ text encoding role' cause,
    resolve text encoding ≠ .error (.malformed role' .hex cause)

variable {text : String} {role : Role} {encoding : Encoding} {lengths : List Nat}
  {otherLength : Nat → Error} {m : KeyMaterial}

/-! ## 2. Keys, IVs and nonces of SM4 -/

/-- Texts are refused for being empty or for their length, and for nothing
else: the count of digits is even, and Base64 that cannot be read is a text
of the wrong length. -/
theorem error_of_resolveBlock {error : Error}
    (h : resolveBlock text role encoding lengths otherLength = .error error) :
    error = if text = "" then .empty role else otherLength (Utf8.encode text).length := by
  simp only [resolveBlock, Utf8.encode_eq_nil_iff] at h
  split at h
  · rename_i hempty
    rw [if_pos hempty, Except.error.inj h]
  rename_i hnonempty
  rw [if_neg hnonempty]
  split at h
  · -- digits
    rename_i hform
    obtain ⟨ns, hns⟩ := Hex.exists_spells_of_isHex hform.right
    obtain ⟨n, -, hn⟩ := List.mem_map.mp hform.left
    have hlength : ns.length = 2 * n := hns.length_encodeChars.symm.trans hn.symm
    rw [Encoding.decodeHexStrict_of_spells hns (by omega)] at h
    simp at h
  split at h
  · simp at h
  split at h
  · -- Base64
    split at h
    · simp at h
    · exact (Except.error.inj h).symm
  · exact (Except.error.inj h).symm

/-- No text is refused as malformed. -/
theorem resolveBlock_ne_malformed {role' : Role} {form : Encoding} {cause : Encoding.Error}
    (hother : ∀ n, otherLength n ≠ .malformed role' form cause) :
    resolveBlock text role encoding lengths otherLength
      ≠ .error (.malformed role' form cause) := by
  intro h
  have herror := error_of_resolveBlock h
  split at herror
  · exact absurd herror nofun
  · exact hother _ herror.symm

/-- The three forms together have a shape. Every byte string of one of the
lengths is given for its digits. -/
theorem shaped_resolveBlock (hnonempty : 0 ∉ lengths)
    (hother : ∀ n role' cause, otherLength n ≠ .malformed role' .hex cause) :
    Shaped role lengths fun text encoding =>
      resolveBlock text role encoding lengths otherLength where
  role_eq h := (forms_of_resolveBlock h).left
  length_mem h := (forms_of_resolveBlock h).right.left
  attained := by
    intro encoding bs hlength
    have hne : bs ≠ [] := by
      rintro rfl
      exact hnonempty hlength
    exact ⟨_, _, resolveBlock_of_digits hne hlength (Hex.toLower_encode bs), rfl⟩
  not_malformed_hex _ _ _ _ := resolveBlock_ne_malformed fun n => hother n _ _

theorem shaped_sm4Key : Shaped .sm4Key [blockLength] sm4Key :=
  shaped_resolveBlock (by decide) nofun

theorem shaped_sm4Iv : Shaped .sm4Iv [blockLength] sm4Iv :=
  shaped_resolveBlock (by decide) nofun

theorem shaped_gcmNonce : Shaped .sm4Iv [nonceLength, blockLength] gcmNonce :=
  shaped_resolveBlock (by decide) nofun

/-- The IV of a key has the bytes of the key. -/
theorem Shaped.ivOfKey {resolve : String → Encoding → Except Error KeyMaterial}
    (h : Shaped role lengths resolve) :
    Shaped .sm4Iv lengths fun text encoding => (resolve text encoding).map ivOfKey where
  role_eq := by
    intro text encoding m hm
    obtain ⟨key, -, rfl⟩ := map_eq_ok_iff.mp hm
    rfl
  length_mem := by
    intro text encoding m hm
    obtain ⟨key, hkey, rfl⟩ := map_eq_ok_iff.mp hm
    have hlength := h.length_mem hkey
    exact hlength
  attained := by
    intro encoding bs hlength
    obtain ⟨text, key, hkey, hbytes⟩ := h.attained encoding bs hlength
    exact ⟨text, key.ivOfKey, map_eq_ok_iff.mpr ⟨key, hkey, rfl⟩, hbytes⟩
  not_malformed_hex text encoding role' cause hm :=
    h.not_malformed_hex text encoding role' cause (map_eq_error_iff.mp hm)

/-! ## 3. Public keys of SM2 -/

/-- How the text of a key of SM2 is read under an encoding. -/
def sourceOf : Encoding → Source
  | .hex => .hex
  | .base64 => .base64

/-- The digits of a public key text spell values, under either encoding. -/
theorem exists_spells_of_digitsOfPublicKey {digits : List Char} {source : Source}
    (h : digitsOfPublicKey text encoding = .ok (digits, source)) :
    ∃ ns, Hex.Spells digits ns := by
  unfold digitsOfPublicKey at h
  split at h
  · simp at h
  split at h
  · -- hexadecimal
    split at h
    · rename_i hform
      obtain ⟨rfl, -⟩ := Prod.mk.inj (Except.ok.inj h)
      exact Hex.exists_spells_of_isHex hform
    · simp at h
  · -- Base64, written as digits
    split at h
    · rename_i bytes hbytes
      obtain ⟨rfl, -⟩ := Prod.mk.inj (Except.ok.inj h)
      exact ⟨_, Hex.spells_encode bytes⟩
    · simp at h

/-- A count of digits that will do is enough for two coordinates, strict or
not. -/
theorem le_length_of_checkPublicKeyLength {digits : List Char} {strict : Bool}
    (h : checkPublicKeyLength digits strict = .ok ()) : publicKeyDigits ≤ digits.length := by
  simp only [checkPublicKeyLength] at h
  split at h
  · simp at h
  split at h
  · simp at h
  · omega

/-- The last digits are always read. -/
theorem publicKeyOfDigits_of_spells {digits : List Char} {ns : List Nat}
    (h : Hex.Spells digits ns) (hlong : publicKeyDigits ≤ digits.length) (source : Source) :
    ∃ bytes, publicKeyOfDigits digits source = .ok ⟨bytes, .sm2PublicKey, source⟩
      ∧ bytes.length = 2 * coordinateLength := by
  have hlast := h.drop (digits.length - publicKeyDigits)
  have hcount : (ns.drop (digits.length - publicKeyDigits)).length = publicKeyDigits := by
    rw [List.length_drop, ← h.length_eq]
    omega
  have hread := Hex.decode_of_spells hlast (by rw [hcount]; decide)
  refine ⟨Hex.pack (ns.drop (digits.length - publicKeyDigits)), ?_, ?_⟩
  · unfold publicKeyOfDigits Encoding.decodeHexStrict
    rw [hread, Except.mapError]
  · rw [Hex.length_pack, hcount]
    decide

/-- When a public key is resolved, and to what. -/
theorem sm2PublicKey_eq_ok_iff {strict : Bool} :
    (sm2PublicKey text encoding strict).result = .ok m
      ↔ ∃ digits source, digitsOfPublicKey text encoding = .ok (digits, source)
        ∧ checkPublicKeyLength digits strict = .ok ()
        ∧ publicKeyOfDigits digits source = .ok m := by
  unfold sm2PublicKey
  rw [Checked.result_bind_eq_ok_iff, Prod.exists]
  simp only [Checked.result_bind_eq_ok_iff, Checked.result_ofExcept, Checked.result_mk]
  constructor
  · rintro ⟨digits, source, hdigits, u, hcount, hm⟩
    exact ⟨digits, source, hdigits, hcount, hm⟩
  · rintro ⟨digits, source, hdigits, hcount, hm⟩
    exact ⟨digits, source, hdigits, (), hcount, hm⟩

/-- Why a public key is refused: for its digits, for their count, or for
the last of them. -/
theorem sm2PublicKey_eq_error_iff {strict : Bool} {error : Error} :
    (sm2PublicKey text encoding strict).result = .error error
      ↔ digitsOfPublicKey text encoding = .error error
        ∨ ∃ digits source, digitsOfPublicKey text encoding = .ok (digits, source)
          ∧ (checkPublicKeyLength digits strict = .error error
            ∨ checkPublicKeyLength digits strict = .ok ()
              ∧ publicKeyOfDigits digits source = .error error) := by
  unfold sm2PublicKey
  rw [Checked.result_bind, bind_eq_error_iff, Prod.exists]
  simp only [Checked.result_bind, bind_eq_error_iff, Checked.result_ofExcept, Checked.result_mk]
  constructor
  · rintro (h | ⟨digits, source, hdigits, h | ⟨u, hcount, h⟩⟩)
    · exact .inl h
    · exact .inr ⟨digits, source, hdigits, .inl h⟩
    · exact .inr ⟨digits, source, hdigits, .inr ⟨hcount, h⟩⟩
  · rintro (h | ⟨digits, source, hdigits, h | ⟨hcount, h⟩⟩)
    · exact .inl h
    · exact .inr ⟨digits, source, hdigits, .inl h⟩
    · exact .inr ⟨digits, source, hdigits, .inr ⟨(), hcount, h⟩⟩

/-- The written text of bytes is their digits, under either encoding. -/
theorem digitsOfPublicKey_encode {bs : Bytes} (hne : bs ≠ []) (encoding : Encoding) :
    digitsOfPublicKey (encoding.encode bs) encoding
      = .ok ((Hex.encode bs).toList, sourceOf encoding) := by
  have hnonempty : encoding.encode bs ≠ "" := fun h =>
    hne ((Encoding.encode_eq_empty_iff encoding).mp h)
  cases encoding with
  | hex =>
    simp only [digitsOfPublicKey, if_neg hnonempty]
    exact if_pos (Hex.isHex_of_toLower hne (Hex.toLower_encode bs))
  | base64 =>
    have hread : Encoding.decodeBase64 (Encoding.encode .base64 bs) = .ok bs :=
      Encoding.decode_encode .base64 bs
    simp only [digitsOfPublicKey, if_neg hnonempty, hread]
    rfl

/-- Digits that pass the check of their count are always read, to two
coordinates. -/
theorem publicKeyOfDigits_of_checked {digits : List Char} {source : Source} {strict : Bool}
    (hdigits : digitsOfPublicKey text encoding = .ok (digits, source))
    (hcount : checkPublicKeyLength digits strict = .ok ()) :
    ∃ bytes, publicKeyOfDigits digits source = .ok ⟨bytes, .sm2PublicKey, source⟩
      ∧ bytes.length = 2 * coordinateLength := by
  obtain ⟨ns, hns⟩ := exists_spells_of_digitsOfPublicKey hdigits
  exact publicKeyOfDigits_of_spells hns (le_length_of_checkPublicKeyLength hcount) source

/-- What a public key text is resolved to. -/
theorem shape_of_sm2PublicKey {strict : Bool}
    (h : (sm2PublicKey text encoding strict).result = .ok m) :
    m.role = .sm2PublicKey ∧ m.bytes.length = 2 * coordinateLength := by
  obtain ⟨digits, source, hdigits, hcount, hm⟩ := sm2PublicKey_eq_ok_iff.mp h
  obtain ⟨bytes, hbytes, hlength⟩ := publicKeyOfDigits_of_checked hdigits hcount
  obtain rfl := Except.ok.inj (hbytes.symm.trans hm)
  exact ⟨rfl, hlength⟩

theorem shaped_sm2PublicKey (strict : Bool) :
    Shaped .sm2PublicKey [2 * coordinateLength] fun text encoding =>
      (sm2PublicKey text encoding strict).result where
  role_eq h := (shape_of_sm2PublicKey h).left
  length_mem h := List.mem_singleton.mpr (shape_of_sm2PublicKey h).right
  attained := by
    intro encoding bs hmem
    have hlength := List.mem_singleton.mp hmem
    have hne : bs ≠ [] := List.ne_nil_of_length_eq_add_one hlength
    have hcount : (Hex.encode bs).toList.length = publicKeyDigits := by
      rw [Hex.length_toList_encode, hlength]
      decide
    refine ⟨_, ⟨bs, .sm2PublicKey, sourceOf encoding⟩, sm2PublicKey_eq_ok_iff.mpr
      ⟨_, _, digitsOfPublicKey_encode hne encoding, ?_, ?_⟩, rfl⟩
    · simp only [checkPublicKeyLength, hcount]
      simp
    · unfold publicKeyOfDigits
      rw [hcount, Nat.sub_self, List.drop_zero, String.ofList_toList, Hex.decodeHexStrict_encode]
  not_malformed_hex := by
    intro text encoding role' cause h
    rcases sm2PublicKey_eq_error_iff.mp h with h | ⟨digits, source, hdigits, h | ⟨hcount, h⟩⟩
    · unfold digitsOfPublicKey at h
      split at h
      · simp at h
      split at h
      · split at h <;> simp at h
      · split at h <;> simp at h
    · simp only [checkPublicKeyLength] at h
      split at h
      · simp at h
      split at h <;> simp at h
    · obtain ⟨bytes, hbytes, -⟩ := publicKeyOfDigits_of_checked hdigits hcount
      rw [hbytes] at h
      simp at h

/-! ## 4. Private keys of SM2 -/

/-- Bytes are their significant ones behind as many zeros as were left
out. -/
theorem zeros_append_dropWhile (bs : Bytes) :
    List.replicate (bs.length - (bs.dropWhile (· = 0)).length) 0 ++ bs.dropWhile (· = 0)
      = bs := by
  have hsplit := List.takeWhile_append_dropWhile (p := (· = 0)) (l := bs)
  have hcount := congrArg List.length hsplit
  rw [List.length_append] at hcount
  have hzeros : bs.takeWhile (· = 0)
      = List.replicate (bs.length - (bs.dropWhile (· = 0)).length) 0 := by
    refine List.eq_replicate_iff.mpr ⟨by omega, ?_⟩
    intro b hb
    simpa using List.all_eq_true.mp List.all_takeWhile b hb
  rw [← hzeros, hsplit]

/-- When a private key is resolved, and to what. -/
theorem sm2PrivateKey_eq_ok_iff :
    sm2PrivateKey text encoding = .ok m
      ↔ ∃ raw source, bytesOfPrivateKey text encoding = .ok (raw, source)
        ∧ (raw.dropWhile (· = 0)).length ≤ coordinateLength
        ∧ m = ⟨List.replicate (coordinateLength - (raw.dropWhile (· = 0)).length) 0
            ++ raw.dropWhile (· = 0), .sm2PrivateKey, source⟩ := by
  unfold sm2PrivateKey
  rw [bind_eq_ok_iff, Prod.exists]
  refine exists_congr fun raw => exists_congr fun source => and_congr_right fun _ => ?_
  simp only
  split
  · rename_i hlong
    constructor
    · intro h
      simp [throw, throwThe, MonadExceptOf.throw, bind, Except.bind] at h
    · rintro ⟨hshort, -⟩
      omega
  · rename_i hshort
    constructor
    · intro h
      exact ⟨Nat.not_lt.mp hshort, (Except.ok.inj h).symm⟩
    · rintro ⟨-, rfl⟩
      rfl

/-- A text of digits alone is read, with a zero in front if their count is
odd, as bytes of the number that they spell. -/
theorem exists_decodeHexStrict_even (h : Hex.isHex text = true) :
    ∃ bytes, Encoding.decodeHexStrict
        (if text.length % 2 = 1 then "0" ++ text else text) = .ok bytes
      ∧ Bytes.toNat bytes = Hex.number text.toList := by
  obtain ⟨ns, hns⟩ := Hex.exists_spells_of_isHex h
  have hlength : ns.length = text.length := by
    rw [← hns.length_eq, String.length_toList]
  split
  · rename_i hodd
    have hpadded : Hex.Spells ("0" ++ text).toList (0 :: ns) := by
      rw [String.toList_append]
      exact hns.zero_cons
    have heven : (0 :: ns).length % 2 = 0 := by
      rw [List.length_cons]
      omega
    refine ⟨_, Encoding.decodeHexStrict_of_spells hpadded heven, ?_⟩
    rw [Hex.toNat_pack hpadded heven, String.toList_append]
    exact Hex.number_zero_cons text.toList
  · have heven : ns.length % 2 = 0 := by omega
    exact ⟨_, Encoding.decodeHexStrict_of_spells hns heven, Hex.toNat_pack hns heven⟩

/-- The written text of bytes is read as the bytes for a private key. -/
theorem bytesOfPrivateKey_encode {bs : Bytes} (hne : bs ≠ []) (encoding : Encoding) :
    bytesOfPrivateKey (encoding.encode bs) encoding = .ok (bs, sourceOf encoding) := by
  have hnonempty : encoding.encode bs ≠ "" := fun h =>
    hne ((Encoding.encode_eq_empty_iff encoding).mp h)
  cases encoding with
  | hex =>
    have hform : Hex.isHex (Encoding.encode .hex bs) = true :=
      Hex.isHex_of_toLower hne (Hex.toLower_encode bs)
    have heven : ¬ (Encoding.encode .hex bs).length % 2 = 1 := by
      rw [Encoding.encode, ← String.length_toList, Hex.length_toList_encode]
      omega
    have hread : Encoding.decodeHexStrict (Encoding.encode .hex bs) = .ok bs :=
      Hex.decodeHexStrict_encode bs
    simp only [bytesOfPrivateKey, if_neg hnonempty, if_pos hform, if_neg heven, hread]
    rfl
  | base64 =>
    have hread : Encoding.decodeBase64 (Encoding.encode .base64 bs) = .ok bs :=
      Encoding.decode_encode .base64 bs
    simp only [bytesOfPrivateKey, if_neg hnonempty, hread]
    rfl

theorem shaped_sm2PrivateKey :
    Shaped .sm2PrivateKey [coordinateLength] sm2PrivateKey where
  role_eq := by
    intro text encoding m h
    obtain ⟨raw, source, -, -, rfl⟩ := sm2PrivateKey_eq_ok_iff.mp h
    rfl
  length_mem := by
    intro text encoding m h
    obtain ⟨raw, source, -, hshort, rfl⟩ := sm2PrivateKey_eq_ok_iff.mp h
    rw [List.mem_singleton, List.length_append, List.length_replicate]
    omega
  attained := by
    intro encoding bs hmem
    have hlength := List.mem_singleton.mp hmem
    have hne : bs ≠ [] := List.ne_nil_of_length_eq_add_one hlength
    have hshort : (bs.dropWhile (· = 0)).length ≤ coordinateLength :=
      hlength ▸ (List.dropWhile_suffix _).length_le
    refine ⟨_, _, sm2PrivateKey_eq_ok_iff.mpr
      ⟨bs, _, bytesOfPrivateKey_encode hne encoding, hshort, rfl⟩, ?_⟩
    rw [← hlength]
    exact zeros_append_dropWhile bs
  not_malformed_hex := by
    intro text encoding role' cause h
    unfold sm2PrivateKey at h
    rcases bind_eq_error_iff.mp h with h | ⟨⟨raw, source⟩, -, h⟩
    · unfold bytesOfPrivateKey at h
      split at h
      · simp at h
      split at h
      · split at h
        · rename_i hform
          obtain ⟨bytes, hbytes, -⟩ := exists_decodeHexStrict_even hform
          simp [hbytes] at h
        · simp at h
      · split at h <;> simp at h
    · simp only at h
      split at h <;> simp [throw, throwThe, MonadExceptOf.throw, bind, Except.bind, pure,
        Except.pure] at h

/-! ## 5. Those who take key material -/

/-- Public key material of the right shape holds an uncompressed point. -/
theorem point?_of_shape (hrole : m.role = .sm2PublicKey)
    (hlength : m.bytes.length = 2 * coordinateLength) :
    m.point? = some (0x04 :: m.bytes) := by
  simp [point?, coordinates?, hrole, hlength]

end KeyMaterial

/-- Material of sixteen bytes is a key of SM4. -/
theorem Sm4.Key.ofMaterial_of_length {m : KeyMaterial} (h : m.bytes.length = size) :
    ofMaterial m = .ok ⟨m.bytes⟩ := by
  rw [ofMaterial, ofBytes, if_pos h]

/-- Material of the length of a nonce is an IV of SM4. -/
theorem Sm4.Iv.ofMaterial_of_length {m : KeyMaterial} (h : m.bytes.length ∈ nonceLengths) :
    ofMaterial m = .ok ⟨m.bytes⟩ := by
  rw [ofMaterial, nonce, if_pos h]

/-- The three ways to an IV give material of the length of a nonce. -/
theorem KeyMaterial.mem_nonceLengths {text : String} {encoding : Encoding} {m : KeyMaterial}
    (h : sm4Iv text encoding = .ok m ∨ gcmNonce text encoding = .ok m
      ∨ (sm4Key text encoding).map ivOfKey = .ok m) :
    m.bytes.length ∈ Sm4.Iv.nonceLengths := by
  have hblock : ∀ {n}, n ∈ [blockLength] → n ∈ Sm4.Iv.nonceLengths := by decide
  rcases h with h | h | h
  · exact hblock (shaped_sm4Iv.length_mem h)
  · exact shaped_gcmNonce.length_mem h
  · exact hblock (shaped_sm4Key.ivOfKey.length_mem h)

/-! ## 6. Shapes and those who rely on them -/

open KeyMaterial

/-- Resolved material has the role and exactly the lengths that it is
resolved for, and those who take it accept all of it: public keys for their
points of 65 bytes, SM4 keys for keys, and IVs, nonces and the IVs of keys
for IVs. -/
theorem keyMaterial_shaped (strict : Bool) :
    Shaped .sm4Key [16] sm4Key ∧
    Shaped .sm4Iv [16] sm4Iv ∧
    Shaped .sm4Iv [12, 16] gcmNonce ∧
    Shaped .sm2PublicKey [64] (fun text encoding => (sm2PublicKey text encoding strict).result) ∧
    Shaped .sm2PrivateKey [32] sm2PrivateKey ∧
    Shaped .sm4Iv [16] (fun text encoding => (sm4Key text encoding).map ivOfKey) ∧
    (∀ text encoding m, (sm2PublicKey text encoding strict).result = .ok m →
      ∃ point, m.point? = some point ∧ point.length = 65) ∧
    (∀ text encoding m, sm4Key text encoding = .ok m →
      Sm4.Key.ofMaterial m = .ok ⟨m.bytes⟩) ∧
    (∀ text encoding m,
      sm4Iv text encoding = .ok m ∨ gcmNonce text encoding = .ok m
        ∨ (sm4Key text encoding).map ivOfKey = .ok m →
      Sm4.Iv.ofMaterial m = .ok ⟨m.bytes⟩) := by
  refine ⟨shaped_sm4Key, shaped_sm4Iv, shaped_gcmNonce, shaped_sm2PublicKey strict,
    shaped_sm2PrivateKey, shaped_sm4Key.ivOfKey, ?_, ?_, ?_⟩
  · intro text encoding m hm
    have hlength := List.mem_singleton.mp ((shaped_sm2PublicKey strict).length_mem hm)
    refine ⟨_, point?_of_shape ((shaped_sm2PublicKey strict).role_eq hm) hlength, ?_⟩
    rw [List.length_cons, hlength]
    decide
  · intro text encoding m hm
    exact Sm4.Key.ofMaterial_of_length (List.mem_singleton.mp (shaped_sm4Key.length_mem hm))
  · intro text encoding m hm
    exact Sm4.Iv.ofMaterial_of_length (mem_nonceLengths hm)

end ColumnMasking
