/-
ColumnMasking.Proofs.Sm2.PrivateKeyTexts — the text of an SM2 private key
denotes an unsigned number.

However the text is written, the key material depends on the number alone
(`sm2PrivateKey_of_bytes`): a number below `2 ^ 256` is given in 32 bytes,
and a larger one is refused for the count of its bytes
(`privateKeyMaterial`). The bytes that are read have the number that the
digits spell, also where their count is odd (`bytesOfPrivateKey_of_digits`),
and no text is read that denotes no number (`denotesNumber_iff`). So zeros in
front, letter case and the choice of encoding make no difference. Material is
accepted for a key exactly when the number is a scalar
(`Sm2.PrivateKey.ofMaterial_privateKeyMaterial`).
-/
import ColumnMasking.Proofs.KeyShapes
import ColumnMasking.Proofs.Sm2.KeyForms
import ColumnMasking.Proofs.Text.DigitNumbers

namespace ColumnMasking

namespace KeyMaterial

variable {text : String} {encoding : Encoding}

/-! ## 1. Material of a number -/

/-- The private key material of a number. -/
def privateKeyMaterial (n : Nat) (source : Source) : Except Error KeyMaterial :=
  if n < 2 ^ 256 then .ok ⟨Bytes.ofNat coordinateLength n, .sm2PrivateKey, source⟩
  else .error (.privateKeyTooLong (Nat.digits 256 n).length)

/-- A number fits when its significant bytes do. -/
theorem length_dropWhile_zero_le_iff (bs : Bytes) :
    (bs.dropWhile (· = 0)).length ≤ coordinateLength ↔ Bytes.toNat bs < 2 ^ 256 := by
  have hbytes : (2 : Nat) ^ 256 = 256 ^ coordinateLength := by decide
  rw [Bytes.length_dropWhile_zero, Nat.digits_length_le_iff (by decide), hbytes]

/-- What is resolved depends on the number of the bytes alone. -/
theorem sm2PrivateKey_of_bytes {raw : Bytes} {source : Source}
    (h : bytesOfPrivateKey text encoding = .ok (raw, source)) :
    sm2PrivateKey text encoding = privateKeyMaterial (Bytes.toNat raw) source := by
  have hfits := length_dropWhile_zero_le_iff raw
  unfold privateKeyMaterial
  split
  · -- the significant bytes behind zeros are the bytes of the number
    rename_i hsmall
    have hshort := hfits.mpr hsmall
    refine sm2PrivateKey_eq_ok_iff.mpr ⟨raw, source, h, hshort, ?_⟩
    have hlength : (List.replicate (coordinateLength - (raw.dropWhile (· = 0)).length) 0
        ++ raw.dropWhile (· = 0)).length = coordinateLength := by
      rw [List.length_append, List.length_replicate]
      omega
    have hbytes := Bytes.ofNat_toNat_of_length hlength
    rw [Bytes.toNat_replicate_append, Bytes.toNat_dropWhile_zero] at hbytes
    rw [hbytes]
  · rename_i hlarge
    have hlong := Nat.not_le.mp (mt hfits.mp hlarge)
    unfold sm2PrivateKey
    refine bind_eq_error_iff.mpr (.inr ⟨(raw, source), h, ?_⟩)
    rw [← Bytes.length_dropWhile_zero]
    exact if_pos hlong

/-! ## 2. Digits and Base64 -/

/-- The bytes that digits are read as have the number that the digits
spell. -/
theorem bytesOfPrivateKey_of_digits (hne : text ≠ "")
    (hdigits : ∀ c ∈ text.toList, Hex.IsDigit c) :
    ∃ raw, bytesOfPrivateKey text .hex = .ok (raw, .hex)
      ∧ Bytes.toNat raw = Hex.number text.toList := by
  have hform : Hex.isHex text = true := Hex.isHex_iff.mpr ⟨hne, hdigits⟩
  obtain ⟨raw, hraw, hnumber⟩ := exists_decodeHexStrict_even hform
  exact ⟨raw, by simp only [bytesOfPrivateKey, if_neg hne, if_pos hform, hraw], hnumber⟩

/-- A text of digits alone is resolved to the number that they spell. -/
theorem sm2PrivateKey_of_digits (hne : text ≠ "")
    (hdigits : ∀ c ∈ text.toList, Hex.IsDigit c) :
    sm2PrivateKey text .hex = privateKeyMaterial (Hex.number text.toList) .hex := by
  obtain ⟨raw, hraw, hnumber⟩ := bytesOfPrivateKey_of_digits hne hdigits
  rw [sm2PrivateKey_of_bytes hraw, hnumber]

/-- A text with another character is refused. -/
theorem sm2PrivateKey_of_not_digit {c : Char} (hc : c ∈ text.toList) (hdigit : ¬ Hex.IsDigit c) :
    sm2PrivateKey text .hex = .error (.notHex .sm2PrivateKey) := by
  have hne : text ≠ "" := by
    rintro rfl
    exact absurd hc (by simp)
  have hform : ¬ Hex.isHex text = true := fun h =>
    hdigit ((Hex.isHex_iff.mp h).right c hc)
  unfold sm2PrivateKey
  refine bind_eq_error_iff.mpr (.inl ?_)
  simp only [bytesOfPrivateKey, if_neg hne, if_neg hform]

/-- The written text of bytes is resolved to the number of the bytes, under
either encoding. -/
theorem sm2PrivateKey_of_encode {bs : Bytes} (hne : bs ≠ []) (encoding : Encoding) :
    sm2PrivateKey (encoding.encode bs) encoding
      = privateKeyMaterial (Bytes.toNat bs) (sourceOf encoding) :=
  sm2PrivateKey_of_bytes (bytesOfPrivateKey_encode hne encoding)

/-- The Base64 text and the digits of the same bytes are resolved alike; the
material keeps which of them it was read from. -/
theorem sm2PrivateKey_base64_eq_hex (bs : Bytes) :
    sm2PrivateKey (Base64.encode bs) .base64
      = (sm2PrivateKey (Hex.encode bs) .hex).map ({ · with source := .base64 }) := by
  by_cases hnil : bs = []
  · subst hnil
    rfl
  · have hbase64 := sm2PrivateKey_of_encode hnil .base64
    have hhex := sm2PrivateKey_of_encode hnil .hex
    simp only [Encoding.encode] at hbase64 hhex
    rw [hbase64, hhex]
    unfold privateKeyMaterial
    split <;> rfl

/-- A private key text in Base64 is the written text of its bytes. -/
theorem eq_encode_of_bytesOfPrivateKey {raw : Bytes} {source : Source}
    (h : bytesOfPrivateKey text .base64 = .ok (raw, source)) : text = Base64.encode raw := by
  simp only [bytesOfPrivateKey] at h
  split at h
  · simp at h
  · split at h
    · rename_i bytes hbytes
      obtain ⟨rfl, -⟩ := Prod.mk.inj (Except.ok.inj h)
      exact Encoding.decodeBase64_eq_ok_iff.mp hbytes
    · simp at h

/-- The text denotes the number: its digits spell it, or they are the Base64
text of bytes that do. -/
def DenotesNumber (text : String) (encoding : Encoding) (n : Nat) : Prop :=
  match encoding with
  | .hex => text ≠ "" ∧ (∀ c ∈ text.toList, Hex.IsDigit c) ∧ Hex.number text.toList = n
  | .base64 => ∃ bs : Bytes, bs ≠ [] ∧ text = Base64.encode bs ∧ Bytes.toNat bs = n

/-- A text denotes the number of the bytes that are read of it, and none if it
is not read. -/
theorem denotesNumber_iff {n : Nat} :
    DenotesNumber text encoding n
      ↔ ∃ raw source, bytesOfPrivateKey text encoding = .ok (raw, source)
        ∧ Bytes.toNat raw = n := by
  cases encoding with
  | hex =>
    constructor
    · rintro ⟨hne, hdigits, rfl⟩
      obtain ⟨raw, hraw, hnumber⟩ := bytesOfPrivateKey_of_digits hne hdigits
      exact ⟨raw, .hex, hraw, hnumber⟩
    · rintro ⟨raw, source, hraw, rfl⟩
      have hform : Hex.isHex text = true := by
        by_contra hform
        simp only [bytesOfPrivateKey, if_neg hform] at hraw
        split at hraw <;> simp at hraw
      obtain ⟨hne, hdigits⟩ := Hex.isHex_iff.mp hform
      obtain ⟨raw', hraw', hnumber⟩ := bytesOfPrivateKey_of_digits hne hdigits
      obtain ⟨rfl, -⟩ := Prod.mk.inj (Except.ok.inj (hraw.symm.trans hraw'))
      exact ⟨hne, hdigits, hnumber.symm⟩
  | base64 =>
    constructor
    · rintro ⟨bs, hne, rfl, rfl⟩
      exact ⟨bs, _, bytesOfPrivateKey_encode hne .base64, rfl⟩
    · rintro ⟨raw, source, hraw, hnumber⟩
      have htext := eq_encode_of_bytesOfPrivateKey hraw
      refine ⟨raw, ?_, htext, hnumber⟩
      rintro rfl
      have hempty : bytesOfPrivateKey (Base64.encode []) .base64
          = .error (.empty .sm2PrivateKey) := rfl
      rw [htext, hempty] at hraw
      simp at hraw

end KeyMaterial

/-! ## 3. Accepted numbers -/

/-- Private key material is accepted when its bytes spell a scalar. -/
theorem Sm2.PrivateKey.exists_ofMaterial_iff {m : KeyMaterial} (hrole : m.role = .sm2PrivateKey) :
    (∃ key, ofMaterial m = .ok key) ↔ ∃ d, Scalar.ofBytes? m.bytes = some d := by
  unfold ofMaterial
  rw [if_neg (not_not_intro hrole)]
  cases Scalar.ofBytes? m.bytes with
  | none => simp
  | some d => simp

/-- The material of a number is accepted for the key of the scalar that has
the number. -/
theorem Sm2.PrivateKey.ofMaterial_eq_ok_iff {n : Nat} {source : KeyMaterial.Source}
    {m : KeyMaterial} (h : KeyMaterial.privateKeyMaterial n source = .ok m) {key : PrivateKey} :
    ofMaterial m = .ok key ↔ ∃ d : Scalar, d.value = n ∧ key = ofScalar d := by
  unfold KeyMaterial.privateKeyMaterial at h
  split at h
  · rename_i hsmall
    obtain rfl := Except.ok.inj h
    have hread : Scalar.ofBytes? (Bytes.ofNat KeyMaterial.coordinateLength n)
        = Scalar.ofNat? n := by
      rw [Scalar.ofBytes?, if_pos (Bytes.length_ofNat _ _), Bytes.toNat_ofNat_of_lt hsmall]
    constructor
    · intro hkey
      simp only [ofMaterial, if_neg (not_not_intro rfl), hread] at hkey
      split at hkey
      · simp at hkey
      · rename_i d hd
        obtain rfl := Except.ok.inj hkey
        obtain rfl := Scalar.ofNat?_eq_some hd
        exact ⟨d, rfl, rfl⟩
    · rintro ⟨d, rfl, rfl⟩
      exact ofMaterial_toBytes d source
  · simp at h

/-- The material of a number is accepted when the number is a scalar. -/
theorem Sm2.PrivateKey.ofMaterial_privateKeyMaterial {n : Nat} {source : KeyMaterial.Source}
    {m : KeyMaterial} (h : KeyMaterial.privateKeyMaterial n source = .ok m) :
    (∃ key, ofMaterial m = .ok key) ↔ 1 ≤ n ∧ n ≤ order - 1 := by
  have hpos : 0 < order := by decide
  simp only [ofMaterial_eq_ok_iff h]
  constructor
  · rintro ⟨key, d, rfl, -⟩
    have hlt := d.lt_order
    exact ⟨d.pos, by omega⟩
  · intro hrange
    exact ⟨_, ⟨n, hrange.left, by omega⟩, rfl, rfl⟩

/-! ## 4. Private key texts -/

open KeyMaterial

/-- A private key text denotes an unsigned number. Digits alone spell it,
in any count and letter case and with any zeros in front, and every other
character is refused; a number below `2 ^ 256` is resolved to its 32 bytes,
and a larger one refused for the count of its bytes; the material is
accepted for a key exactly when the number is between one and the order less
one. The Base64 text of bytes is resolved like their digits, to the number
of the bytes. -/
theorem sm2PrivateKey_denotes_number :
    (∀ text : String, text ≠ "" →
      ((∃ c ∈ text.toList, ¬ Hex.IsDigit c) →
        sm2PrivateKey text .hex = .error (.notHex .sm2PrivateKey)) ∧
      ((∀ c ∈ text.toList, Hex.IsDigit c) →
        (Hex.number text.toList < 2 ^ 256 →
          sm2PrivateKey text .hex
            = .ok ⟨Bytes.ofNat 32 (Hex.number text.toList), .sm2PrivateKey, .hex⟩) ∧
        (2 ^ 256 ≤ Hex.number text.toList →
          sm2PrivateKey text .hex
            = .error (.privateKeyTooLong (Nat.digits 256 (Hex.number text.toList)).length)) ∧
        (∀ m, sm2PrivateKey text .hex = .ok m →
          ((∃ key, Sm2.PrivateKey.ofMaterial m = .ok key)
            ↔ 1 ≤ Hex.number text.toList ∧ Hex.number text.toList ≤ Sm2.order - 1)))) ∧
    (∀ bs : Bytes,
      sm2PrivateKey (Base64.encode bs) .base64
        = (sm2PrivateKey (Hex.encode bs) .hex).map ({ · with source := .base64 }) ∧
      (∀ m, sm2PrivateKey (Base64.encode bs) .base64 = .ok m →
        ((∃ key, Sm2.PrivateKey.ofMaterial m = .ok key)
          ↔ 1 ≤ Bytes.toNat bs ∧ Bytes.toNat bs ≤ Sm2.order - 1))) := by
  constructor
  · intro text hne
    refine ⟨fun ⟨c, hc, hdigit⟩ => sm2PrivateKey_of_not_digit hc hdigit, ?_⟩
    intro hdigits
    have hmaterial := sm2PrivateKey_of_digits hne hdigits
    refine ⟨?_, ?_, ?_⟩
    · intro hsmall
      rw [hmaterial, privateKeyMaterial, if_pos hsmall]
      rfl
    · intro hlarge
      rw [hmaterial, privateKeyMaterial, if_neg (Nat.not_lt.mpr hlarge)]
    · intro m hm
      exact Sm2.PrivateKey.ofMaterial_privateKeyMaterial (hmaterial.symm.trans hm)
  · intro bs
    refine ⟨sm2PrivateKey_base64_eq_hex bs, ?_⟩
    intro m hm
    have hne : bs ≠ [] := by
      rintro rfl
      exact absurd hm nofun
    have hmaterial := sm2PrivateKey_of_encode hne .base64
    exact Sm2.PrivateKey.ofMaterial_privateKeyMaterial (hmaterial.symm.trans hm)

/-- Five digits with zeros in front and in both letter cases; and the least
number that does not fit, for its 33 bytes. -/
theorem sm2PrivateKey_denotes_number_bounds :
    sm2PrivateKey "00AbC" .hex = .ok ⟨Bytes.ofNat 32 0xABC, .sm2PrivateKey, .hex⟩ ∧
    sm2PrivateKey ("1" ++ String.ofList (List.replicate 64 '0')) .hex
      = .error (.privateKeyTooLong 33) := by
  constructor
  · have hform : Hex.isHex "00AbC" = true := by decide
    obtain ⟨hne, hdigits⟩ := Hex.isHex_iff.mp hform
    exact ((sm2PrivateKey_denotes_number.left "00AbC" hne).right hdigits).left (by decide)
  · generalize htext : "1" ++ String.ofList (List.replicate 64 '0') = text
    have hform : Hex.isHex text = true := by
      rw [← htext]
      decide +kernel
    have hnumber : Hex.number text.toList = 2 ^ 256 := by
      rw [← htext]
      decide +kernel
    have hbytes : (Nat.digits 256 (2 ^ 256)).length = 33 := by decide +kernel
    obtain ⟨hne, hdigits⟩ := Hex.isHex_iff.mp hform
    have hlarge := ((sm2PrivateKey_denotes_number.left text hne).right hdigits).right.left
    rw [hnumber, hbytes] at hlarge
    exact hlarge (le_refl _)

end ColumnMasking
