/-
ColumnMasking.Proofs.Sm2.PublicKeyTexts — which texts are SM2 public keys,
and what is read of them.

A text is read in two steps: first its digits, then the last 128 of them. So
all conditions are about digits. There have to be enough of them
(`checkPublicKeyLength_lenient_iff`); the strict reading leaves out nothing
but a leading `04` (`checkPublicKeyLength_strict_iff`), so what it accepts
the lenient reading accepts too, and reads the same
(`sm2PublicKey_lenient_of_strict`). Base64 text is written as digits first
and then treated like them (`sm2PublicKey_base64_eq_hex`).
-/
import ColumnMasking.Proofs.KeyShapes
import ColumnMasking.Sm2.Sec1

namespace ColumnMasking.KeyMaterial

variable {text : String} {encoding : Encoding} {digits : List Char} {source : Source}
  {strict : Bool} {m : KeyMaterial}

/-! ## 1. The count of digits -/

/-- The digits of a point in its usual form start with `04`. -/
theorem isTaggedPoint_iff :
    isTaggedPoint digits = true ↔ digits.length = publicKeyDigits + 2 ∧ ['0', '4'] <+: digits := by
  rw [isTaggedPoint, Bool.and_eq_true, decide_eq_true_iff, decide_eq_true_iff,
    List.prefix_iff_eq_take]
  exact and_congr_right fun _ => eq_comm

/-- For the lenient reading there are enough digits for two coordinates. -/
theorem checkPublicKeyLength_lenient_iff :
    checkPublicKeyLength digits false = .ok () ↔ publicKeyDigits ≤ digits.length := by
  by_cases hshort : digits.length < publicKeyDigits
  · simp [checkPublicKeyLength, hshort]
  · simp [checkPublicKeyLength, hshort, Nat.not_lt.mp hshort]

/-- For the strict reading there are as many as that, or two more if they
are a leading `04`. -/
theorem checkPublicKeyLength_strict_iff :
    checkPublicKeyLength digits true = .ok ()
      ↔ digits.length = publicKeyDigits
        ∨ digits.length = publicKeyDigits + 2 ∧ ['0', '4'] <+: digits := by
  rw [← isTaggedPoint_iff]
  by_cases hform : digits.length = publicKeyDigits ∨ isTaggedPoint digits = true
  · have hlong : ¬ digits.length < publicKeyDigits := by
      rcases hform with hlength | htagged
      · omega
      · have hlength := (isTaggedPoint_iff.mp htagged).left
        omega
    simp [checkPublicKeyLength, hform, hlong]
  · simp [checkPublicKeyLength, hform]

/-- A count that will do strictly will do leniently. -/
theorem checkPublicKeyLength_lenient_of_strict (h : checkPublicKeyLength digits true = .ok ()) :
    checkPublicKeyLength digits false = .ok () :=
  checkPublicKeyLength_lenient_iff.mpr (le_length_of_checkPublicKeyLength h)

/-! ## 2. Digits -/

/-- A text has digits when it consists of them. -/
theorem digitsOfPublicKey_hex_iff :
    digitsOfPublicKey text .hex = .ok (digits, source)
      ↔ (text ≠ "" ∧ ∀ c ∈ text.toList, Hex.IsDigit c) ∧ digits = text.toList ∧ source = .hex := by
  rw [← Hex.isHex_iff]
  by_cases hnil : text = ""
  · subst hnil
    simp [digitsOfPublicKey, Hex.isHex]
  by_cases hform : Hex.isHex text = true
  · simp [digitsOfPublicKey, hnil, hform, eq_comm]
  · simp [digitsOfPublicKey, hnil, hform]

/-- A Base64 text has the digits of its bytes. -/
theorem digitsOfPublicKey_base64_iff :
    digitsOfPublicKey text .base64 = .ok (digits, source)
      ↔ (text ≠ "" ∧ ∃ bytes, text = Base64.encode bytes ∧ digits = (Hex.encode bytes).toList)
        ∧ source = .base64 := by
  constructor
  · intro h
    unfold digitsOfPublicKey at h
    split at h
    · cases h
    rename_i hne
    cases hread : Encoding.decodeBase64 text with
    | error cause =>
      simp only [hread] at h
      cases h
    | ok bytes =>
      simp only [hread] at h
      obtain ⟨rfl, rfl⟩ := Prod.mk.inj (Except.ok.inj h)
      have htext := Encoding.decodeBase64_eq_ok_iff.mp hread
      exact ⟨⟨hne, bytes, htext, rfl⟩, rfl⟩
  · rintro ⟨⟨hne, bytes, rfl, rfl⟩, rfl⟩
    exact digitsOfPublicKey_encode
      (fun h => hne ((Encoding.encode_eq_empty_iff .base64).mpr h)) .base64

/-- Of a text of digits alone the count of digits decides. -/
theorem exists_sm2PublicKey_hex_iff :
    (∃ m, (sm2PublicKey text .hex strict).result = .ok m)
      ↔ (∀ c ∈ text.toList, Hex.IsDigit c)
        ∧ checkPublicKeyLength text.toList strict = .ok () := by
  constructor
  · rintro ⟨m, hm⟩
    obtain ⟨digits, source, hdigits, hcount, -⟩ := sm2PublicKey_eq_ok_iff.mp hm
    obtain ⟨⟨-, hall⟩, rfl, -⟩ := digitsOfPublicKey_hex_iff.mp hdigits
    exact ⟨hall, hcount⟩
  · rintro ⟨hall, hcount⟩
    have hlong := le_length_of_checkPublicKeyLength hcount
    have hne : text ≠ "" := by
      rintro rfl
      exact absurd hlong (by decide)
    have hspells := Hex.spells_iff.mpr ⟨hall, rfl⟩
    obtain ⟨bytes, hbytes, -⟩ := publicKeyOfDigits_of_spells hspells hlong .hex
    exact ⟨_, sm2PublicKey_eq_ok_iff.mpr
      ⟨_, _, digitsOfPublicKey_hex_iff.mpr ⟨⟨hne, hall⟩, rfl, rfl⟩, hcount, hbytes⟩⟩

/-- What is read are the last digits. -/
theorem decode_rtake_of_sm2PublicKey (h : (sm2PublicKey text .hex strict).result = .ok m) :
    m.role = .sm2PublicKey ∧ m.source = .hex
      ∧ Hex.decode (String.ofList (text.toList.rtake publicKeyDigits)) = .ok m.bytes := by
  obtain ⟨digits, source, hdigits, -, hm⟩ := sm2PublicKey_eq_ok_iff.mp h
  obtain ⟨-, rfl, rfl⟩ := digitsOfPublicKey_hex_iff.mp hdigits
  unfold publicKeyOfDigits at hm
  split at hm
  · rename_i bytes hread
    obtain rfl := Except.ok.inj hm
    exact ⟨rfl, rfl, mapError_eq_ok_iff.mp hread⟩
  · exact absurd hm nofun

/-- What is accepted strictly is accepted leniently, and read the same. -/
theorem sm2PublicKey_lenient_of_strict (h : (sm2PublicKey text encoding true).result = .ok m) :
    (sm2PublicKey text encoding false).result = .ok m := by
  obtain ⟨digits, source, hdigits, hcount, hm⟩ := sm2PublicKey_eq_ok_iff.mp h
  exact sm2PublicKey_eq_ok_iff.mpr
    ⟨digits, source, hdigits, checkPublicKeyLength_lenient_of_strict hcount, hm⟩

/-! ## 3. Base64 -/

/-- The result on a text depends on its digits alone. -/
theorem result_sm2PublicKey_of_digits
    (h : digitsOfPublicKey text encoding = .ok (digits, source)) (strict : Bool) :
    (sm2PublicKey text encoding strict).result
      = (checkPublicKeyLength digits strict >>= fun _ => publicKeyOfDigits digits source) := by
  unfold sm2PublicKey
  rw [h, Checked.result_bind]
  simp only [Checked.result_ofExcept, Checked.result_bind, Checked.result_mk]
  rfl

/-- The last digits are read the same from either text. -/
theorem publicKeyOfDigits_base64_eq_hex :
    publicKeyOfDigits digits .base64
      = (publicKeyOfDigits digits .hex).map ({ · with source := .base64 }) := by
  unfold publicKeyOfDigits
  split <;> rfl

/-- The Base64 text and the digits of the same bytes are resolved alike; the
material keeps which of them it was read from. -/
theorem sm2PublicKey_base64_eq_hex (bs : Bytes) (strict : Bool) :
    (sm2PublicKey (Base64.encode bs) .base64 strict).result
      = (sm2PublicKey (Hex.encode bs) .hex strict).result.map ({ · with source := .base64 }) := by
  by_cases hnil : bs = []
  · subst hnil
    rfl
  · have hbase64 := result_sm2PublicKey_of_digits (digitsOfPublicKey_encode hnil .base64) strict
    have hhex := result_sm2PublicKey_of_digits (digitsOfPublicKey_encode hnil .hex) strict
    simp only [Encoding.encode] at hbase64 hhex
    rw [hbase64, hhex]
    simp only [sourceOf, publicKeyOfDigits_base64_eq_hex]
    generalize publicKeyOfDigits (Hex.encode bs).toList .hex = read
    cases checkPublicKeyLength (Hex.encode bs).toList strict with
    | error error => rfl
    | ok u => rfl

/-! ## 4. Public key texts -/

/-- A public key text is accepted leniently when it is 128 digits or more,
of which the last 128 are read; it is accepted strictly when it is 128
digits, or 130 that start with `04`, and then it is read the same. The
Base64 text of bytes is accepted, read and refused like their digits. -/
theorem sm2PublicKey_accepts_exactly :
    (∀ text : String,
      ((∃ m, (sm2PublicKey text .hex false).result = .ok m)
        ↔ (∀ c ∈ text.toList, Hex.IsDigit c) ∧ 128 ≤ text.length) ∧
      (∀ m, (sm2PublicKey text .hex false).result = .ok m →
        m.role = .sm2PublicKey ∧ m.source = .hex
          ∧ Hex.decode (String.ofList (text.toList.rtake 128)) = .ok m.bytes) ∧
      ((∃ m, (sm2PublicKey text .hex true).result = .ok m)
        ↔ (∀ c ∈ text.toList, Hex.IsDigit c)
          ∧ (text.length = 128 ∨ text.length = 130 ∧ ['0', '4'] <+: text.toList)) ∧
      (∀ m, (sm2PublicKey text .hex true).result = .ok m →
        (sm2PublicKey text .hex false).result = .ok m)) ∧
    (∀ (bs : Bytes) (strict : Bool),
      (sm2PublicKey (Base64.encode bs) .base64 strict).result
        = (sm2PublicKey (Hex.encode bs) .hex strict).result.map ({ · with source := .base64 })) := by
  refine ⟨?_, sm2PublicKey_base64_eq_hex⟩
  intro text
  refine ⟨?_, fun _ => decode_rtake_of_sm2PublicKey, ?_, fun _ => sm2PublicKey_lenient_of_strict⟩
  · rw [exists_sm2PublicKey_hex_iff, checkPublicKeyLength_lenient_iff, String.length_toList]
    rfl
  · rw [exists_sm2PublicKey_hex_iff, checkPublicKeyLength_strict_iff, String.length_toList]
    rfl

/-- The base point with `04` in front is accepted by both readings and read
without it; with one zero more the strict reading refuses it. -/
theorem sm2PublicKey_accepts_exactly_basePoint :
    (sm2PublicKey (Hex.encode Sm2.generator.encode) .hex false).result
      = .ok ⟨Sm2.generator.encode.drop 1, .sm2PublicKey, .hex⟩ ∧
    ¬ ∃ m, (sm2PublicKey ("0" ++ Hex.encode Sm2.generator.encode) .hex true).result = .ok m := by
  have hcount : (Hex.encode Sm2.generator.encode).length = 130 := by
    rw [← String.length_toList, Hex.length_toList_encode]
    decide +kernel
  constructor
  · obtain ⟨-, hread, hstrict, hlenient⟩ :=
      sm2PublicKey_accepts_exactly.left (Hex.encode Sm2.generator.encode)
    have hfour : ['0', '4'] <+: (Hex.encode Sm2.generator.encode).toList := by
      rw [Hex.toList_encode]
      decide +kernel
    obtain ⟨m, hm⟩ := hstrict.mpr ⟨Hex.isDigit_of_mem_encode, .inr ⟨hcount, hfour⟩⟩
    obtain ⟨hrole, hsource, hdecoded⟩ := hread m (hlenient m hm)
    have hpoint : Sm2.generator.encode = [0x04] ++ Sm2.generator.encode.drop 1 := rfl
    rw [hpoint, Hex.rtake_toList_encode _ (by decide +kernel), String.ofList_toList] at hdecoded
    have hbytes := Hex.decode_eq_ok_iff.mpr (Hex.toLower_encode (Sm2.generator.encode.drop 1))
    rw [hlenient m hm, ← Except.ok.inj (hdecoded.symm.trans hbytes), ← hrole, ← hsource]
  · rw [(sm2PublicKey_accepts_exactly.left _).right.right.left, String.length_append, hcount]
    rintro ⟨-, hform⟩
    exact absurd hform (by decide +kernel)

end ColumnMasking.KeyMaterial
