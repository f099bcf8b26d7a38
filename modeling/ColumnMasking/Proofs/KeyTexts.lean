/-
ColumnMasking.Proofs.KeyTexts — the forms in which a text stands for a key,
an IV or a nonce of SM4.

The three forms are tried in turn: digits, the bytes of the text, Base64.
`forms_of_resolveBlock` says what a text that is accepted looks like in each
of them; `resolveBlock_of_digits`, `resolveBlock_of_raw` and
`resolveBlock_of_base64` are the ways back. The forms can stand in each
other's way only where their lengths meet. The Base64 text of sixteen bytes
has as many characters as twelve bytes have digits, but ends in padding,
which is no digit (`isHex_encode`); so a key text is the same text for a
nonce (`gcmNonce_of_sm4Key`). The Base64 text of twelve bytes has sixteen
characters, and is taken for these sixteen bytes.
-/
import ColumnMasking.KeyMaterial
import ColumnMasking.Proofs.Text.CanonicalTexts

namespace ColumnMasking

/-! ## 1. Written texts -/

/-- The written text of bytes, in any letter case, has digits alone. -/
theorem Hex.isHex_of_toLower {text : String} {bs : Bytes} (hne : bs ≠ [])
    (h : text.toLower = Hex.encode bs) : Hex.isHex text = true := by
  have hlength := Hex.length_of_toLower h
  have hnonempty : text.isEmpty = false := by
    rw [Bool.eq_false_iff]
    intro hempty
    have hnil : (Utf8.encode text).length = 0 := by
      rw [String.isEmpty_iff.mp hempty]
      rfl
    have hpos := List.length_pos_iff.mpr hne
    omega
  have hdigits : (Utf8.encode text).all (fun b => (Hex.value? b).isSome) = true := by
    rw [List.all_eq_true]
    intro b hb
    have hvalue : Hex.value? b ∈ (bs.flatMap Hex.halves).map some := by
      rw [← Hex.toLower_eq_encode_iff.mp h]
      exact List.mem_map_of_mem hb
    obtain ⟨n, -, hn⟩ := List.mem_map.mp hvalue
    rw [← hn]
    rfl
  rw [Hex.isHex, hnonempty, hdigits]
  rfl

namespace Base64

/-- Four characters for every three bytes, the last group filled up. -/
theorem length_encode (bs : Bytes) :
    (Utf8.encode (encode bs)).length = 4 * ((bs.length + 2) / 3) := by
  rw [encode, Utf8.encode_ofList, length_encodeChars]

/-- A last group that is filled up holds padding. -/
theorem pad_mem_encode {bs : Bytes} (h : bs.length % 3 ≠ 0) : pad ∈ Utf8.encode (encode bs) := by
  rw [encode, Utf8.encode_ofList]
  induction bs using encodeChars.induct with
  | case1 => simp at h
  | case2 a => simp [encodeChars_one a rfl]
  | case3 a b => simp [encodeChars_two a b rfl]
  | case4 a b c rest ih =>
    rw [encodeChars_group a b c rest rfl]
    have hrest : rest.length % 3 ≠ 0 := by
      simp only [List.length_cons] at h
      omega
    simp only [List.mem_cons, ih hrest, or_true]

/-- Text that holds padding has not digits alone. -/
theorem isHex_encode {bs : Bytes} (h : bs.length % 3 ≠ 0) : Hex.isHex (encode bs) = false := by
  rw [Hex.isHex, Bool.and_eq_false_iff]
  right
  rw [List.all_eq_false]
  exact ⟨pad, pad_mem_encode h, by decide⟩

end Base64

namespace KeyMaterial

/-! ## 2. The three forms -/

variable {text : String} {role : Role} {encoding : Encoding} {lengths : List Nat}
  {otherLength : Nat → Error} {bs : Bytes}

/-- A text of digits stands for the bytes that they spell. -/
theorem resolveBlock_of_digits (hne : bs ≠ []) (hlength : bs.length ∈ lengths)
    (h : text.toLower = Hex.encode bs) :
    resolveBlock text role encoding lengths otherLength = .ok ⟨bs, role, .hex⟩ := by
  have hbytes := Hex.length_of_toLower h
  have hnonempty : Utf8.encode text ≠ [] := by
    intro hnil
    rw [hnil, List.length_nil] at hbytes
    exact hne (List.length_eq_zero_iff.mp (by omega))
  have hform : (Utf8.encode text).length ∈ lengths.map (2 * ·) ∧ Hex.isHex text = true := by
    rw [hbytes]
    exact ⟨List.mem_map_of_mem hlength, Hex.isHex_of_toLower hne h⟩
  simp only [resolveBlock, if_neg hnonempty, if_pos hform,
    Encoding.decodeHexStrict_eq_ok_iff.mpr h]

/-- A text that is not taken for digits stands for its bytes. -/
theorem resolveBlock_of_raw (hne : bs ≠ []) (hlength : bs.length ∈ lengths)
    (hbytes : Utf8.encode text = bs)
    (hdigits : ¬ (bs.length ∈ lengths.map (2 * ·) ∧ Hex.isHex text = true)) :
    resolveBlock text role encoding lengths otherLength = .ok ⟨bs, role, .rawUtf8⟩ := by
  simp only [resolveBlock, hbytes, if_neg hne, if_neg hdigits, if_pos hlength]

/-- A text that is taken neither for digits nor for its bytes stands for the
bytes of which it is the Base64 text. -/
theorem resolveBlock_of_base64 (hne : bs ≠ []) (hlength : bs.length ∈ lengths)
    (hdigits : ¬ ((Utf8.encode (Base64.encode bs)).length ∈ lengths.map (2 * ·)
      ∧ Hex.isHex (Base64.encode bs) = true))
    (hraw : (Utf8.encode (Base64.encode bs)).length ∉ lengths) :
    resolveBlock (Base64.encode bs) role .base64 lengths otherLength
      = .ok ⟨bs, role, .base64⟩ := by
  have hnonempty : Utf8.encode (Base64.encode bs) ≠ [] := by
    intro hnil
    have htext : Encoding.encode .base64 bs = "" := Utf8.encode_eq_nil_iff.mp hnil
    exact hne ((Encoding.encode_eq_empty_iff .base64).mp htext)
  simp only [resolveBlock, if_neg hnonempty, if_neg hdigits, if_neg hraw,
    Encoding.decodeBase64_eq_ok_iff.mpr rfl, if_pos hlength]

/-- What a text that is accepted looks like. -/
theorem forms_of_resolveBlock {m : KeyMaterial}
    (h : resolveBlock text role encoding lengths otherLength = .ok m) :
    m.role = role ∧ m.bytes.length ∈ lengths ∧
      (m.source = .hex ∧ text.toLower = Hex.encode m.bytes ∨
       m.source = .rawUtf8 ∧ Utf8.encode text = m.bytes ∨
       m.source = .base64 ∧ encoding = .base64 ∧ text = Base64.encode m.bytes) := by
  simp only [resolveBlock] at h
  split at h
  · simp at h
  split at h
  · -- digits
    rename_i hform
    split at h
    · rename_i bytes hdecoded
      obtain rfl := Except.ok.inj h
      have hspelt := Encoding.decodeHexStrict_eq_ok_iff.mp hdecoded
      obtain ⟨n, hn, hlength⟩ := List.mem_map.mp hform.left
      have hcount : bytes.length = n := by
        rw [Hex.length_of_toLower hspelt] at hlength
        omega
      rw [hcount]
      exact ⟨rfl, hn, .inl ⟨rfl, hspelt⟩⟩
    · simp at h
  split at h
  · -- the bytes of the text
    rename_i hlength
    obtain rfl := Except.ok.inj h
    exact ⟨rfl, hlength, .inr (.inl ⟨rfl, rfl⟩)⟩
  split at h
  · -- Base64
    rename_i bytes hdecoded
    split at h
    · rename_i hlength
      obtain rfl := Except.ok.inj h
      have hwritten := Encoding.decodeBase64_eq_ok_iff.mp hdecoded
      exact ⟨rfl, hlength, .inr (.inr ⟨rfl, rfl, hwritten⟩)⟩
    · simp at h
  · simp at h

/-! ## 3. Keys, IVs and nonces -/

/-- A key has sixteen bytes. -/
theorem length_of_sm4Key {m : KeyMaterial} (h : sm4Key text encoding = .ok m) :
    m.bytes.length = blockLength := by
  obtain ⟨-, hlength, -⟩ := forms_of_resolveBlock h
  exact List.mem_singleton.mp hlength

/-- An IV has sixteen bytes. -/
theorem length_of_sm4Iv {m : KeyMaterial} (h : sm4Iv text encoding = .ok m) :
    m.bytes.length = blockLength := by
  obtain ⟨-, hlength, -⟩ := forms_of_resolveBlock h
  exact List.mem_singleton.mp hlength

/-- A nonce written in digits is the bytes that they spell. -/
theorem gcmNonce_of_digits (hlength : bs.length ∈ [nonceLength, blockLength])
    (h : text.toLower = Hex.encode bs) (encoding : Encoding) :
    gcmNonce text encoding = .ok ⟨bs, .sm4Iv, .hex⟩ := by
  have hne : bs ≠ [] := by
    rintro rfl
    exact absurd hlength (by decide)
  exact resolveBlock_of_digits hne hlength h

/-- A text of twelve or sixteen bytes is the nonce of these bytes: it is too
short for digits. -/
theorem gcmNonce_of_raw (hlength : (Utf8.encode text).length ∈ [nonceLength, blockLength])
    (encoding : Encoding) :
    gcmNonce text encoding = .ok ⟨Utf8.encode text, .sm4Iv, .rawUtf8⟩ := by
  have hne : Utf8.encode text ≠ [] := by
    intro hnil
    rw [hnil] at hlength
    exact absurd hlength (by decide)
  refine resolveBlock_of_raw hne hlength rfl ?_
  rintro ⟨hdouble, -⟩
  simp only [nonceLength, blockLength, List.map_cons, List.map_nil, List.mem_cons,
    List.not_mem_nil, or_false] at hlength hdouble
  omega

/-- The Base64 text of sixteen bytes is the nonce of these bytes: it has the
length of twelve bytes in digits, but holds padding. -/
theorem gcmNonce_of_base64 (hlength : bs.length = blockLength) :
    gcmNonce (Base64.encode bs) .base64 = .ok ⟨bs, .sm4Iv, .base64⟩ := by
  have hne : bs ≠ [] := List.ne_nil_of_length_eq_add_one hlength
  have hpadding : Hex.isHex (Base64.encode bs) = false := by
    refine Base64.isHex_encode ?_
    rw [hlength]
    decide
  refine resolveBlock_of_base64 hne ?_ ?_ ?_
  · rw [hlength]
    decide
  · rintro ⟨-, hdigits⟩
    rw [hpadding] at hdigits
    exact absurd hdigits nofun
  · rw [Base64.length_encode, hlength]
    decide

/-- A text that is accepted for a key is accepted for a nonce, and stands
for the same bytes. -/
theorem gcmNonce_of_sm4Key {m : KeyMaterial} (h : sm4Key text encoding = .ok m) :
    gcmNonce text encoding = .ok (ivOfKey m) := by
  obtain ⟨bytes, role, source⟩ := m
  have hlength : bytes.length = blockLength := length_of_sm4Key h
  have hadmitted : bytes.length ∈ [nonceLength, blockLength] := by
    rw [hlength]
    decide
  obtain ⟨-, -, hform⟩ := forms_of_resolveBlock h
  simp only at hform
  rcases hform with ⟨rfl, hdigits⟩ | ⟨rfl, hraw⟩ | ⟨rfl, rfl, rfl⟩
  · exact gcmNonce_of_digits hadmitted hdigits encoding
  · obtain rfl := hraw
    exact gcmNonce_of_raw hadmitted encoding
  · exact gcmNonce_of_base64 hlength

end KeyMaterial
end ColumnMasking
