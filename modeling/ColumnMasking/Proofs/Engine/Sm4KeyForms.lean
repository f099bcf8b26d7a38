/-
ColumnMasking.Proofs.Engine.Sm4KeyForms — the text of an SM4 key or of a CBC
IV has one form at most.

A text may stand for sixteen bytes as 32 digits, as the sixteen bytes that
it has itself or, where Base64 is agreed on, as the Base64 text of sixteen
bytes. The forms are tried in this order and the first that fits is taken,
but the order makes no difference: texts of the three forms have 32, 16 and
24 bytes (`Source.length_of_fits`), so no text has two of them.
`resolvesBlocks` says that the texts of one form are accepted and no others,
and what is said of these.

An engine sees no more of a key text than the bytes that it stands for, not
even where the nonce is taken from the key (`SameKey.of_bytes`). A key may
therefore be written in any of its forms; `sm4KeyTexts_unambiguous` puts
both together.
-/
import ColumnMasking.Proofs.Engine.Sm4Inputs
import ColumnMasking.Proofs.KeyShapes

namespace ColumnMasking

namespace KeyMaterial

/-! ## 1. The forms of sixteen bytes -/

/-- A text has the form of sixteen bytes that goes by the name of its
source. -/
def Source.Fits (encoding : Encoding) (text : String) : Source → Prop
  | .hex => text.length = 32 ∧ ∀ c ∈ text.toList, Hex.IsDigit c
  | .rawUtf8 => (Utf8.encode text).length = 16
  | .base64 => encoding = .base64 ∧ ∃ bs : Bytes, bs.length = 16 ∧ text = Base64.encode bs

/-- What a text of that form is read as. -/
def Source.read (text : String) : Source → Except Encoding.Error Bytes
  | .hex => Encoding.decodeHexStrict text
  | .rawUtf8 => .ok (Utf8.encode text)
  | .base64 => Encoding.decodeBase64 text

/-- Bytes are written in that form, digits in any letter case. -/
def Source.Writes (encoding : Encoding) (bs : Bytes) (text : String) : Source → Prop
  | .hex => text.toLower = Hex.encode bs
  | .rawUtf8 => Utf8.encode text = bs
  | .base64 => encoding = .base64 ∧ text = Base64.encode bs

/-- The bytes of a text of that form. -/
def Source.textLength : Source → Nat
  | .hex => 32
  | .rawUtf8 => 16
  | .base64 => 24

section

variable {text : String} {encoding : Encoding} {bs : Bytes}

/-- Texts of 32 digits are the written texts of sixteen bytes. -/
theorem digits_iff_toLower :
    (text.length = 32 ∧ ∀ c ∈ text.toList, Hex.IsDigit c)
      ↔ ∃ bs : Bytes, bs.length = 16 ∧ text.toLower = Hex.encode bs := by
  constructor
  · rintro ⟨hcount, hdigits⟩
    have hspells : Hex.Spells text.toList (text.toList.map Hex.digitValue) :=
      Hex.spells_iff.mpr ⟨hdigits, rfl⟩
    have hvalues : (text.toList.map Hex.digitValue).length = 32 := by
      rw [List.length_map, String.length_toList, hcount]
    have hread := Hex.decode_of_spells hspells (by rw [hvalues])
    rw [String.ofList_toList] at hread
    exact ⟨_, by rw [Hex.length_pack, hvalues], Hex.decode_eq_ok_iff.mp hread⟩
  · rintro ⟨bs, hlength, htext⟩
    have hne : bs ≠ [] := List.ne_nil_of_length_eq_add_one hlength
    have hdigits := (Hex.isHex_iff.mp (Hex.isHex_of_toLower hne htext)).right
    have hlower : text.toLower.length = text.length := String.length_map
    rw [← hlower, htext, ← String.length_toList, Hex.length_toList_encode, hlength]
    exact ⟨rfl, hdigits⟩

/-- A text has a form exactly when it is sixteen bytes written in it. -/
theorem Source.fits_iff {form : Source} :
    form.Fits encoding text ↔ ∃ bs : Bytes, bs.length = 16 ∧ form.Writes encoding bs text := by
  cases form with
  | hex => exact digits_iff_toLower
  | rawUtf8 => simp [Fits, Writes]
  | base64 => simp [Fits, Writes, and_left_comm]

/-- What is written in a form is read back from it. -/
theorem Source.read_of_writes {form : Source} (h : form.Writes encoding bs text) :
    form.read text = .ok bs := by
  cases form with
  | hex => exact Encoding.decodeHexStrict_eq_ok_iff.mpr h
  | rawUtf8 => exact congrArg Except.ok h
  | base64 => exact Encoding.decodeBase64_eq_ok_iff.mpr h.right

/-- Each form has a length of its own. -/
theorem Source.length_of_fits {form : Source} (h : form.Fits encoding text) :
    (Utf8.encode text).length = form.textLength := by
  obtain ⟨bs, hlength, hwritten⟩ := Source.fits_iff.mp h
  cases form with
  | hex => rw [Hex.length_of_toLower hwritten, hlength]; rfl
  | rawUtf8 => exact h
  | base64 => rw [hwritten.right, Base64.length_encode, hlength]; rfl

/-- So no text has two forms. -/
theorem Source.eq_of_fits {form form' : Source} (h : form.Fits encoding text)
    (h' : form'.Fits encoding text) : form = form' := by
  have hlength : form.textLength = form'.textLength :=
    (length_of_fits h).symm.trans (length_of_fits h')
  cases form <;> cases form' <;> first | rfl | exact absurd hlength (by decide)

end

/-! ## 2. Resolving a block -/

/-- A way to resolve texts to blocks accepts the texts of the three forms,
each in the form that it has, and says of any other how many bytes there
are. -/
structure ResolvesBlocks (role : Role)
    (resolve : String → Encoding → Except Error KeyMaterial) : Prop where
  accepts_iff : ∀ {text encoding},
    (∃ m, resolve text encoding = .ok m) ↔ ∃ form : Source, form.Fits encoding text
  reads : ∀ {text encoding} {form : Source}, form.Fits encoding text →
    ∃ bs, form.read text = .ok bs ∧ resolve text encoding = .ok ⟨bs, role, form⟩
  refuses_empty : ∀ {encoding}, resolve "" encoding = .error (.empty role)
  refuses : ∀ {text encoding}, text ≠ "" → (¬ ∃ form : Source, form.Fits encoding text) →
    resolve text encoding = .error (.blockLength role (Utf8.encode text).length)

section

variable {text : String} {role : Role} {encoding : Encoding} {otherLength : Nat → Error}
  {bs : Bytes}

/-- Sixteen bytes are resolved from each of the forms they are written in. -/
theorem resolveBlock_of_writes {form : Source} (hlength : bs.length = 16)
    (h : form.Writes encoding bs text) :
    resolveBlock text role encoding [blockLength] otherLength = .ok ⟨bs, role, form⟩ := by
  have hne : bs ≠ [] := List.ne_nil_of_length_eq_add_one hlength
  have hblock : bs.length ∈ [blockLength] := List.mem_singleton.mpr hlength
  cases form with
  | hex => exact resolveBlock_of_digits hne hblock h
  | rawUtf8 =>
    refine resolveBlock_of_raw hne hblock h ?_
    rw [hlength]
    exact fun hdigits => absurd hdigits.left (by decide)
  | base64 =>
    obtain ⟨rfl, rfl⟩ := h
    have hcount : (Utf8.encode (Base64.encode bs)).length = 24 := by
      rw [Base64.length_encode, hlength]
    refine resolveBlock_of_base64 hne hblock ?_ ?_ <;> rw [hcount]
    · exact fun hdigits => absurd hdigits.left (by decide)
    · decide

/-- What is resolved is written in the form that it was resolved from. -/
theorem writes_of_resolveBlock {m : KeyMaterial}
    (h : resolveBlock text role encoding [blockLength] otherLength = .ok m) :
    m.bytes.length = 16 ∧ m.source.Writes encoding m.bytes text := by
  obtain ⟨-, hlength, hform⟩ := forms_of_resolveBlock h
  refine ⟨List.mem_singleton.mp hlength, ?_⟩
  rcases hform with ⟨hsource, htext⟩ | ⟨hsource, htext⟩ | ⟨hsource, hencoding, htext⟩ <;>
    rw [hsource]
  · exact htext
  · exact htext
  · exact ⟨hencoding, htext⟩

/-- The three forms of sixteen bytes together. -/
theorem resolvesBlocks (role : Role) : ResolvesBlocks role fun text encoding =>
    resolveBlock text role encoding [blockLength] (.blockLength role) where
  accepts_iff := by
    intro text encoding
    constructor
    · rintro ⟨m, hm⟩
      exact ⟨m.source, Source.fits_iff.mpr ⟨m.bytes, writes_of_resolveBlock hm⟩⟩
    · rintro ⟨form, hfits⟩
      obtain ⟨bs, hlength, hwritten⟩ := Source.fits_iff.mp hfits
      exact ⟨_, resolveBlock_of_writes hlength hwritten⟩
  reads := by
    intro text encoding form hfits
    obtain ⟨bs, hlength, hwritten⟩ := Source.fits_iff.mp hfits
    exact ⟨bs, Source.read_of_writes hwritten, resolveBlock_of_writes hlength hwritten⟩
  refuses_empty := rfl
  refuses := by
    intro text encoding hnonempty hform
    have hfails : ∀ m, resolveBlock text role encoding [blockLength] (.blockLength role)
        ≠ .ok m := fun m hm =>
      hform ⟨m.source, Source.fits_iff.mpr ⟨m.bytes, writes_of_resolveBlock hm⟩⟩
    obtain ⟨error, herror⟩ := exists_error_of_ne_ok hfails
    rw [herror, error_of_resolveBlock herror, if_neg hnonempty]

end

end KeyMaterial

/-! ## 3. Key texts of an engine -/

namespace Engine

/-- Two key texts are the same to an engine: every call with the one gives
what it gives with the other, value or error, and warns alike. -/
structure SameKey (engine : Engine) (encoding : Encoding) (key key' : String) : Prop where
  sm4Key : engine.sm4Key key encoding = engine.sm4Key key' encoding
  sm4Iv : ∀ mode iv, engine.sm4Iv mode key iv encoding = engine.sm4Iv mode key' iv encoding
  sm4Encrypt : ∀ plaintext mode iv aad, engine.sm4Encrypt key plaintext mode iv aad encoding
    = engine.sm4Encrypt key' plaintext mode iv aad encoding
  sm4Decrypt : ∀ ciphertext mode iv aad, engine.sm4Decrypt key ciphertext mode iv aad encoding
    = engine.sm4Decrypt key' ciphertext mode iv aad encoding
  sm4EncryptColumn : ∀ values mode iv, engine.sm4EncryptColumn key values mode iv encoding
    = engine.sm4EncryptColumn key' values mode iv encoding
  sm4DecryptColumn : ∀ values mode iv, engine.sm4DecryptColumn key values mode iv encoding
    = engine.sm4DecryptColumn key' values mode iv encoding

variable {engine : Engine} {encoding : Encoding} {key key' : String}

/-- The calls see the key text through the key and the IV alone. -/
theorem SameKey.of_inputs (hkey : engine.sm4Key key encoding = engine.sm4Key key' encoding)
    (hiv : ∀ mode iv, engine.sm4Iv mode key iv encoding = engine.sm4Iv mode key' iv encoding) :
    SameKey engine encoding key key' where
  sm4Key := hkey
  sm4Iv := hiv
  sm4Encrypt _ mode iv _ := by simp only [Engine.sm4Encrypt, hkey, hiv mode iv]
  sm4Decrypt _ mode iv _ := by simp only [Engine.sm4Decrypt, hkey, hiv mode iv]
  sm4EncryptColumn _ mode iv := by simp only [Engine.sm4EncryptColumn, hkey, hiv mode iv]
  sm4DecryptColumn _ mode iv := by simp only [Engine.sm4DecryptColumn, hkey, hiv mode iv]

/-- A key text that is resolved gives the key of its bytes. -/
theorem sm4Key_of_material {m : KeyMaterial} (h : KeyMaterial.sm4Key key encoding = .ok m) :
    engine.sm4Key key encoding = .ok ⟨m.bytes⟩ := by
  have hlength : m.bytes.length = Sm4.Key.size := KeyMaterial.length_of_sm4Key h
  refine bind_eq_ok_iff.mpr ⟨m, mapError_eq_ok_iff.mpr h, mapError_eq_ok_iff.mpr ?_⟩
  exact Sm4.Key.ofMaterial_of_length hlength

/-- The IV that is taken from a key text that is resolved has its bytes. -/
theorem ivOf_ivOfKey {m : KeyMaterial} (h : KeyMaterial.sm4Key key encoding = .ok m) :
    ivOf ((KeyMaterial.sm4Key key encoding).map KeyMaterial.ivOfKey)
      = .ok (some ⟨m.bytes⟩) := by
  have hmaterial : (KeyMaterial.sm4Key key encoding).map KeyMaterial.ivOfKey
      = .ok m.ivOfKey := map_eq_ok_iff.mpr ⟨m, h, rfl⟩
  have hiv : Sm4.Iv.ofMaterial m.ivOfKey = .ok ⟨m.bytes⟩ :=
    Sm4.Iv.ofMaterial_of_length (KeyMaterial.mem_nonceLengths (.inr (.inr hmaterial)))
  rw [hmaterial]
  exact bind_eq_ok_iff.mpr ⟨_, rfl, bind_eq_ok_iff.mpr ⟨_, mapError_eq_ok_iff.mpr hiv, rfl⟩⟩

/-- Key texts that stand for the same bytes are the same to an engine. -/
theorem SameKey.of_bytes {m m' : KeyMaterial} (h : KeyMaterial.sm4Key key encoding = .ok m)
    (h' : KeyMaterial.sm4Key key' encoding = .ok m') (hbytes : m.bytes = m'.bytes) :
    SameKey engine encoding key key' := by
  refine of_inputs ?_ ?_
  · rw [sm4Key_of_material h, sm4Key_of_material h', hbytes]
  · intro mode iv
    simp only [Engine.sm4Iv, ivOf_ivOfKey h, ivOf_ivOfKey h', hbytes]

/-- The text of a key or of a CBC IV has one form at most, and is accepted
and read in that form; and sixteen bytes are the same key to an engine in
every form that they are written in. -/
theorem sm4KeyTexts_unambiguous (encoding : Encoding) :
    (∀ text (form form' : KeyMaterial.Source),
      form.Fits encoding text → form'.Fits encoding text → form = form') ∧
    KeyMaterial.ResolvesBlocks .sm4Key KeyMaterial.sm4Key ∧
    KeyMaterial.ResolvesBlocks .sm4Iv KeyMaterial.sm4Iv ∧
    (∀ (engine : Engine) (bs : Bytes) key key' (form form' : KeyMaterial.Source),
      bs.length = 16 → form.Writes encoding bs key → form'.Writes encoding bs key' →
      engine.sm4Key key encoding = .ok ⟨bs⟩ ∧ SameKey engine encoding key key') := by
  refine ⟨fun _ _ _ => KeyMaterial.Source.eq_of_fits, KeyMaterial.resolvesBlocks .sm4Key,
    KeyMaterial.resolvesBlocks .sm4Iv, ?_⟩
  intro engine bs key key' form form' hlength hkey hkey'
  have hmaterial : KeyMaterial.sm4Key key encoding = .ok ⟨bs, .sm4Key, form⟩ :=
    KeyMaterial.resolveBlock_of_writes hlength hkey
  have hmaterial' : KeyMaterial.sm4Key key' encoding = .ok ⟨bs, .sm4Key, form'⟩ :=
    KeyMaterial.resolveBlock_of_writes hlength hkey'
  exact ⟨sm4Key_of_material hmaterial, .of_bytes hmaterial hmaterial' rfl⟩

/-- A key in upper-case digits and in Base64, with the nonce taken from it. -/
theorem sm4KeyTexts_unambiguous_numbers :
    (Engine.mk { Settings.default with noncePolicy := .legacyKeyDerived }).sm4Encrypt
        "000102030405060708090A0B0C0D0E0F" "é" .gcm none none .base64
      = (Engine.mk { Settings.default with noncePolicy := .legacyKeyDerived }).sm4Encrypt
          "AAECAwQFBgcICQoLDA0ODw==" "é" .gcm none none .base64 := by
  have hdigits : "000102030405060708090A0B0C0D0E0F".toLower
      = Hex.encode [0, 1, 2, 3, 4, 5, 6, 7, 8, 9, 10, 11, 12, 13, 14, 15] :=
    Hex.toLower_eq_encode_iff.mpr (by decide)
  have hbase64 : "AAECAwQFBgcICQoLDA0ODw=="
      = Base64.encode [0, 1, 2, 3, 4, 5, 6, 7, 8, 9, 10, 11, 12, 13, 14, 15] := by
    decide +kernel
  obtain ⟨-, -, -, hkeys⟩ := sm4KeyTexts_unambiguous .base64
  have hsame := (hkeys ⟨{ Settings.default with noncePolicy := .legacyKeyDerived }⟩ _ _ _
    .hex .base64 rfl hdigits ⟨rfl, hbase64⟩).right
  exact hsame.sm4Encrypt "é" .gcm none none

end Engine
end ColumnMasking
