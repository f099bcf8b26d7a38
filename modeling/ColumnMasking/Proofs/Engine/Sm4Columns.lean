/-
ColumnMasking.Proofs.Engine.Sm4Columns — a column is transformed like its
values, one by one.

Once key and IV are resolved, a column is a list of rows, each transformed
on its own (`sm4EncryptColumn_of_inputs`, `sm4DecryptColumn_eq_ok_iff`). The
modes have their own way with the empty text, and that agrees with passing
it by (`encryptRow_nil`, `decryptRow_nil`); so the transformation of a row
is the call on its value (`sm4Encrypt_of_inputs`, `sm4Decrypt_of_inputs`). A
column of which all rows are empty differs from its values in one respect:
it asks for key and IV.

`sm4Columns_agree` puts this together for both directions, and says which
class of failure a column of ciphertexts reports.
-/
import ColumnMasking.Proofs.Engine.Sm4Inputs

namespace ColumnMasking

/-! ## 1. Rows under resolved inputs -/

namespace Sm4.Mode

variable {mode : Mode} {key : Key} {iv : Option Iv}

/-- An IV that the mode admits passes the check of a call without additional
data. -/
theorem checkInputs_of_admitsIv (hiv : mode.AdmitsIv iv) : mode.checkInputs iv none = .ok () := by
  cases mode with
  | ecb => rfl
  | cbc =>
    obtain ⟨v, rfl, -⟩ := hiv
    rfl
  | gcm =>
    obtain ⟨v, rfl, -⟩ := hiv
    rfl

/-- The empty text is its own ciphertext in a row. -/
theorem encryptRow_nil (hiv : mode.AdmitsIv iv) (key : Key) :
    mode.encryptRow key iv [] none = .ok [] := by
  cases mode with
  | ecb => rfl
  | cbc =>
    obtain ⟨v, rfl, hv⟩ := hiv
    simp only [encryptRow, Cbc.encrypt, Iv.require_eq .cbc hv]
    rfl
  | gcm =>
    obtain ⟨v, rfl, hv⟩ := hiv
    simp only [encryptRow, Gcm.encrypt, Iv.require_eq .gcm hv]
    rfl

/-- The empty ciphertext is its own text in a row. -/
theorem decryptRow_nil (hiv : mode.AdmitsIv iv) (key : Key) :
    mode.decryptRow key iv [] none = .ok [] := by
  cases mode with
  | ecb => rfl
  | cbc =>
    obtain ⟨v, rfl, hv⟩ := hiv
    simp only [decryptRow, Cbc.decrypt, Iv.require_eq .cbc hv]
    rfl
  | gcm =>
    obtain ⟨v, rfl, hv⟩ := hiv
    simp only [decryptRow, Gcm.decrypt, Iv.require_eq .gcm hv]
    rfl

theorem kind_of_checkAligned {text : Bytes} {error : Error}
    (h : checkAligned text = .error error) : error.kind = .decryption := by
  unfold checkAligned at h
  split at h
  · exact absurd h nofun
  · obtain rfl := Except.error.inj h
    rfl

theorem kind_of_removePadding {padded : Bytes} {error : Error}
    (h : removePadding padded = .error error) : error.kind = .decryption := by
  unfold removePadding at h
  split at h
  · exact absurd h nofun
  · obtain rfl := Except.error.inj h
    rfl

/-- Blocks that are not deciphered are unaligned or wrongly padded. -/
theorem kind_of_unpadded (hkey : key.bytes.length = Key.size) {ciphertext : Bytes}
    {padded : List Word → Bytes} {error : Error}
    (h : (do
      checkAligned ciphertext
      let ks ← key.schedule
      removePadding (padded ks)) = .error error) : error.kind = .decryption := by
  rcases bind_eq_error_iff.mp h with h | ⟨-, -, h⟩
  · exact kind_of_checkAligned h
  · rw [Key.schedule_eq hkey] at h
    exact kind_of_removePadding h

/-- A row that is not deciphered under a key and an IV of the right lengths
is undecipherable. -/
theorem kind_of_decryptRow (hkey : key.bytes.length = Key.size) (hiv : mode.AdmitsIv iv)
    {ciphertext : Bytes} {aad : Option Bytes} {error : Error}
    (h : mode.decryptRow key iv ciphertext aad = .error error) : error.kind = .decryption := by
  cases mode with
  | ecb =>
    simp only [decryptRow, Ecb.decrypt] at h
    split at h
    · cases h
    · exact kind_of_unpadded hkey h
  | cbc =>
    obtain ⟨v, rfl, hv⟩ := hiv
    simp only [decryptRow, Cbc.decrypt, Iv.require_eq .cbc hv] at h
    rcases bind_eq_error_iff.mp h with h | ⟨bytes, -, h⟩
    · cases h
    · split at h
      · cases h
      · exact kind_of_unpadded hkey h
  | gcm =>
    obtain ⟨v, rfl, hv⟩ := hiv
    rw [decryptRow] at h
    by_cases hlength : Gcm.tagLength ≤ ciphertext.length
    · have hrefused : ∀ text, Gcm.decrypt key (some v) ciphertext aad ≠ .ok text := by
        intro text htext
        rw [htext] at h
        cases h
      rw [Gcm.decrypt_eq_error hkey hv hlength aad hrefused] at h
      obtain rfl := Except.error.inj h
      rfl
    · have hne : ciphertext ≠ [] := by
        rintro rfl
        rw [Gcm.decrypt, Iv.require_eq .gcm hv] at h
        cases h
      rw [Gcm.decrypt_of_short hv hne (Nat.lt_of_not_le hlength)] at h
      obtain rfl := Except.error.inj h
      rfl

end Sm4.Mode

namespace Engine

variable {engine : Engine} {key : String} {mode : Sm4.Mode} {iv : Option String}
  {encoding : Encoding} {k : Sm4.Key} {v : Option Sm4.Iv}

/-- Enciphering a value is enciphering its row. -/
theorem sm4Encrypt_of_inputs (hinputs : engine.sm4Inputs key mode iv encoding = .ok (k, v))
    (value : String) :
    (engine.sm4Encrypt key value mode iv none encoding).result
      = ((mode.encryptRow k v (Utf8.encode value) none).mapError Error.sm4).map
          encoding.encode := by
  obtain ⟨-, hiv⟩ := admitted_of_sm4Inputs hinputs
  have hrow : mode.encrypt k v (Utf8.encode value) none
      = mode.encryptRow k v (Utf8.encode value) none := by
    rw [Sm4.Mode.encrypt, Sm4.Mode.checkInputs_of_admitsIv hiv]
    rfl
  rw [result_sm4Encrypt, hinputs]
  split
  · rename_i hempty
    have hnil : Utf8.encode value = [] := Utf8.encode_eq_nil_iff.mpr hempty
    have htext : encoding.encode [] = "" := (Encoding.encode_eq_empty_iff encoding).mpr rfl
    rw [hnil, Sm4.Mode.encryptRow_nil hiv]
    simp only [Except.mapError, Except.map, htext]
  · show ((mode.encrypt k v (Utf8.encode value) none).mapError Error.sm4).map _ = _
    rw [hrow]

/-- Deciphering a value is reading its text and deciphering its row. -/
theorem sm4Decrypt_of_inputs (hinputs : engine.sm4Inputs key mode iv encoding = .ok (k, v))
    (value : String) :
    (engine.sm4Decrypt key value mode iv none encoding).result
      = (encoding.decode value).mapError Error.decoding >>= fun bytes =>
          ((mode.decryptRow k v bytes none).mapError Error.sm4).map Utf8.decodeLossy := by
  obtain ⟨-, hiv⟩ := admitted_of_sm4Inputs hinputs
  have hrow : ∀ bytes, mode.decrypt k v bytes none = mode.decryptRow k v bytes none := by
    intro bytes
    rw [Sm4.Mode.decrypt, Sm4.Mode.checkInputs_of_admitsIv hiv]
    rfl
  rw [result_sm4Decrypt, hinputs]
  split
  · rename_i hempty
    rw [hempty, Encoding.decode_empty]
    show _ = ((mode.decryptRow k v [] none).mapError Error.sm4).map Utf8.decodeLossy
    rw [Sm4.Mode.decryptRow_nil hiv, Except.mapError, Except.map, Utf8.decodeLossy,
      Utf8.decodeLossyChars_nil]
  · simp only [← hrow]
    rfl

/-! ## 2. Columns under resolved inputs -/

/-- Enciphering a column is enciphering its values. -/
theorem sm4EncryptColumn_of_inputs
    (hinputs : engine.sm4Inputs key mode iv encoding = .ok (k, v)) (values : List String) :
    (engine.sm4EncryptColumn key values mode iv encoding).result
      = values.mapM fun value => (engine.sm4Encrypt key value mode iv none encoding).result := by
  simp only [sm4Encrypt_of_inputs hinputs]
  rw [result_sm4EncryptColumn, hinputs, ← mapM_map, ← mapM_mapError]
  show ((mode.encryptRows k v (values.map Utf8.encode)).mapError Error.sm4).map _ = _
  rw [Sm4.Mode.encryptRows, List.mapM_map]
  rfl

/-- Deciphering a column is reading all its values and then deciphering
them. -/
theorem sm4DecryptColumn_of_inputs
    (hinputs : engine.sm4Inputs key mode iv encoding = .ok (k, v)) (values : List String) :
    (engine.sm4DecryptColumn key values mode iv encoding).result
      = (values.mapM fun value => (encoding.decode value).mapError Error.decoding) >>= fun rows =>
          rows.mapM fun row =>
            ((mode.decryptRow k v row none).mapError Error.sm4).map Utf8.decodeLossy := by
  rw [result_sm4DecryptColumn, hinputs, ← mapM_mapError]
  simp only [← mapM_map, ← mapM_mapError]
  rfl

/-- Deciphering a column succeeds exactly when deciphering its values
does. -/
theorem sm4DecryptColumn_eq_ok_iff
    (hinputs : engine.sm4Inputs key mode iv encoding = .ok (k, v)) (values out : List String) :
    (engine.sm4DecryptColumn key values mode iv encoding).result = .ok out
      ↔ (values.mapM fun value => (engine.sm4Decrypt key value mode iv none encoding).result)
        = .ok out := by
  rw [sm4DecryptColumn_of_inputs hinputs, mapM_bind_mapM_eq_ok_iff]
  simp only [sm4Decrypt_of_inputs hinputs]

/-- A column of ciphertexts that fails under resolved inputs reports a text
that cannot be read if there is one, and a row that is undecipherable if all
can be read. -/
theorem kind_of_sm4DecryptColumn
    (hinputs : engine.sm4Inputs key mode iv encoding = .ok (k, v)) {values : List String}
    {error : Error}
    (h : (engine.sm4DecryptColumn key values mode iv encoding).result = .error error) :
    ((∃ value ∈ values, ∃ cause, encoding.decode value = .error cause) →
      error.kind = .decoding) ∧
    ((∀ value ∈ values, ∃ bytes, encoding.decode value = .ok bytes) →
      error.kind = .decryption) := by
  obtain ⟨hkey, hiv⟩ := admitted_of_sm4Inputs hinputs
  rw [sm4DecryptColumn_of_inputs hinputs, ← mapM_mapError] at h
  rcases bind_eq_error_iff.mp h with h | ⟨rows, hrows, h⟩
  · -- a text that cannot be read
    cases hread : values.mapM encoding.decode with
    | ok rows =>
      rw [hread] at h
      exact absurd h nofun
    | error cause =>
      rw [hread] at h
      obtain rfl := Except.error.inj h
      obtain ⟨value, hvalue, hcause⟩ := exists_of_mapM_eq_error hread
      refine ⟨fun _ => rfl, fun hall => ?_⟩
      obtain ⟨bytes, hbytes⟩ := hall value hvalue
      rw [hcause] at hbytes
      exact absurd hbytes nofun
  · -- all texts are read, and a row is refused
    constructor
    · rintro ⟨value, hvalue, cause, hcause⟩
      obtain ⟨bytes, hbytes⟩ :=
        exists_of_mapM_eq_ok (mapError_eq_ok_iff.mp hrows) value hvalue
      rw [hcause] at hbytes
      exact absurd hbytes nofun
    · intro _
      obtain ⟨row, -, hrow⟩ := exists_of_mapM_eq_error h
      cases hfound : mode.decryptRow k v row none with
      | ok bytes =>
        rw [hfound] at hrow
        exact absurd hrow nofun
      | error cause =>
        rw [hfound] at hrow
        obtain rfl := Except.error.inj hrow
        exact Sm4.Mode.kind_of_decryptRow hkey hiv hfound

/-! ## 3. Columns and values -/

/-- A call on a column agrees with the call on one value. Where key and IV
are needed for a value at all, the column succeeds exactly when each value
does, with their results in order; where they are not resolved, both fail
with the same error. A column without a value that is not empty succeeds
exactly when they are resolved, and is given back as it is. -/
structure ColumnAgrees {α : Type} (inputs : Except Error α)
    (column : List String → Except Error (List String)) (each : String → Except Error String) :
    Prop where
  rows : ∀ values, (∃ value ∈ values, value ≠ "") → ∀ out,
    column values = .ok out ↔ List.Forall₂ (fun value o => each value = .ok o) values out
  unresolved : ∀ error, inputs = .error error →
    ∀ values, column values = .error error ∧ ∀ value, value ≠ "" → each value = .error error
  allEmpty : ∀ values, (∀ value ∈ values, value = "") → ∀ out,
    column values = .ok out ↔ (∃ resolved, inputs = .ok resolved) ∧ out = values

/-- A column agrees with its values if it does once the inputs are resolved,
and if nothing else is looked at before. -/
theorem ColumnAgrees.of_inputs {α : Type} {inputs : Except Error α}
    {column : List String → Except Error (List String)} {each : String → Except Error String}
    (hresolved : ∀ resolved, inputs = .ok resolved → ∀ values out,
      column values = .ok out ↔ values.mapM each = .ok out)
    (hempty : each "" = .ok "")
    (hunresolved : ∀ error, inputs = .error error →
      ∀ values, column values = .error error ∧ ∀ value, value ≠ "" → each value = .error error) :
    ColumnAgrees inputs column each where
  rows := by
    rintro values ⟨value, hvalue, hne⟩ out
    rw [← mapM_eq_ok_iff]
    cases hinputs : inputs with
    | ok resolved => exact hresolved resolved hinputs values out
    | error error =>
      obtain ⟨hcolumn, heach⟩ := hunresolved error hinputs values
      constructor
      · intro h
        rw [hcolumn] at h
        exact absurd h nofun
      · intro h
        obtain ⟨o, ho⟩ := exists_of_mapM_eq_ok h value hvalue
        rw [heach value hne] at ho
        exact absurd ho nofun
  unresolved := hunresolved
  allEmpty := by
    intro values hall out
    cases hinputs : inputs with
    | ok resolved =>
      have hvalues : values.mapM each = .ok values := by
        rw [mapM_eq_ok_iff, List.forall₂_same]
        intro value hvalue
        rw [hall value hvalue, hempty]
      rw [hresolved resolved hinputs values out, hvalues]
      constructor
      · intro h
        exact ⟨⟨resolved, rfl⟩, (Except.ok.inj h).symm⟩
      · rintro ⟨-, rfl⟩
        rfl
    | error error =>
      rw [(hunresolved error hinputs values).left]
      constructor
      · intro h
        exact absurd h nofun
      · rintro ⟨⟨resolved, h⟩, -⟩
        exact absurd h nofun

/-- Columns agree with their values in both directions, and a column of
ciphertexts whose key and IV are resolved reports a text that cannot be read
before a row that is undecipherable. -/
theorem sm4Columns_agree (engine : Engine) (key : String) (mode : Sm4.Mode) (iv : Option String)
    (encoding : Encoding) :
    ColumnAgrees (engine.sm4Inputs key mode iv encoding)
      (fun values => (engine.sm4EncryptColumn key values mode iv encoding).result)
      (fun value => (engine.sm4Encrypt key value mode iv none encoding).result) ∧
    ColumnAgrees (engine.sm4Inputs key mode iv encoding)
      (fun values => (engine.sm4DecryptColumn key values mode iv encoding).result)
      (fun value => (engine.sm4Decrypt key value mode iv none encoding).result) ∧
    ∀ resolved, engine.sm4Inputs key mode iv encoding = .ok resolved → ∀ values error,
      (engine.sm4DecryptColumn key values mode iv encoding).result = .error error →
      ((∃ value ∈ values, ∃ cause, encoding.decode value = .error cause) →
        error.kind = .decoding) ∧
      ((∀ value ∈ values, ∃ bytes, encoding.decode value = .ok bytes) →
        error.kind = .decryption) := by
  refine ⟨.of_inputs ?_ rfl ?_, .of_inputs ?_ rfl ?_, ?_⟩
  · rintro ⟨k, v⟩ hinputs values out
    rw [sm4EncryptColumn_of_inputs hinputs]
  · intro error hinputs values
    simp only [result_sm4EncryptColumn, result_sm4Encrypt, hinputs]
    exact ⟨rfl, fun value hne => if_neg hne⟩
  · rintro ⟨k, v⟩ hinputs values out
    exact sm4DecryptColumn_eq_ok_iff hinputs values out
  · intro error hinputs values
    simp only [result_sm4DecryptColumn, result_sm4Decrypt, hinputs]
    exact ⟨rfl, fun value hne => if_neg hne⟩
  · rintro ⟨k, v⟩ hinputs values error h
    exact kind_of_sm4DecryptColumn hinputs h

end Engine
end ColumnMasking
