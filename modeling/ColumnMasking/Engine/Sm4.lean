/-
ColumnMasking.Engine.Sm4 — masking with SM4: texts in, texts out, one
value at a time or a column of them.

Keys, IVs and ciphertexts are read under the encoding of the call. A
column is transformed under one key and one IV, which are resolved once;
if any row fails, the column does.
-/
import ColumnMasking.Engine
import ColumnMasking.Sm4.Cipher

namespace ColumnMasking.Engine

/-! ## Keys and IVs -/

/-- The key of a text. -/
def sm4Key (_ : Engine) (text : String) (encoding : Encoding) : Except Error Sm4.Key := do
  let m ← (KeyMaterial.sm4Key text encoding).mapError .keyMaterial
  (Sm4.Key.ofMaterial m).mapError .sm4

/-- The IV that resolved material holds. -/
def ivOf (m : Except KeyMaterial.Error KeyMaterial) : Except Error (Option Sm4.Iv) := do
  let m ← m.mapError .keyMaterial
  let iv ← (Sm4.Iv.ofMaterial m).mapError .sm4
  return some iv

/-- The IV of a mode. A mode without one has none, whatever is given; an
empty text is no IV. GCM without a nonce takes it from the key if the
settings say so, and warns of it. -/
def sm4Iv (engine : Engine) (mode : Sm4.Mode) (keyText : String) (iv : Option String)
    (encoding : Encoding) : Checked Error (Option Sm4.Iv) :=
  match mode, iv.filter (· ≠ "") with
  | .ecb, _ => .ofExcept (.ok none)
  | .gcm, some text => .ofExcept (ivOf (KeyMaterial.gcmNonce text encoding))
  | .cbc, some text => .ofExcept (ivOf (KeyMaterial.sm4Iv text encoding))
  | .cbc, none => .ofExcept (.error (.invalidArgument (.missingIv .cbc)))
  | .gcm, none =>
    match engine.settings.noncePolicy with
    | .explicit => .ofExcept (.error (.invalidArgument (.missingIv .gcm)))
    | .legacyKeyDerived =>
      ExceptT.mk
        ⟨ivOf ((KeyMaterial.sm4Key keyText encoding).map KeyMaterial.ivOfKey), [.nonceFromKey]⟩

/-- A new key, as 32 digits. -/
def generateSm4Key (_ : Engine) : Drawing Error String := do
  let key ← Sm4.Key.generate.adapt Error.sm4
  return key.exportText

/-! ## Single values -/

/-- The ciphertext of bytes. -/
def sm4EncryptBytes (_ : Engine) (key : Sm4.Key) (iv : Option Sm4.Iv) (plaintext : Bytes)
    (aad : Option Bytes) (mode : Sm4.Mode) : Except Error Bytes :=
  (mode.encrypt key iv plaintext aad).mapError .sm4

/-- The bytes of a ciphertext. -/
def sm4DecryptBytes (_ : Engine) (key : Sm4.Key) (iv : Option Sm4.Iv) (ciphertext : Bytes)
    (aad : Option Bytes) (mode : Sm4.Mode) : Except Error Bytes :=
  (mode.decrypt key iv ciphertext aad).mapError .sm4

/-- The ciphertext of a text. The empty text is its own ciphertext, and
neither key nor IV are looked at for it. -/
def sm4Encrypt (engine : Engine) (key plaintext : String) (mode : Sm4.Mode)
    (iv aad : Option String) (encoding : Encoding) : Checked Error String :=
  if plaintext = "" then pure ""
  else do
    let k ← Checked.ofExcept (engine.sm4Key key encoding)
    let v ← engine.sm4Iv mode key iv encoding
    let ciphertext ← Checked.ofExcept
      (engine.sm4EncryptBytes k v (Utf8.encode plaintext) (aad.map Utf8.encode) mode)
    return encoding.encode ciphertext

/-- The text of a ciphertext. -/
def sm4Decrypt (engine : Engine) (key ciphertext : String) (mode : Sm4.Mode)
    (iv aad : Option String) (encoding : Encoding) : Checked Error String :=
  if ciphertext = "" then pure ""
  else do
    let k ← Checked.ofExcept (engine.sm4Key key encoding)
    let v ← engine.sm4Iv mode key iv encoding
    let bytes ← Checked.ofExcept ((encoding.decode ciphertext).mapError Error.decoding)
    let plaintext ← Checked.ofExcept
      (engine.sm4DecryptBytes k v bytes (aad.map Utf8.encode) mode)
    return Utf8.decodeLossy plaintext

/-! ## Columns -/

/-- The ciphertexts of a column of texts. -/
def sm4EncryptColumn (engine : Engine) (key : String) (values : List String)
    (mode : Sm4.Mode) (iv : Option String) (encoding : Encoding) :
    Checked Error (List String) := do
  let k ← Checked.ofExcept (engine.sm4Key key encoding)
  let v ← engine.sm4Iv mode key iv encoding
  let ciphertexts ← Checked.ofExcept
    ((mode.encryptRows k v (values.map Utf8.encode)).mapError Error.sm4)
  return ciphertexts.map encoding.encode

/-- The texts of a column of ciphertexts. All rows are read before any is
deciphered. -/
def sm4DecryptColumn (engine : Engine) (key : String) (values : List String)
    (mode : Sm4.Mode) (iv : Option String) (encoding : Encoding) :
    Checked Error (List String) := do
  let k ← Checked.ofExcept (engine.sm4Key key encoding)
  let v ← engine.sm4Iv mode key iv encoding
  let rows ← Checked.ofExcept ((values.mapM encoding.decode).mapError Error.decoding)
  let plaintexts ← Checked.ofExcept ((mode.decryptRows k v rows).mapError Error.sm4)
  return plaintexts.map Utf8.decodeLossy

end ColumnMasking.Engine
