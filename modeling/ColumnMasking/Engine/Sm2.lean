/-
ColumnMasking.Engine.Sm2 — masking with SM2: texts in, texts out.

Key texts are read under the encoding of the settings, ciphertexts and
signatures under the encoding of the call.
-/
import ColumnMasking.Engine
import ColumnMasking.Sm2.Encryption
import ColumnMasking.Sm2.Signature

namespace ColumnMasking.Engine

/-! ## Keys -/

/-- The public key of a text. -/
def sm2PublicKey (engine : Engine) (text : String) : Checked Error Sm2.PublicKey := do
  let m ← (KeyMaterial.sm2PublicKey text engine.settings.keyEncoding
    engine.settings.strictPublicKey).adapt Error.keyMaterial
  Checked.ofExcept ((Sm2.PublicKey.ofMaterial m).mapError .sm2)

/-- The private key of a text. -/
def sm2PrivateKey (engine : Engine) (text : String) : Except Error Sm2.PrivateKey := do
  let m ← (KeyMaterial.sm2PrivateKey text engine.settings.keyEncoding).mapError .keyMaterial
  (Sm2.PrivateKey.ofMaterial m).mapError .sm2

/-- The public key of a private key text, as the 128 digits of its
coordinates. -/
def sm2PublicKeyOf (engine : Engine) (privateKey : String) : Except Error String := do
  let key ← engine.sm2PrivateKey privateKey
  let publicKey ← key.publicKey.mapError .sm2
  return Hex.encode publicKey.coordinates

/-- A new key pair: the 130 digits of the public key and the 64 digits of
the private key. -/
def generateSm2KeyPair (_ : Engine) : Drawing Error (String × String) := do
  let pair ← Sm2.KeyPair.generate.adapt Error.sm2
  return (pair.publicKey.exportText, pair.privateKey.exportText)

/-! ## Encryption -/

/-- The ciphertext of bytes under a public key. -/
def sm2EncryptBytes (_ : Engine) (key : Sm2.PublicKey) (plaintext : Bytes)
    (layout : Sm2.Layout) : Drawing Error Bytes :=
  (key.encrypt layout plaintext).adapt Error.sm2

/-- The bytes of a ciphertext under a private key. -/
def sm2DecryptBytes (_ : Engine) (key : Sm2.PrivateKey) (ciphertext : Bytes)
    (layout : Sm2.Layout) : Except Error Bytes :=
  (key.decrypt layout ciphertext).mapError .sm2

/-- The ciphertext of a text. The empty text is its own ciphertext, and
the key is not looked at for it. -/
def sm2Encrypt (engine : Engine) (publicKey plaintext : String) (layout : Sm2.Layout)
    (encoding : Encoding) : Call String :=
  if plaintext = "" then pure ""
  else do
    let key ← Call.ofChecked (engine.sm2PublicKey publicKey)
    let ciphertext ←
      Call.ofDrawing (engine.sm2EncryptBytes key (Utf8.encode plaintext) layout)
    return encoding.encode ciphertext

/-- The text of a ciphertext. Without a ciphertext or a key there is
none. -/
def sm2Decrypt (engine : Engine) (privateKey ciphertext : String) (layout : Sm2.Layout)
    (encoding : Encoding) : Except Error (Option String) :=
  if ciphertext = "" ∨ privateKey = "" then .ok none
  else do
    let key ← engine.sm2PrivateKey privateKey
    let bytes ← (encoding.decode ciphertext).mapError .decoding
    let plaintext ← engine.sm2DecryptBytes key bytes layout
    return some (Utf8.decodeLossy plaintext)

/-! ## Signatures -/

/-- The identity to sign or verify under: the default one where none is
given or the one given is empty. -/
def identityOr (identity : Option String) : String :=
  match identity with
  | some id => if id = "" then Sm2.defaultIdentity else id
  | none => Sm2.defaultIdentity

/-- The signature of a text. -/
def sm2Sign (engine : Engine) (privateKey message : String) (identity : Option String)
    (encoding : Encoding) : Except Error String := do
  let key ← engine.sm2PrivateKey privateKey
  let signature ← (key.sign (Utf8.encode message) (identityOr identity)).mapError .sm2
  return encoding.encode signature

/-- Whether a text is the signature of a text. -/
def sm2Verify (engine : Engine) (publicKey message signature : String)
    (identity : Option String) (encoding : Encoding) : Checked Error Bool := do
  let key ← engine.sm2PublicKey publicKey
  let bytes ← Checked.ofExcept ((encoding.decode signature).mapError Error.decoding)
  Checked.ofExcept
    ((key.verify (Utf8.encode message) bytes (identityOr identity)).mapError Error.sm2)

end ColumnMasking.Engine
