/-
ColumnMasking.Sm4.Key — keys and IVs of SM4, and what can go wrong with
them and with the text they protect.

A key or an IV may hold any bytes: stored ones are not looked at until
they are used, so the modes check the lengths themselves.
-/
import ColumnMasking.Entropy
import ColumnMasking.ErrorKind
import ColumnMasking.KeyMaterial
import ColumnMasking.Sm4.Block
import ColumnMasking.Sm4.Mode

namespace ColumnMasking.Sm4

/-! ## Errors -/

/-- Why an SM4 operation fails. -/
inductive Error where
  /-- No random bytes for a new key. -/
  | keyGeneration
  | keySize (actual : Nat)
  | ivSize (expected actual : Nat)
  | keyMaterial (cause : KeyMaterial.Error)
  | missingIv (mode : Mode)
  | unexpectedAad (mode : Mode)
  | encryption (detail : String)
  | invalidPadding
  | tagMismatch
  /-- The length of a ciphertext is no multiple of a block. -/
  | unaligned (length : Nat)
  /-- A ciphertext is shorter than a tag. -/
  | shorterThanTag
  deriving DecidableEq, Repr

namespace Error

/-- The class of the failure. -/
def kind : Error → ErrorKind
  | keySize _ | ivSize _ _ | keyMaterial _ => .invalidKey
  | missingIv _ | unexpectedAad _ => .invalidArgument
  | keyGeneration | encryption _ => .encryption
  | invalidPadding | tagMismatch | unaligned _ | shorterThanTag => .decryption

/-- The reason in words. -/
def message : Error → String
  | keyGeneration => "Key generation failed: " ++ Entropy.exhausted
  | keySize actual => "Invalid key size: expected 16, got " ++ toString actual
  | ivSize expected actual =>
    "Invalid IV size: expected " ++ toString expected ++ ", got " ++ toString actual
  | keyMaterial cause => "Key material error: " ++ cause.message
  | missingIv mode => "SM4/" ++ mode.name ++ " requires an IV or nonce"
  | unexpectedAad mode =>
    "Additional authenticated data is only supported by SM4/GCM, not SM4/" ++ mode.name
  | encryption detail => "Encryption failed: " ++ detail
  | invalidPadding => "Decryption failed: invalid PKCS7 padding"
  | tagMismatch => "Decryption failed: authentication tag mismatch"
  | unaligned length =>
    "Ciphertext is malformed or truncated: length " ++ toString length
      ++ " is not a multiple of 16"
  | shorterThanTag =>
    "Ciphertext is malformed or truncated: ciphertext is shorter than the authentication tag"

end Error

/-! ## Keys -/

/-- An SM4 key. -/
structure Key where
  bytes : Bytes
  deriving DecidableEq, Repr

namespace Key

/-- Bytes of a usable key. -/
def size : Nat := blockLength

/-- The key of exactly sixteen bytes. -/
def ofBytes (bs : Bytes) : Except Error Key :=
  if bs.length = size then .ok ⟨bs⟩ else .error (.keySize bs.length)

/-- The key that resolved material holds, whatever its role. -/
def ofMaterial (m : KeyMaterial) : Except Error Key :=
  ofBytes m.bytes

/-- The round keys, if the key has the right size. -/
def schedule (key : Key) : Except Error (List Word) :=
  if key.bytes.length = size then .ok (roundKeys (Block.ofBytes key.bytes))
  else .error (.keySize key.bytes.length)

/-- A new key. -/
def generate : Drawing Error Key := do
  let bs ← Entropy.draw size Error.keyGeneration
  return ⟨bs⟩

/-- The hexadecimal text of a key. -/
def exportText (key : Key) : String := Hex.encode key.bytes

/-- The key of a text. -/
def importText (text : String) : Except Error Key := do
  let m ← (KeyMaterial.sm4Key text .hex).mapError .keyMaterial
  ofMaterial m

end Key

/-! ## IVs and nonces -/

/-- An IV or a nonce. -/
structure Iv where
  bytes : Bytes
  deriving DecidableEq, Repr

namespace Iv

/-- The lengths of a GCM nonce. -/
def nonceLengths : List Nat := [KeyMaterial.nonceLength, blockLength]

/-- The IV of exactly sixteen bytes. -/
def ofBytes (bs : Bytes) : Except Error Iv :=
  if bs.length = blockLength then .ok ⟨bs⟩ else .error (.ivSize blockLength bs.length)

/-- The nonce of twelve or sixteen bytes. -/
def nonce (bs : Bytes) : Except Error Iv :=
  if bs.length ∈ nonceLengths then .ok ⟨bs⟩
  else .error (.ivSize KeyMaterial.nonceLength bs.length)

/-- The IV that resolved material holds, whatever its role. The length
that a mode asks for is checked when the mode runs. -/
def ofMaterial (m : KeyMaterial) : Except Error Iv :=
  nonce m.bytes

/-- The bytes of an IV that a mode cannot do without. A wrong length is
measured against the last of the lengths it admits. -/
def require (mode : Mode) (iv : Option Iv) (lengths : List Nat) : Except Error Bytes :=
  match iv with
  | none => .error (.missingIv mode)
  | some iv =>
    if iv.bytes.length ∈ lengths then .ok iv.bytes
    else .error (.ivSize (lengths.getLastD blockLength) iv.bytes.length)

end Iv
end ColumnMasking.Sm4
