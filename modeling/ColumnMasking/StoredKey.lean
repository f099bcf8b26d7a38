/-
ColumnMasking.StoredKey — keys and IVs as JSON values: arrays of bytes.

A stored key is taken as it stands; its length is not looked at until it
is used. The two secret kinds, SM4 keys and SM2 private keys, may also
be written as strings, which stand for their own bytes.
-/
import ColumnMasking.Json.Reader
import ColumnMasking.Sm2.Key
import ColumnMasking.Sm4.Key

namespace ColumnMasking

/-- The bytes of a text that holds an array of bytes. -/
def Json.parseByteArray? (text : List Char) : Option Bytes :=
  (parse? text).bind bytes?

namespace Sm4

/-- The key that a text holds. -/
def Key.ofStored? (text : List Char) : Option Key :=
  (Json.parseBytes? text).map (⟨·⟩)

/-- The value that holds a key. -/
def Key.toJson (key : Key) : Json := .ofBytes key.bytes

/-- The IV that a text holds. -/
def Iv.ofStored? (text : List Char) : Option Iv :=
  (Json.parseByteArray? text).map (⟨·⟩)

/-- The value that holds an IV. -/
def Iv.toJson (iv : Iv) : Json := .ofBytes iv.bytes

end Sm4

namespace Sm2

/-- The public key that a text holds. -/
def PublicKey.ofStored? (text : List Char) : Option PublicKey :=
  (Json.parseByteArray? text).map (⟨·⟩)

/-- The value that holds a public key. -/
def PublicKey.toJson (key : PublicKey) : Json := .ofBytes key.bytes

/-- The private key that a text holds. -/
def PrivateKey.ofStored? (text : List Char) : Option PrivateKey :=
  (Json.parseBytes? text).map (⟨·⟩)

/-- The value that holds a private key. -/
def PrivateKey.toJson (key : PrivateKey) : Json := .ofBytes key.bytes

end Sm2
end ColumnMasking
