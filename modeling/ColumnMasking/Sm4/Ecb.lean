/-
ColumnMasking.Sm4.Ecb — SM4 with each block enciphered on its own, over
PKCS#7 padding.

The empty text is its own ciphertext, and no key is looked at for it.
Equal blocks of text give equal blocks of ciphertext.
-/
import ColumnMasking.Sm4.Key
import ColumnMasking.Sm4.Padding

namespace ColumnMasking.Sm4

/-- A ciphertext of whole blocks, or the complaint that it is not. -/
def checkAligned (ciphertext : Bytes) : Except Error Unit :=
  if ciphertext.length % blockLength = 0 then .ok () else .error (.unaligned ciphertext.length)

/-- The padded text without its padding. -/
def removePadding (padded : Bytes) : Except Error Bytes :=
  match Padding.unpad? padded with
  | some text => .ok text
  | none => .error .invalidPadding

namespace Ecb

/-- The blocks of a text, each one transformed. -/
def mapBlocks (f : Block → Block) (text : Bytes) : Bytes :=
  (Bytes.chunks blockLength text).flatMap fun c => (f (Block.ofBytes c)).toBytes

/-- The ciphertext of a text. -/
def encrypt (key : Key) (plaintext : Bytes) : Except Error Bytes :=
  if plaintext = [] then .ok []
  else do
    let ks ← key.schedule
    return mapBlocks (Sm4.encrypt ks) (Padding.pad plaintext)

/-- The text of a ciphertext. -/
def decrypt (key : Key) (ciphertext : Bytes) : Except Error Bytes :=
  if ciphertext = [] then .ok []
  else do
    checkAligned ciphertext
    let ks ← key.schedule
    removePadding (mapBlocks (Sm4.decrypt ks) ciphertext)

end Ecb
end ColumnMasking.Sm4
