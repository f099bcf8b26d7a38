/-
ColumnMasking.Sm4.Cbc — SM4 with each block chained to the one before,
over PKCS#7 padding.

Before a block of text is enciphered, the ciphertext block before it is
added by exclusive or; for the first block that is the IV. The IV is
asked for before all else, even for the empty text, which is its own
ciphertext.
-/
import ColumnMasking.Sm4.Ecb

namespace ColumnMasking.Sm4

/-- The exclusive or of two blocks. -/
def Block.xor (a b : Block) : Block :=
  ⟨a.w0 ^^^ b.w0, a.w1 ^^^ b.w1, a.w2 ^^^ b.w2, a.w3 ^^^ b.w3⟩

/-- The blocks of a text of whole blocks. -/
def blocksOf (text : Bytes) : List Block :=
  (Bytes.chunks blockLength text).map Block.ofBytes

namespace Cbc

/-- Enciphers blocks, each added to the one enciphered before it. -/
def chain (ks : List Word) : (previous : Block) → List Block → List Block
  | _, [] => []
  | previous, b :: rest =>
    let c := Sm4.encrypt ks (b.xor previous)
    c :: chain ks c rest

/-- Deciphers blocks, each added to the ciphertext block before it. -/
def unchain (ks : List Word) : (previous : Block) → List Block → List Block
  | _, [] => []
  | previous, c :: rest => (Sm4.decrypt ks c).xor previous :: unchain ks c rest

/-- The ciphertext of a text. -/
def encrypt (key : Key) (iv : Option Iv) (plaintext : Bytes) : Except Error Bytes := do
  let iv ← Iv.require .cbc iv [blockLength]
  if plaintext = [] then return []
  let ks ← key.schedule
  return (chain ks (Block.ofBytes iv) (blocksOf (Padding.pad plaintext))).flatMap Block.toBytes

/-- The text of a ciphertext. -/
def decrypt (key : Key) (iv : Option Iv) (ciphertext : Bytes) : Except Error Bytes := do
  let iv ← Iv.require .cbc iv [blockLength]
  if ciphertext = [] then return []
  checkAligned ciphertext
  let ks ← key.schedule
  removePadding ((unchain ks (Block.ofBytes iv) (blocksOf ciphertext)).flatMap Block.toBytes)

end Cbc
end ColumnMasking.Sm4
