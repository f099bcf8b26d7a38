/-
ColumnMasking.Sm4.Gcm — SM4 as a key stream with an authentication tag.

The nonce fixes a first counter: twelve bytes followed by the number
one, or the hash of sixteen. The key stream is made of the enciphered
counters after the first and is added to the text by exclusive or. The
tag covers the additional data, the ciphertext and both lengths; it is
covered itself by the enciphered first counter and stands at the end of
the ciphertext.

The empty text is its own ciphertext. The lengths of text and additional
data are limited to 2^36 bytes; a ciphertext may be a tag longer.
-/
import ColumnMasking.Sm4.Ghash
import ColumnMasking.Sm4.Key

namespace ColumnMasking.Sm4.Gcm

/-- Bytes in a tag. -/
def tagLength : Nat := 16

/-- The most bytes of text, and of additional data. -/
def maxLength : Nat := 1 <<< 36

/-! ## Key stream -/

/-- The counter with its last word advanced by one. -/
def increment (counter : Block) : Block :=
  { counter with w3 := counter.w3 + 1 }

/-- `count` blocks of key stream, from the counter after the given one. -/
def streamBlocks (ks : List Word) (counter : Block) : (count : Nat) → Bytes
  | 0 => []
  | count + 1 =>
    let next := increment counter
    (Sm4.encrypt ks next).toBytes ++ streamBlocks ks next count

/-- Key stream enough for `length` bytes. -/
def stream (ks : List Word) (counter : Block) (length : Nat) : Bytes :=
  streamBlocks ks counter ((length + 15) / 16)

/-- The text covered with key stream, or uncovered again. -/
def cover (ks : List Word) (counter : Block) (text : Bytes) : Bytes :=
  Bytes.xor text (stream ks counter text.length)

/-- The key stream has a fixed count of blocks. -/
@[simp] theorem length_streamBlocks (ks : List Word) : ∀ (counter : Block) (count : Nat),
    (streamBlocks ks counter count).length = 16 * count
  | _, 0 => rfl
  | counter, count + 1 => by
    simp only [streamBlocks, List.length_append, Block.length_toBytes,
      length_streamBlocks ks _ count]
    omega

/-- Key stream is long enough. -/
theorem le_length_stream (ks : List Word) (counter : Block) (length : Nat) :
    length ≤ (stream ks counter length).length := by
  rw [stream, length_streamBlocks]
  omega

/-- Covering keeps the length. -/
@[simp] theorem length_cover (ks : List Word) (counter : Block) (text : Bytes) :
    (cover ks counter text).length = text.length := by
  rw [cover, Bytes.length_xor]
  exact Nat.min_eq_left (le_length_stream ..)

/-- Covering twice gives the text back. -/
theorem cover_cover (ks : List Word) (counter : Block) (text : Bytes) :
    cover ks counter (cover ks counter text) = text := by
  have h : cover ks counter (cover ks counter text)
      = Bytes.xor (Bytes.xor text (stream ks counter text.length))
          (stream ks counter text.length) := by
    rw [cover, length_cover, cover]
  rw [h, Bytes.xor_xor (le_length_stream ..)]

/-! ## Counter and tag -/

/-- The hash key of round keys: the enciphered zero block. -/
def hashKey (ks : List Word) : Ghash.Element :=
  Ghash.Element.ofBytes (Sm4.encrypt ks ⟨0, 0, 0, 0⟩).toBytes

/-- The first counter of a nonce. -/
def firstCounter (ks : List Word) (nonce : Bytes) : Block :=
  if nonce.length = KeyMaterial.nonceLength then Block.ofBytes (nonce ++ Bytes.ofNat 4 1)
  else
    let text := Ghash.zeroPad nonce ++ Bytes.ofNat 8 0 ++ Ghash.bitLength nonce
    Block.ofBytes (Ghash.hash (hashKey ks) text).toBytes

/-- The tag of additional data and ciphertext. -/
def tag (ks : List Word) (counter : Block) (aad ciphertext : Bytes) : Bytes :=
  let text := Ghash.zeroPad aad ++ Ghash.zeroPad ciphertext
    ++ Ghash.bitLength aad ++ Ghash.bitLength ciphertext
  Bytes.xor (Ghash.hash (hashKey ks) text).toBytes (Sm4.encrypt ks counter).toBytes

/-- A tag has sixteen bytes. -/
@[simp] theorem length_tag (ks : List Word) (counter : Block) (aad ciphertext : Bytes) :
    (tag ks counter aad ciphertext).length = tagLength := by
  simp [tag, Ghash.Element.toBytes, blockLength, tagLength]

/-! ## The mode -/

/-- The covered text and its tag. -/
def sealed (ks : List Word) (nonce aad plaintext : Bytes) : Bytes :=
  let counter := firstCounter ks nonce
  let body := cover ks counter plaintext
  body ++ tag ks counter aad body

/-- The uncovered text, if the tag at the end is right. -/
def unsealed? (ks : List Word) (nonce aad ciphertext : Bytes) : Option Bytes :=
  let counter := firstCounter ks nonce
  let body := ciphertext.take (ciphertext.length - tagLength)
  if ciphertext.drop (ciphertext.length - tagLength) = tag ks counter aad body then
    some (cover ks counter body)
  else none

/-- The ciphertext of a text; no additional data is the same as empty
data. -/
def encrypt (key : Key) (iv : Option Iv) (plaintext : Bytes) (aad : Option Bytes) :
    Except Error Bytes := do
  let nonce ← Iv.require .gcm iv Iv.nonceLengths
  if plaintext = [] then return []
  let ks ← key.schedule
  let aad := aad.getD []
  if maxLength < plaintext.length ∨ maxLength < aad.length then
    throw (.encryption "aead::Error")
  return sealed ks nonce aad plaintext

/-- The text of a ciphertext whose tag is right. -/
def decrypt (key : Key) (iv : Option Iv) (ciphertext : Bytes) (aad : Option Bytes) :
    Except Error Bytes := do
  let nonce ← Iv.require .gcm iv Iv.nonceLengths
  if ciphertext = [] then return []
  if ciphertext.length < tagLength then throw .shorterThanTag
  let ks ← key.schedule
  let aad := aad.getD []
  if maxLength + tagLength < ciphertext.length - tagLength ∨ maxLength < aad.length then
    throw .tagMismatch
  match unsealed? ks nonce aad ciphertext with
  | some plaintext => return plaintext
  | none => throw .tagMismatch

end ColumnMasking.Sm4.Gcm
