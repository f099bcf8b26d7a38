/-
ColumnMasking.Sm4.Block — the SM4 block cipher: one block of four words
under a key of four words.

A round replaces the first word by its exclusive or with a mix of the
other three and a round key, and moves it to the end; after 32 rounds
the words are taken in reverse. The round keys come from the key by the
same scheme with another mix. A round is undone by the same round on the
reversed words, so a block is deciphered by enciphering it under the
round keys in reverse: `decrypt_encrypt`.
-/
import ColumnMasking.Word

namespace ColumnMasking.Sm4

/-! ## Blocks -/

/-- A block of four words. -/
structure Block where
  (w0 w1 w2 w3 : Word)
  deriving DecidableEq, Repr

/-- Bytes in a block. -/
def blockLength : Nat := 16

namespace Block

/-- The block that sixteen bytes spell. -/
def ofBytes (bs : Bytes) : Block :=
  ⟨Word.ofBytes (bs.take 4), Word.ofBytes ((bs.drop 4).take 4),
   Word.ofBytes ((bs.drop 8).take 4), Word.ofBytes ((bs.drop 12).take 4)⟩

/-- The sixteen bytes of a block. -/
def toBytes (b : Block) : Bytes :=
  b.w0.toBytes ++ b.w1.toBytes ++ b.w2.toBytes ++ b.w3.toBytes

/-- The words in reverse. -/
def reverse (b : Block) : Block := ⟨b.w3, b.w2, b.w1, b.w0⟩

/-- A block is sixteen bytes. -/
@[simp] theorem length_toBytes (b : Block) : b.toBytes.length = 16 := by
  simp [toBytes]

/-- Reversing twice changes nothing. -/
@[simp] theorem reverse_reverse (b : Block) : b.reverse.reverse = b := rfl

end Block

/-! ## The nonlinear mix -/

set_option maxRecDepth 4000 in
/-- The substitution of bytes. -/
def sbox : Vector UInt8 256 :=
  #v[0xD6, 0x90, 0xE9, 0xFE, 0xCC, 0xE1, 0x3D, 0xB7, 0x16, 0xB6, 0x14, 0xC2, 0x28, 0xFB, 0x2C, 0x05,
     0x2B, 0x67, 0x9A, 0x76, 0x2A, 0xBE, 0x04, 0xC3, 0xAA, 0x44, 0x13, 0x26, 0x49, 0x86, 0x06, 0x99,
     0x9C, 0x42, 0x50, 0xF4, 0x91, 0xEF, 0x98, 0x7A, 0x33, 0x54, 0x0B, 0x43, 0xED, 0xCF, 0xAC, 0x62,
     0xE4, 0xB3, 0x1C, 0xA9, 0xC9, 0x08, 0xE8, 0x95, 0x80, 0xDF, 0x94, 0xFA, 0x75, 0x8F, 0x3F, 0xA6,
     0x47, 0x07, 0xA7, 0xFC, 0xF3, 0x73, 0x17, 0xBA, 0x83, 0x59, 0x3C, 0x19, 0xE6, 0x85, 0x4F, 0xA8,
     0x68, 0x6B, 0x81, 0xB2, 0x71, 0x64, 0xDA, 0x8B, 0xF8, 0xEB, 0x0F, 0x4B, 0x70, 0x56, 0x9D, 0x35,
     0x1E, 0x24, 0x0E, 0x5E, 0x63, 0x58, 0xD1, 0xA2, 0x25, 0x22, 0x7C, 0x3B, 0x01, 0x21, 0x78, 0x87,
     0xD4, 0x00, 0x46, 0x57, 0x9F, 0xD3, 0x27, 0x52, 0x4C, 0x36, 0x02, 0xE7, 0xA0, 0xC4, 0xC8, 0x9E,
     0xEA, 0xBF, 0x8A, 0xD2, 0x40, 0xC7, 0x38, 0xB5, 0xA3, 0xF7, 0xF2, 0xCE, 0xF9, 0x61, 0x15, 0xA1,
     0xE0, 0xAE, 0x5D, 0xA4, 0x9B, 0x34, 0x1A, 0x55, 0xAD, 0x93, 0x32, 0x30, 0xF5, 0x8C, 0xB1, 0xE3,
     0x1D, 0xF6, 0xE2, 0x2E, 0x82, 0x66, 0xCA, 0x60, 0xC0, 0x29, 0x23, 0xAB, 0x0D, 0x53, 0x4E, 0x6F,
     0xD5, 0xDB, 0x37, 0x45, 0xDE, 0xFD, 0x8E, 0x2F, 0x03, 0xFF, 0x6A, 0x72, 0x6D, 0x6C, 0x5B, 0x51,
     0x8D, 0x1B, 0xAF, 0x92, 0xBB, 0xDD, 0xBC, 0x7F, 0x11, 0xD9, 0x5C, 0x41, 0x1F, 0x10, 0x5A, 0xD8,
     0x0A, 0xC1, 0x31, 0x88, 0xA5, 0xCD, 0x7B, 0xBD, 0x2D, 0x74, 0xD0, 0x12, 0xB8, 0xE5, 0xB4, 0xB0,
     0x89, 0x69, 0x97, 0x4A, 0x0C, 0x96, 0x77, 0x7E, 0x65, 0xB9, 0xF1, 0x09, 0xC5, 0x6E, 0xC6, 0x84,
     0x18, 0xF0, 0x7D, 0xEC, 0x3A, 0xDC, 0x4D, 0x20, 0x79, 0xEE, 0x5F, 0x3E, 0xD7, 0xCB, 0x39, 0x48]

/-- The byte that takes the place of a byte. -/
def substitute (b : UInt8) : UInt8 :=
  sbox.get ⟨b.toNat, b.toNat_lt⟩

/-- The word with each of its bytes substituted. -/
def substituteWord (w : Word) : Word :=
  Word.ofBytes (w.toBytes.map substitute)

/-- The mix of the rounds. -/
def mix (w : Word) : Word :=
  let b := substituteWord w
  b ^^^ b.rotateLeft 2 ^^^ b.rotateLeft 10 ^^^ b.rotateLeft 18 ^^^ b.rotateLeft 24

/-- The mix of the key schedule. -/
def keyMix (w : Word) : Word :=
  let b := substituteWord w
  b ^^^ b.rotateLeft 13 ^^^ b.rotateLeft 23

/-! ## Rounds -/

/-- One round with a mix: the words move up and the first one comes back
at the end, changed. -/
def round (f : Word → Word) (b : Block) (roundKey : Word) : Block :=
  ⟨b.w1, b.w2, b.w3, b.w0 ^^^ f (b.w1 ^^^ b.w2 ^^^ b.w3 ^^^ roundKey)⟩

/-- The rounds under a list of round keys, and the final reversal. -/
def crypt (roundKeys : List Word) (b : Block) : Block :=
  (roundKeys.foldl (round mix) b).reverse

/-- A round undoes itself on the reversed words. -/
theorem round_reverse_round (f : Word → Word) (b : Block) (k : Word) :
    (round f (round f b k).reverse k).reverse = b := by
  cases b with
  | mk w0 w1 w2 w3 =>
    have comm : w3 ^^^ w2 ^^^ w1 ^^^ k = w1 ^^^ w2 ^^^ w3 ^^^ k := by
      rw [UInt32.xor_comm w3 w2, UInt32.xor_assoc w2 w3 w1, UInt32.xor_comm w3 w1,
        ← UInt32.xor_assoc w2 w1 w3, UInt32.xor_comm w2 w1]
    simp only [round, Block.reverse, comm]
    rw [UInt32.xor_assoc, UInt32.xor_self, UInt32.xor_zero]

/-- A fold of rounds is undone by the same rounds in reverse. -/
theorem foldl_round_reverse (f : Word → Word) : ∀ (ks : List Word) (b : Block),
    (ks.reverse.foldl (round f) (ks.foldl (round f) b).reverse).reverse = b
  | [], b => by simp
  | k :: ks, b => by
    have ih := foldl_round_reverse f ks (round f b k)
    have h : ks.reverse.foldl (round f) (ks.foldl (round f) (round f b k)).reverse
        = (round f b k).reverse := by
      rw [← Block.reverse_reverse (List.foldl _ _ _), ih]
    simp only [List.foldl_cons, List.reverse_cons, List.foldl_append, List.foldl_nil]
    rw [h, round_reverse_round]

/-! ## The key schedule -/

/-- The words added to a key before the schedule starts. -/
def systemKey : Block := ⟨0xA3B1BAC6, 0x56AA3350, 0x677D9197, 0xB27022DC⟩

/-- The constant of a round of the schedule: its bytes are multiples of
seven. -/
def scheduleConstant (i : Nat) : Word :=
  Word.ofBytes ((List.range 4).map fun j => UInt8.ofNat ((4 * i + j) * 7))

/-- `count` round keys from round `i` on. -/
def scheduleFrom (b : Block) (i : Nat) : (count : Nat) → List Word
  | 0 => []
  | count + 1 =>
    let next := round keyMix b (scheduleConstant i)
    next.w3 :: scheduleFrom next (i + 1) count

/-- The 32 round keys of a key. -/
def roundKeys (key : Block) : List Word :=
  scheduleFrom ⟨key.w0 ^^^ systemKey.w0, key.w1 ^^^ systemKey.w1,
    key.w2 ^^^ systemKey.w2, key.w3 ^^^ systemKey.w3⟩ 0 32

/-! ## The cipher -/

/-- A block enciphered under round keys. -/
def encrypt (roundKeys : List Word) (b : Block) : Block :=
  crypt roundKeys b

/-- A block deciphered under round keys. -/
def decrypt (roundKeys : List Word) (b : Block) : Block :=
  crypt roundKeys.reverse b

/-- Deciphering undoes enciphering. -/
theorem decrypt_encrypt (ks : List Word) (b : Block) : decrypt ks (encrypt ks b) = b :=
  foldl_round_reverse mix ks b

/-- Enciphering undoes deciphering. -/
theorem encrypt_decrypt (ks : List Word) (b : Block) : encrypt ks (decrypt ks b) = b := by
  have h := foldl_round_reverse mix ks.reverse b
  rwa [List.reverse_reverse] at h

end ColumnMasking.Sm4
