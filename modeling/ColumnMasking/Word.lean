/-
ColumnMasking.Word — the 32-bit words that the hash and the block cipher
compute with.

A word is read from four bytes, the first one most significant, and
written back the same way.
-/
import ColumnMasking.Bytes

namespace ColumnMasking

/-- A 32-bit word. -/
abbrev Word := UInt32

namespace Word

/-- The word that (at most) four bytes spell. -/
def ofBytes (bs : Bytes) : Word :=
  UInt32.ofNat (Bytes.toNat bs)

/-- The four bytes of a word. -/
def toBytes (w : Word) : Bytes :=
  Bytes.ofNat 4 w.toNat

/-- The word rotated to the left by `n` bits, taken modulo 32. -/
def rotateLeft (w n : Word) : Word :=
  (w <<< n) ||| (w >>> (32 - n))

/-- The words of a text whose length is a multiple of four. -/
def listOfBytes (bs : Bytes) : List Word :=
  (Bytes.chunks 4 bs).map ofBytes

/-- A word is four bytes. -/
@[simp] theorem length_toBytes (w : Word) : w.toBytes.length = 4 :=
  Bytes.length_ofNat 4 _

end Word
end ColumnMasking
