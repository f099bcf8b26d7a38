/-
ColumnMasking.Bytes — byte strings as lists, and the numbers they spell.

A byte string is read as an unsigned number with its first byte most
significant, and a number is written in a fixed count of bytes the same
way. The other two operations are the ones block ciphers are built
from: the bytewise exclusive or, and the cut into equal pieces.

The small laws beside the definitions say what each operation does to
the length.
-/

namespace ColumnMasking

/-- A byte string. -/
abbrev Bytes := List UInt8

namespace Bytes

/-! ## Numbers -/

/-- The unsigned number that the bytes spell, the first one most
significant. -/
def toNat (bs : Bytes) : Nat :=
  bs.foldl (fun n b => 256 * n + b.toNat) 0

/-- The last `width` bytes of a number, the first one most significant. -/
def ofNat : (width : Nat) → Nat → Bytes
  | 0, _ => []
  | width + 1, n => ofNat width (n / 256) ++ [UInt8.ofNat n]

/-- A number is written in as many bytes as were asked for. -/
@[simp] theorem length_ofNat : ∀ (width n : Nat), (ofNat width n).length = width
  | 0, _ => rfl
  | width + 1, n => by simp [ofNat, length_ofNat width]

/-- No bytes spell zero. -/
@[simp] theorem toNat_nil : toNat [] = 0 := rfl

/-- One more byte at the end shifts the number by a byte. -/
theorem toNat_concat (bs : Bytes) (b : UInt8) :
    toNat (bs ++ [b]) = 256 * toNat bs + b.toNat := by
  simp [toNat]

/-! ## Exclusive or -/

/-- The bytewise exclusive or, as long as the shorter of the two. -/
def xor (as bs : Bytes) : Bytes :=
  List.zipWith (· ^^^ ·) as bs

/-- The exclusive or is as long as the shorter operand. -/
@[simp] theorem length_xor (as bs : Bytes) :
    (xor as bs).length = min as.length bs.length := by
  simp [xor]

/-- Covering text twice with the same stream uncovers it. -/
theorem xor_xor : ∀ {as bs : Bytes}, as.length ≤ bs.length → xor (xor as bs) bs = as
  | [], _, _ => by simp [xor]
  | a :: as, [], h => by simp at h
  | a :: as, b :: bs, h => by
    have ih := @xor_xor as bs (by simpa using h)
    simp only [xor] at ih
    simp only [xor, List.zipWith_cons_cons, ih, UInt8.xor_assoc, UInt8.xor_self, UInt8.xor_zero]

/-! ## Pieces -/

/-- The text cut into pieces of `size` bytes, the last one possibly
shorter. -/
def chunks (size : Nat) (bs : Bytes) : List Bytes :=
  if bs = [] ∨ size = 0 then [] else bs.take size :: chunks size (bs.drop size)
termination_by bs.length
decreasing_by
  rename_i h
  have : 0 < bs.length := List.length_pos_iff.mpr (fun e => h (.inl e))
  simp only [List.length_drop]
  omega

/-- The empty text has no pieces. -/
@[simp] theorem chunks_nil (size : Nat) : chunks size [] = [] := by
  rw [chunks]; simp

/-- A first piece of exactly `size` bytes is cut off whole. -/
theorem chunks_append {size : Nat} {front : Bytes} (rest : Bytes)
    (hsize : 0 < size) (hfront : front.length = size) :
    chunks size (front ++ rest) = front :: chunks size rest := by
  have hne : front ≠ [] := fun e => by simp [e] at hfront; omega
  rw [chunks]
  simp [hne, ← hfront]

end Bytes
end ColumnMasking
