/-
ColumnMasking.Proofs.NumberBytes — bytes and the numbers they spell
determine each other.

A number that fits is read back from its bytes (`Bytes.toNat_ofNat`), and
bytes are written back from their number (`Bytes.ofNat_toNat`); the only
condition is the count of bytes. Words are the case of four bytes.
-/
import Mathlib.Algebra.Group.Nat.Defs
import Mathlib.Data.List.Induction
import ColumnMasking.Word

namespace ColumnMasking

namespace Bytes

/-- The bytes spell a number that fits in them. -/
theorem toNat_lt (bs : Bytes) : toNat bs < 256 ^ bs.length := by
  induction bs using List.reverseRecOn with
  | nil => simp
  | append_singleton bs b ih =>
    have hb : b.toNat < 256 := b.toNat_lt
    rw [toNat_concat, List.length_append, List.length_singleton, Nat.pow_succ]
    omega

/-- What is read from the bytes of a number is its remainder. -/
theorem toNat_ofNat : ∀ (width n : Nat), toNat (ofNat width n) = n % 256 ^ width
  | 0, n => by simp [ofNat, Nat.mod_one]
  | width + 1, n => by
    have hlast : (UInt8.ofNat n).toNat = n % 256 := UInt8.toNat_ofNat'
    rw [ofNat, toNat_concat, toNat_ofNat width, hlast, Nat.pow_succ, Nat.mul_comm (256 ^ width),
      Nat.mod_mul]
    omega

/-- A number that fits is read back from its bytes. -/
theorem toNat_ofNat_of_lt {width n : Nat} (h : n < 256 ^ width) :
    toNat (ofNat width n) = n := by
  rw [toNat_ofNat, Nat.mod_eq_of_lt h]

/-- Bytes are written back from their number. -/
theorem ofNat_toNat (bs : Bytes) : ofNat bs.length (toNat bs) = bs := by
  induction bs using List.reverseRecOn with
  | nil => rfl
  | append_singleton bs b ih =>
    have hb : b.toNat < 256 := b.toNat_lt
    have hfront : (256 * toNat bs + b.toNat) / 256 = toNat bs := by omega
    have hlast : UInt8.ofNat (256 * toNat bs + b.toNat) = b := by
      rw [← UInt8.toNat_inj, UInt8.toNat_ofNat']
      omega
    rw [toNat_concat, List.length_append, List.length_singleton, ofNat, hfront, hlast, ih]

/-- Bytes of a known count are written back from their number. -/
theorem ofNat_toNat_of_length {width : Nat} {bs : Bytes} (h : bs.length = width) :
    ofNat width (toNat bs) = bs := by
  rw [← h, ofNat_toNat]

end Bytes

namespace Word

/-- A word is read back from its bytes. -/
@[simp] theorem ofBytes_toBytes (w : Word) : ofBytes w.toBytes = w := by
  have hw : w.toNat < 256 ^ 4 := w.toNat_lt
  rw [ofBytes, toBytes, Bytes.toNat_ofNat_of_lt hw, UInt32.ofNat_toNat]

/-- Four bytes are written back from their word. -/
theorem toBytes_ofBytes {bs : Bytes} (h : bs.length = 4) : (ofBytes bs).toBytes = bs := by
  have hlt : Bytes.toNat bs < 2 ^ 32 := by
    have := Bytes.toNat_lt bs
    rwa [h] at this
  rw [ofBytes, toBytes, UInt32.toNat_ofNat_of_lt' hlt, Bytes.ofNat_toNat_of_length h]

end Word
end ColumnMasking
