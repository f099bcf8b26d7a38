/-
ColumnMasking.Proofs.Sm4.XoredBlocks — the exclusive or of blocks is the
exclusive or of their bytes.

Both are taken bit by bit, so nothing is carried from one byte to the next:
the bytes of a number's exclusive or are those of its bytes
(`Bytes.ofNat_xor`), in words and in blocks (`Block.toBytes_xor`). What a
mode does to blocks can therefore be told byte by byte.
-/
import ColumnMasking.Proofs.Sm4.BlockTexts

namespace ColumnMasking

/-! ## 1. Bytes -/

namespace Bytes

/-- The exclusive or at a position. -/
theorem getElem?_xor (as bs : Bytes) (i : Nat) :
    (xor as bs)[i]? = (as[i]?).bind fun a => (bs[i]?).map fun b => a ^^^ b := by
  rw [xor, List.getElem?_zipWith']
  cases as[i]? <;> cases bs[i]? <;> rfl

/-- The exclusive or of texts in two parts, the first ones equally long. -/
theorem xor_append {as bs : Bytes} (h : as.length = bs.length) (as' bs' : Bytes) :
    xor (as ++ as') (bs ++ bs') = xor as bs ++ xor as' bs' :=
  List.zipWith_append h

/-- Zeros add nothing. -/
theorem xor_zeros (bs : Bytes) : xor bs (List.replicate bs.length 0) = bs := by
  induction bs with
  | nil => rfl
  | cons b bs ih => simp_all [xor, List.replicate_succ]

/-- The bytes of an exclusive or of numbers. -/
theorem ofNat_xor (width m n : Nat) :
    ofNat width (m ^^^ n) = xor (ofNat width m) (ofNat width n) := by
  induction width generalizing m n with
  | zero => rfl
  | succ width ih =>
    have hfront : (m ^^^ n) / 256 = m / 256 ^^^ n / 256 :=
      Nat.xor_div_two_pow (n := 8)
    have hlast : UInt8.ofNat (m ^^^ n) = UInt8.ofNat m ^^^ UInt8.ofNat n := UInt8.ofNat_xor m n
    rw [ofNat, ofNat, ofNat, xor_append (by simp), hfront, ih, hlast]
    rfl

end Bytes

/-! ## 2. Words and blocks -/

/-- The bytes of an exclusive or of words. -/
theorem Word.toBytes_xor (v w : Word) : (v ^^^ w).toBytes = Bytes.xor v.toBytes w.toBytes := by
  rw [toBytes, UInt32.toNat_xor, Bytes.ofNat_xor]
  rfl

namespace Sm4.Block

/-- The bytes of an exclusive or of blocks. -/
theorem toBytes_xor (a b : Block) : (a.xor b).toBytes = Bytes.xor a.toBytes b.toBytes := by
  simp only [toBytes, xor, Word.toBytes_xor]
  rw [Bytes.xor_append (by simp), Bytes.xor_append (by simp), Bytes.xor_append (by simp)]

/-- The block of an exclusive or of sixteen bytes. -/
theorem ofBytes_xor {as bs : Bytes} (ha : as.length = blockLength) (hb : bs.length = blockLength) :
    ofBytes (Bytes.xor as bs) = (ofBytes as).xor (ofBytes bs) := by
  rw [← ofBytes_toBytes ((ofBytes as).xor (ofBytes bs)), toBytes_xor, toBytes_ofBytes ha,
    toBytes_ofBytes hb]

theorem ofBytes_inj {as bs : Bytes} (ha : as.length = blockLength) (hb : bs.length = blockLength) :
    ofBytes as = ofBytes bs ↔ as = bs := by
  constructor
  · intro h
    rw [← toBytes_ofBytes ha, h, toBytes_ofBytes hb]
  · exact congrArg ofBytes

theorem toBytes_inj {a b : Block} : a.toBytes = b.toBytes ↔ a = b := by
  constructor
  · intro h
    rw [← ofBytes_toBytes a, h, ofBytes_toBytes]
  · exact congrArg toBytes

theorem xor_comm (a b : Block) : a.xor b = b.xor a := by
  simp only [xor, UInt32.xor_comm]

theorem xor_assoc (a b c : Block) : (a.xor b).xor c = a.xor (b.xor c) := by
  simp only [xor, UInt32.xor_assoc]

/-- Adding different blocks to a block makes a difference. -/
theorem xor_right_inj {a b c : Block} : a.xor b = a.xor c ↔ b = c := by
  constructor
  · intro h
    rw [← xor_xor b a, xor_comm b a, h, xor_comm a c, xor_xor]
  · exact congrArg a.xor

end Sm4.Block
end ColumnMasking
