/-
ColumnMasking.Sm4.Padding — PKCS#7 padding to whole blocks.

A text is filled up with between one and sixteen bytes, each of which
says how many they are. Taking the padding off asks for that form
(`unpad?_pad`).
-/
import ColumnMasking.Sm4.Block

namespace ColumnMasking.Sm4.Padding

/-- How many bytes fill up a text of the given length. -/
def fill (length : Nat) : Nat :=
  blockLength - length % blockLength

/-- The text filled up to whole blocks. -/
def pad (text : Bytes) : Bytes :=
  text ++ List.replicate (fill text.length) (UInt8.ofNat (fill text.length))

/-- The text without its padding, or none where there is no such
padding. -/
def unpad? (padded : Bytes) : Option Bytes :=
  match padded.getLast? with
  | none => none
  | some last =>
    let count := last.toNat
    let text := padded.take (padded.length - count)
    if 0 < count ∧ count ≤ blockLength ∧ padded = text ++ List.replicate count last then
      some text
    else none

/-- Between one and sixteen bytes are added. -/
theorem fill_bounds (length : Nat) : 0 < fill length ∧ fill length ≤ 16 := by
  unfold fill blockLength
  omega

/-- A padded text is a whole number of blocks. -/
theorem length_pad (text : Bytes) : (pad text).length = 16 * (text.length / 16 + 1) := by
  simp only [pad, List.length_append, List.length_replicate, fill, blockLength]
  omega

/-- Padding is taken off again. -/
theorem unpad?_pad (text : Bytes) : unpad? (pad text) = some text := by
  obtain ⟨hpos, hle⟩ := fill_bounds text.length
  generalize hk : fill text.length = k at hpos hle
  have hbyte : (UInt8.ofNat k).toNat = k := by
    simp only [UInt8.toNat_ofNat']
    omega
  have hlast : (pad text).getLast? = some (UInt8.ofNat k) := by
    rw [pad, hk, List.getLast?_append, List.getLast?_replicate]
    simp [Nat.pos_iff_ne_zero.mp hpos]
  have hlen : (pad text).length - k = text.length := by
    simp [pad, hk]
  unfold unpad?
  rw [hlast]
  simp only [hbyte, hlen]
  have htake : (pad text).take text.length = text := by simp [pad]
  rw [htake]
  simp [hpos, hle, blockLength, pad, hk]

end ColumnMasking.Sm4.Padding
