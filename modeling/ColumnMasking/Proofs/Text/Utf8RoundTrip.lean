/-
ColumnMasking.Proofs.Text.Utf8RoundTrip — a text written as UTF-8 is read
back as itself.

`decode?_encodeChars` is the strict reading, `decodeLossy_encode` the
lossy one: bytes that come from a text contain no run that the lossy
reading would replace.

The proof is one step lemma and one induction. `step_utf8EncodeChar` says
that a step takes exactly the bytes of one character off the front,
whatever follows them. Its cases are the four lengths of a character; in
each of them the first byte announces the rest (`lead?_two`,
`lead?_three`, `lead?_four`) and the other bytes add six bits each
(`follow_last`, `follow_more`). The narrowed ranges of the second byte
are met because a character is no surrogate, is at most `0x10FFFF`, and
was not written in fewer bytes.
-/
import Mathlib.Tactic.IntervalCases
import ColumnMasking.Text.Utf8

namespace ColumnMasking.Utf8

/-! ## Continuation bytes -/

/-- A continuation byte in range gives its six bits. -/
theorem continuation_toNat {t : Nat} (ht : t < 64) :
    (UInt8.ofNat (t + 0x80)).toNat = t + 0x80 := by
  rw [UInt8.toNat_ofNat']
  omega

/-- It is a byte of any range that holds its number. -/
theorem continuation_mem {t : Nat} {low high : UInt8} (ht : t < 64)
    (hlow : low.toNat ≤ t + 0x80) (hhigh : t + 0x80 ≤ high.toNat) :
    low ≤ UInt8.ofNat (t + 0x80) ∧ UInt8.ofNat (t + 0x80) ≤ high := by
  rw [UInt8.le_iff_toNat_le, UInt8.le_iff_toNat_le, continuation_toNat ht]
  exact ⟨hlow, hhigh⟩

/-- The last byte of a character completes its number. -/
theorem follow_last {bits t : Nat} {low high : UInt8} {rest : Bytes} (ht : t < 64)
    (hlow : low.toNat ≤ t + 0x80) (hhigh : t + 0x80 ≤ high.toNat) :
    follow bits 0 low high (UInt8.ofNat (t + 0x80) :: rest)
      = (some (Char.ofNat (bits * 64 + t)), rest) := by
  have hbits : (t + 0x80) % 64 = t := by omega
  rw [follow, if_pos (continuation_mem ht hlow hhigh), continuation_toNat ht, hbits]

/-- A byte before the last one adds its bits and passes on. -/
theorem follow_more {bits more t : Nat} {low high : UInt8} {rest : Bytes} (ht : t < 64)
    (hlow : low.toNat ≤ t + 0x80) (hhigh : t + 0x80 ≤ high.toNat) :
    follow bits (more + 1) low high (UInt8.ofNat (t + 0x80) :: rest)
      = follow (bits * 64 + t) more 0x80 0xBF rest := by
  have hbits : (t + 0x80) % 64 = t := by omega
  rw [follow, if_pos (continuation_mem ht hlow hhigh), continuation_toNat ht, hbits]

/-! ## First bytes -/

/-- The first byte of a character of two bytes. The values 0 and 1 would
be overlong. -/
theorem lead?_two {a : Nat} (hlow : 2 ≤ a) (hhigh : a < 32) :
    lead? (UInt8.ofNat (a + 0xC0)) = some ⟨a, 0, 0x80, 0xBF⟩ := by
  interval_cases a <;> rfl

/-- The first byte of a character of three bytes, with the range that it
leaves to the second one. -/
theorem lead?_three {a : Nat} (h : a < 16) :
    lead? (UInt8.ofNat (a + 0xE0))
      = some ⟨a, 1, if a = 0 then 0xA0 else 0x80, if a = 13 then 0x9F else 0xBF⟩ := by
  interval_cases a <;> rfl

/-- The first byte of a character of four bytes, with the range that it
leaves to the second one. -/
theorem lead?_four {a : Nat} (h : a < 5) :
    lead? (UInt8.ofNat (a + 0xF0))
      = some ⟨a, 2, if a = 0 then 0x90 else 0x80, if a = 4 then 0x8F else 0xBF⟩ := by
  interval_cases a <;> rfl

/-- A byte with its top bit set is no character of its own. -/
theorem step_of_le {a : Nat} {l : Lead} {rest : Bytes} (hlow : 0x80 ≤ a) (hhigh : a < 256)
    (hlead : lead? (UInt8.ofNat a) = some l) :
    step (UInt8.ofNat a) rest = follow l.bits l.more l.low l.high rest := by
  have hlarge : ¬ UInt8.ofNat a < 0x80 := by
    rw [UInt8.lt_iff_toNat_lt, UInt8.toNat_ofNat', Nat.mod_eq_of_lt hhigh]
    simpa using hlow
  rw [step, if_neg hlarge, hlead]

/-! ## One character -/

/-- The bytes of a character are at least one. -/
theorem utf8EncodeChar_eq_cons (c : Char) :
    ∃ b tail, String.utf8EncodeChar c = b :: tail := by
  cases h : String.utf8EncodeChar c with
  | nil => exact absurd h String.utf8EncodeChar_ne_nil
  | cons b tail => exact ⟨b, tail, rfl⟩

/-- A character below 128 is a single byte. -/
theorem utf8EncodeChar_of_lt {c : Char} (h : c.val.toNat < 128) :
    String.utf8EncodeChar c = [UInt8.ofNat c.val.toNat] := by
  unfold String.utf8EncodeChar
  exact if_pos (by omega)

/-- All bytes of a character from 128 on are from 128 on. -/
theorem le_of_mem_utf8EncodeChar {c : Char} (h : 128 ≤ c.val.toNat) {b : UInt8}
    (hb : b ∈ String.utf8EncodeChar c) : ∃ k, 128 ≤ k ∧ k < 256 ∧ b = UInt8.ofNat k := by
  unfold String.utf8EncodeChar at hb
  simp only at hb
  split at hb
  · omega
  · split at hb
    · -- two bytes
      simp only [List.mem_cons, List.not_mem_nil, or_false] at hb
      rcases hb with rfl | rfl
      · exact ⟨_, by omega, by omega, rfl⟩
      · exact ⟨_, by omega, by omega, rfl⟩
    · split at hb
      · -- three bytes
        simp only [List.mem_cons, List.not_mem_nil, or_false] at hb
        rcases hb with rfl | rfl | rfl
        · exact ⟨_, by omega, by omega, rfl⟩
        · exact ⟨_, by omega, by omega, rfl⟩
        · exact ⟨_, by omega, by omega, rfl⟩
      · -- four bytes
        simp only [List.mem_cons, List.not_mem_nil, or_false] at hb
        rcases hb with rfl | rfl | rfl | rfl
        · exact ⟨_, by omega, by omega, rfl⟩
        · exact ⟨_, by omega, by omega, rfl⟩
        · exact ⟨_, by omega, by omega, rfl⟩
        · exact ⟨_, by omega, by omega, rfl⟩

/-- The number of a character is no surrogate and in range. -/
theorem toNat_valid (c : Char) :
    c.val.toNat < 0xD800 ∨ (0xDFFF < c.val.toNat ∧ c.val.toNat < 0x110000) := by
  have h := c.valid
  simpa [UInt32.isValidChar, Nat.isValidChar] using h

/-- A step takes exactly the bytes of one character off the front. -/
theorem step_utf8EncodeChar (c : Char) (rest : Bytes) {b : UInt8} {tail : Bytes}
    (h : String.utf8EncodeChar c = b :: tail) : step b (tail ++ rest) = (some c, rest) := by
  have hvalid := toNat_valid c
  have hchar : Char.ofNat c.val.toNat = c := Char.ofNat_toNat c
  unfold String.utf8EncodeChar at h
  generalize c.val.toNat = n at h hvalid hchar
  simp only at h
  split at h
  · -- one byte
    simp only [List.cons.injEq] at h
    obtain ⟨rfl, rfl⟩ := h
    have hn : (UInt8.ofNat n).toNat = n := by
      rw [UInt8.toNat_ofNat']
      omega
    have hsmall : UInt8.ofNat n < 0x80 := by
      rw [UInt8.lt_iff_toNat_lt, hn]
      simp only [UInt8.reduceToNat]
      omega
    rw [step, if_pos hsmall, hn, hchar]
    rfl
  · split at h
    · -- two bytes
      simp only [List.cons.injEq] at h
      obtain ⟨rfl, rfl⟩ := h
      have hlead := lead?_two (a := n / 64 % 0x20) (by omega) (by omega)
      have hsum : n / 64 % 0x20 * 64 + n % 0x40 = n := by omega
      rw [step_of_le (by omega) (by omega) hlead, List.cons_append, List.nil_append]
      rw [follow_last (by omega) (by simp) (by simp; omega), hsum, hchar]
    · split at h
      · -- three bytes
        simp only [List.cons.injEq] at h
        obtain ⟨rfl, rfl⟩ := h
        have hlead := lead?_three (a := n / 4096 % 0x10) (by omega)
        have hsum : (n / 4096 % 0x10 * 64 + n / 64 % 0x40) * 64 + n % 0x40 = n := by omega
        rw [step_of_le (by omega) (by omega) hlead]
        simp only [List.cons_append, List.nil_append]
        rw [follow_more (by omega) (by split <;> simp; omega) (by split <;> simp <;> omega),
          follow_last (by omega) (by simp) (by simp; omega), hsum, hchar]
      · -- four bytes
        simp only [List.cons.injEq] at h
        obtain ⟨rfl, rfl⟩ := h
        have hlead := lead?_four (a := n / 262144 % 0x08) (by omega)
        have hsum : ((n / 262144 % 0x08 * 64 + n / 4096 % 0x40) * 64 + n / 64 % 0x40) * 64
            + n % 0x40 = n := by omega
        rw [step_of_le (by omega) (by omega) hlead]
        simp only [List.cons_append, List.nil_append]
        rw [follow_more (by omega) (by split <;> simp; omega) (by split <;> simp <;> omega),
          follow_more (by omega) (by simp) (by simp; omega),
          follow_last (by omega) (by simp) (by simp; omega), hsum, hchar]

/-! ## Whole texts -/

/-- The strict reading gives the characters back. -/
theorem decode?_encodeChars : ∀ cs : List Char, decode? (encodeChars cs) = some cs
  | [] => by rw [encodeChars_nil, decode?]
  | c :: cs => by
    obtain ⟨b, tail, hbytes⟩ := utf8EncodeChar_eq_cons c
    have hstep := step_utf8EncodeChar c (encodeChars cs) hbytes
    rw [encodeChars_cons, hbytes, List.cons_append, decode?]
    simp only [hstep]
    rw [decode?_encodeChars cs]
    rfl

/-- The lossy reading of a text written as UTF-8 is the text. -/
theorem decodeLossy_encode (text : String) : decodeLossy (encode text) = text := by
  rw [decodeLossy, encode, decodeLossyChars_of_decode? (decode?_encodeChars text.toList)]
  exact String.ofList_toList

/-- Only the empty text has no bytes. -/
theorem encode_eq_nil_iff {text : String} : encode text = [] ↔ text = "" := by
  constructor
  · intro h
    rw [← decodeLossy_encode text, h, decodeLossy, decodeLossyChars_nil]
  · rintro rfl
    rfl

end ColumnMasking.Utf8
