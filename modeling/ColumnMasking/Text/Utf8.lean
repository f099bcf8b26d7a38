/-
ColumnMasking.Text.Utf8 — text as UTF-8 bytes, and back.

Writing uses the encoder of the standard library, character by
character. Reading goes one step at a time: a step takes either one
whole character off the front, or the longest run of bytes that begins
a character and cannot be continued (at least one byte). The strict
reading refuses such a run, the lossy one puts the replacement
character in its place.
-/
import ColumnMasking.Bytes

namespace ColumnMasking.Utf8

/-! ## Writing -/

/-- The bytes of a list of characters. -/
def encodeChars (cs : List Char) : Bytes :=
  cs.flatMap String.utf8EncodeChar

/-- The bytes of a text. -/
def encode (text : String) : Bytes :=
  encodeChars text.toList

/-- The empty text has no bytes. -/
@[simp] theorem encodeChars_nil : encodeChars [] = [] := rfl

/-- The bytes of a text are those of its characters in order. -/
@[simp] theorem encodeChars_cons (c : Char) (cs : List Char) :
    encodeChars (c :: cs) = String.utf8EncodeChar c ++ encodeChars cs := rfl

/-! ## Reading, one step -/

/-- The character that takes the place of bytes that are no text. -/
def replacement : Char := '\uFFFD'

/-- What a first byte announces: its own bits, how many bytes follow
after the next one, and the range of the next byte. -/
structure Lead where
  bits : Nat
  more : Nat
  low : UInt8
  high : UInt8

/-- The announcement of a first byte of a character of two to four
bytes. The narrowed ranges exclude overlong forms, surrogates and
numbers above the last character. -/
def lead? (b : UInt8) : Option Lead :=
  if 0xC2 ≤ b ∧ b ≤ 0xDF then some ⟨b.toNat - 0xC0, 0, 0x80, 0xBF⟩
  else if b = 0xE0 then some ⟨0, 1, 0xA0, 0xBF⟩
  else if b = 0xED then some ⟨0xD, 1, 0x80, 0x9F⟩
  else if 0xE1 ≤ b ∧ b ≤ 0xEF then some ⟨b.toNat - 0xE0, 1, 0x80, 0xBF⟩
  else if b = 0xF0 then some ⟨0, 2, 0x90, 0xBF⟩
  else if 0xF1 ≤ b ∧ b ≤ 0xF3 then some ⟨b.toNat - 0xF0, 2, 0x80, 0xBF⟩
  else if b = 0xF4 then some ⟨4, 2, 0x80, 0x8F⟩
  else none

/-- Reads one byte between `low` and `high` and `more` ordinary ones
after it, each with six bits of the character. Gives the character, or
none when the run breaks off, and what is left. -/
def follow (bits more : Nat) (low high : UInt8) : Bytes → Option Char × Bytes
  | [] => (none, [])
  | b :: rest =>
    if low ≤ b ∧ b ≤ high then
      let bits := bits * 64 + b.toNat % 64
      match more with
      | 0 => (some (Char.ofNat bits), rest)
      | more + 1 => follow bits more 0x80 0xBF rest
    else (none, b :: rest)

/-- One step: the character at the front, or none for a run that is no
character, and what is left. -/
def step (b : UInt8) (rest : Bytes) : Option Char × Bytes :=
  if b < 0x80 then (some (Char.ofNat b.toNat), rest)
  else match lead? b with
    | none => (none, rest)
    | some lead => follow lead.bits lead.more lead.low lead.high rest

/-- What a run leaves is no longer than what it was given. -/
theorem length_follow_le (bits more : Nat) (low high : UInt8) (bs : Bytes) :
    (follow bits more low high bs).2.length ≤ bs.length := by
  induction bs generalizing bits more low high with
  | nil => simp [follow]
  | cons b rest ih =>
    unfold follow
    split
    · cases more with
      | zero => simp
      | succ more => exact Nat.le_succ_of_le (ih _ _ _ _)
    · exact Nat.le_refl _

/-- A step takes at least its first byte. -/
theorem length_step_le (b : UInt8) (rest : Bytes) :
    (step b rest).2.length ≤ rest.length := by
  unfold step
  split
  · exact Nat.le_refl _
  · split
    · exact Nat.le_refl _
    · exact length_follow_le ..

/-! ## Reading a whole text -/

/-- The characters of a text, or none when some byte belongs to no
character. -/
def decode? : Bytes → Option (List Char)
  | [] => some []
  | b :: rest =>
    match (step b rest).1 with
    | none => none
    | some c => (decode? (step b rest).2).map (c :: ·)
termination_by bs => bs.length
decreasing_by exact Nat.lt_succ_of_le (length_step_le b rest)

/-- The characters of a text, each run of bytes that is no character
replaced by one replacement character. -/
def decodeLossyChars : Bytes → List Char
  | [] => []
  | b :: rest => (step b rest).1.getD replacement :: decodeLossyChars (step b rest).2
termination_by bs => bs.length
decreasing_by exact Nat.lt_succ_of_le (length_step_le b rest)

/-- The text that the bytes stand for, with replacement characters
where they stand for none. -/
def decodeLossy (bs : Bytes) : String :=
  String.ofList (decodeLossyChars bs)

/-- No bytes are the empty text. -/
@[simp] theorem decodeLossyChars_nil : decodeLossyChars [] = [] := by
  rw [decodeLossyChars]

/-- Text that is read strictly is read the same way loosely. -/
theorem decodeLossyChars_of_decode? {bs : Bytes} {cs : List Char}
    (h : decode? bs = some cs) : decodeLossyChars bs = cs := by
  fun_induction decode? bs generalizing cs with
  | case1 => simp_all
  | case2 => simp at h
  | case3 b rest c hc ih =>
    obtain ⟨cs', hcs', rfl⟩ := Option.map_eq_some_iff.mp h
    rw [decodeLossyChars, ih hcs', hc]
    rfl

end ColumnMasking.Utf8
