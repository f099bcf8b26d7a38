/-
ColumnMasking.Entropy — the source of random bytes, as a stream that is
passed along, and the random texts made from it.

A draw takes the next bytes of the stream. When fewer are left than
asked for, the draw fails and the stream stays as it was.
-/
import ColumnMasking.Text.Hex

namespace ColumnMasking

/-- The random bytes that are still to come. -/
structure Entropy where
  bytes : Bytes
  deriving DecidableEq, Repr

/-- A call that may draw random bytes and may fail. What it drew is gone
even if it fails. -/
abbrev Drawing (ε α : Type) := ExceptT ε (StateM Entropy) α

namespace Entropy

/-- What is said when the stream runs dry. -/
def exhausted : String := "unexpected situation"

/-- The next `n` bytes and the stream after them. -/
def draw? (e : Entropy) (n : Nat) : Option (Bytes × Entropy) :=
  if n ≤ e.bytes.length then some (e.bytes.take n, ⟨e.bytes.drop n⟩) else none

/-- A draw takes what it gives, no more. -/
theorem length_draw? {e rest : Entropy} {n : Nat} {bs : Bytes}
    (h : e.draw? n = some (bs, rest)) :
    bs.length = n ∧ e.bytes.length = n + rest.bytes.length := by
  unfold draw? at h
  split at h
  · simp only [Option.some.injEq, Prod.mk.injEq] at h
    obtain ⟨rfl, rfl⟩ := h
    simp only [List.length_take, List.length_drop]
    omega
  · simp at h

/-- Draws `n` bytes, or fails with the given error. -/
def draw {ε : Type} (n : Nat) (failure : ε) : Drawing ε Bytes :=
  ExceptT.mk fun e =>
    match e.draw? n with
    | some (bs, rest) => (.ok bs, rest)
    | none => (.error failure, e)

/-! ## Random texts -/

/-- Lower-case hexadecimal text of at most `length` random digits: an odd
length is rounded down. -/
def hexString {ε : Type} (length : Nat) (failure : ε) : Drawing ε String := do
  let bs ← draw (length / 2) failure
  return Hex.encode bs

/-- The sixteen bytes with the version (four) and variant bits of a
random UUID. -/
def markUuid (bs : Bytes) : Bytes :=
  (bs.modify 6 fun b => (b &&& 0x0F) ||| 0x40).modify 8 fun b => (b &&& 0x3F) ||| 0x80

/-- The text of a UUID: 32 digits, in five groups if hyphens are asked
for. -/
def uuidText (bs : Bytes) (hyphens : Bool) : String :=
  let group (start stop : Nat) : String := Hex.encode ((bs.take stop).drop start)
  let groups := [group 0 4, group 4 6, group 6 8, group 8 10, group 10 16]
  String.intercalate (if hyphens then "-" else "") groups

/-- A random UUID. -/
def uuid {ε : Type} (upperCase hyphens : Bool) (failure : ε) : Drawing ε String := do
  let bs ← draw 16 failure
  let text := uuidText (markUuid bs) hyphens
  return if upperCase then text.toUpper else text

end Entropy
end ColumnMasking
