/-
ColumnMasking.Sm3 — the SM3 hash and the keyed hash built on it.

A message is padded to whole blocks of 64 bytes: one bit one, zeros, and
the count of its bits in eight bytes. Each block is spread over 68 words,
which 64 rounds then mix into eight words of state; the state before the
block is added by exclusive or. The digest is the last state.

`hmac` is the usual construction with an inner and an outer hash.
-/
import ColumnMasking.Word

namespace ColumnMasking.Sm3

/-! ## Word functions -/

/-- The permutation that ends a round. -/
def p0 (x : Word) : Word :=
  x ^^^ x.rotateLeft 9 ^^^ x.rotateLeft 17

/-- The permutation of the message expansion. -/
def p1 (x : Word) : Word :=
  x ^^^ x.rotateLeft 15 ^^^ x.rotateLeft 23

/-- The first Boolean function: parity, then majority from round 16 on. -/
def ff (round : Nat) (x y z : Word) : Word :=
  if round < 16 then x ^^^ y ^^^ z else (x &&& y) ||| (x &&& z) ||| (y &&& z)

/-- The second Boolean function: parity, then choice from round 16 on. -/
def gg (round : Nat) (x y z : Word) : Word :=
  if round < 16 then x ^^^ y ^^^ z else (x &&& y) ||| (~~~x &&& z)

/-- The constant of a round. -/
def roundConstant (round : Nat) : Word :=
  let t : Word := if round < 16 then 0x79CC4519 else 0x7A879D8A
  t.rotateLeft (UInt32.ofNat (round % 32))

/-! ## Padding and expansion -/

/-- The padded message, a multiple of 64 bytes. -/
def pad (message : Bytes) : Bytes :=
  message ++ 0x80 :: List.replicate ((119 - message.length % 64) % 64) 0
    ++ Bytes.ofNat 8 (8 * message.length)

/-- The word that follows at least sixteen words, given latest first. -/
def nextWord (latest : List Word) : Word :=
  let w (back : Nat) : Word := latest.getD (back - 1) 0
  p1 (w 16 ^^^ w 9 ^^^ (w 3).rotateLeft 15) ^^^ (w 13).rotateLeft 7 ^^^ w 6

/-- Puts `count` more words in front, each computed from those before. -/
def extend : (count : Nat) → List Word → List Word
  | 0, latest => latest
  | count + 1, latest => extend count (nextWord latest :: latest)

/-- The 68 words of a block. -/
def expand (block : Bytes) : List Word :=
  (extend 52 (Word.listOfBytes block).reverse).reverse

/-! ## Compression -/

/-- The eight words of state. -/
structure State where
  (a b c d e f g h : Word)
  deriving DecidableEq, Repr

/-- The state before the first block. -/
def initial : State :=
  ⟨0x7380166F, 0x4914B2B9, 0x172442D7, 0xDA8A0600, 0xA96F30BC, 0x163138AA, 0xE38DEE4D, 0xB0FB0E4E⟩

/-- One round with a word of the expansion and the word four after it. -/
def round (s : State) (step : Nat) (w wAfter : Word) : State :=
  let ss1 := Word.rotateLeft (s.a.rotateLeft 12 + s.e + roundConstant step) 7
  let ss2 := ss1 ^^^ s.a.rotateLeft 12
  let tt1 := ff step s.a s.b s.c + s.d + ss2 + (w ^^^ wAfter)
  let tt2 := gg step s.e s.f s.g + s.h + ss1 + w
  ⟨tt1, s.a, s.b.rotateLeft 9, s.c, p0 tt2, s.e, s.f.rotateLeft 19, s.g⟩

/-- The rounds from `step` on, one for each word that has one four
after it. -/
def rounds (s : State) (step : Nat) : List Word → State
  | w :: x :: y :: z :: wAfter :: rest =>
    rounds (round s step w wAfter) (step + 1) (x :: y :: z :: wAfter :: rest)
  | _ => s

/-- The exclusive or of two states. -/
def State.xor (s t : State) : State :=
  ⟨s.a ^^^ t.a, s.b ^^^ t.b, s.c ^^^ t.c, s.d ^^^ t.d,
   s.e ^^^ t.e, s.f ^^^ t.f, s.g ^^^ t.g, s.h ^^^ t.h⟩

/-- The state after a block. -/
def compress (s : State) (block : Bytes) : State :=
  (rounds s 0 (expand block)).xor s

/-- The bytes of a state. -/
def State.toBytes (s : State) : Bytes :=
  [s.a, s.b, s.c, s.d, s.e, s.f, s.g, s.h].flatMap Word.toBytes

/-! ## Hash and keyed hash -/

/-- Bytes in a block. -/
def blockLength : Nat := 64

/-- Bytes in a digest. -/
def digestLength : Nat := 32

/-- The digest of a message. -/
def hash (message : Bytes) : Bytes :=
  ((Bytes.chunks blockLength (pad message)).foldl compress initial).toBytes

/-- A digest has 32 bytes. -/
@[simp] theorem length_hash (message : Bytes) : (hash message).length = digestLength := by
  simp [hash, State.toBytes, digestLength]

/-- The key of a keyed hash in exactly one block. -/
def hmacKey (key : Bytes) : Bytes :=
  let short := if key.length ≤ blockLength then key else hash key
  short ++ List.replicate (blockLength - short.length) 0

/-- The keyed hash of a message. -/
def hmac (key message : Bytes) : Bytes :=
  let block := hmacKey key
  hash (block.map (· ^^^ 0x5C) ++ hash (block.map (· ^^^ 0x36) ++ message))

/-- A keyed hash has 32 bytes. -/
@[simp] theorem length_hmac (key message : Bytes) :
    (hmac key message).length = digestLength :=
  length_hash _

end ColumnMasking.Sm3
