/-
ColumnMasking.Sm2.Encryption — SM2 encryption and decryption.

The sender draws an ephemeral scalar and sends its multiple of the base
point. The same multiple of the receiver's public point is known to
both; the text is masked with bytes derived from its coordinates, and
the digest of the coordinates around the text lets the receiver check
what was unmasked.

An ephemeral scalar whose mask is all zero is not used; another one is
drawn. The empty text is its own ciphertext and draws nothing.
-/
import ColumnMasking.Sm2.Key
import ColumnMasking.Sm3

namespace ColumnMasking.Sm2

/-! ## Nominal sizes -/

/-- The bytes of text that a single call is meant for; more is not
refused. -/
def nominalTextLength : Nat := 1024

/-- The bytes of ciphertext to reserve for such a text. -/
def nominalCiphertextLength : Nat := 2242

/-! ## The mask -/

/-- `count` blocks of derived bytes, the counter of the first one given. -/
def deriveBlocks (seed : Bytes) (counter : Nat) : (count : Nat) → Bytes
  | 0 => []
  | count + 1 =>
    Sm3.hash (seed ++ Bytes.ofNat 4 counter) ++ deriveBlocks seed (counter + 1) count

/-- `length` bytes derived from a seed. -/
def derive (seed : Bytes) (length : Nat) : Bytes :=
  (deriveBlocks seed 1 ((length + 31) / 32)).take length

/-- Derived blocks have 32 bytes each. -/
theorem length_deriveBlocks (seed : Bytes) : ∀ (counter count : Nat),
    (deriveBlocks seed counter count).length = 32 * count
  | _, 0 => rfl
  | counter, count + 1 => by
    simp only [deriveBlocks, List.length_append, Sm3.length_hash, Sm3.digestLength,
      length_deriveBlocks seed _ count]
    omega

/-- As many bytes are derived as were asked for. -/
@[simp] theorem length_derive (seed : Bytes) (length : Nat) :
    (derive seed length).length = length := by
  rw [derive, List.length_take, length_deriveBlocks]
  omega

/-! ## Segments -/

/-- The digest that ties a text to a shared point. -/
def bindingDigest (x y : Field) (text : Bytes) : Bytes :=
  Sm3.hash (coordinateBytes x ++ text ++ coordinateBytes y)

/-- The mask for a text of the given length under a shared point. -/
def mask (x y : Field) (length : Nat) : Bytes :=
  derive (coordinateBytes x ++ coordinateBytes y) length

/-- The segments of a text under an ephemeral scalar, unless the mask is
all zero. -/
def segments? (receiver : Point) (k : Scalar) (text : Bytes) : Option Segments :=
  match k.times receiver with
  | .infinity => none
  | .affine x y =>
    let covering := mask x y text.length
    if covering.all (· = 0) then none
    else some
      { point := (k.times generator).encode
        masked := Bytes.xor text covering
        digest := bindingDigest x y text }

/-- The segments of a text under the first ephemeral scalar drawn that
is of use. -/
def drawSegments (receiver : Point) (text : Bytes) (e : Entropy) :
    Option Segments × Entropy :=
  match _drawn : Scalar.draw e with
  | (none, rest) => (none, rest)
  | (some k, rest) =>
    match segments? receiver k text with
    | some s => (some s, rest)
    | none => drawSegments receiver text rest
termination_by e.bytes.length
decreasing_by exact Scalar.length_draw_lt _drawn

/-- The text that the segments stand for, if the digest agrees. -/
def unmask? (d : Scalar) (s : Segments) : Option Bytes := do
  let sent ← Point.decode? s.point
  match d.times sent with
  | .infinity => none
  | .affine x y =>
    let text := Bytes.xor s.masked (mask x y s.masked.length)
    if bindingDigest x y text = s.digest then some text else none

/-! ## Encryption -/

/-- A public point and an order of segments, ready to encrypt. -/
structure Encryptor where
  receiver : Point
  layout : Layout
  deriving DecidableEq, Repr

/-- Binds a public key to an order of segments. -/
def Encryptor.new (key : PublicKey) (layout : Layout) : Except Error Encryptor := do
  let receiver ← key.point
  return ⟨receiver, layout⟩

/-- The ciphertext of a text. -/
def Encryptor.encrypt (encryptor : Encryptor) (plaintext : Bytes) : Drawing Error Bytes :=
  ExceptT.mk fun e =>
    if plaintext = [] then (.ok [], e)
    else match drawSegments encryptor.receiver plaintext e with
      | (some s, rest) => (.ok (encryptor.layout.join s), rest)
      | (none, rest) => (.error (.encryption "crypto error"), rest)

/-- The ciphertext of a text under a public key. -/
def PublicKey.encrypt (key : PublicKey) (layout : Layout) (plaintext : Bytes) :
    Drawing Error Bytes := do
  let encryptor ← ExceptT.mk (pure (Encryptor.new key layout))
  encryptor.encrypt plaintext

/-! ## Decryption -/

/-- A private scalar and an order of segments, ready to decrypt. -/
structure Decryptor where
  scalar : Scalar
  layout : Layout
  deriving DecidableEq, Repr

/-- Binds a private key to an order of segments. -/
def Decryptor.new (key : PrivateKey) (layout : Layout) : Except Error Decryptor := do
  let d ← key.scalar
  return ⟨d, layout⟩

/-- The text of a ciphertext. -/
def Decryptor.decrypt (decryptor : Decryptor) (ciphertext : Bytes) : Except Error Bytes :=
  if ciphertext = [] then .ok []
  else if ciphertext.length < Layout.pointLength + Layout.digestLength then
    .error (.ciphertextTooShort ciphertext.length)
  else if ciphertext.head? ≠ some 0x04 then .error .notUncompressed
  else match unmask? decryptor.scalar (decryptor.layout.split ciphertext) with
    | some text => .ok text
    | none => .error (.integrity decryptor.layout)

/-- The text of a ciphertext under a private key. -/
def PrivateKey.decrypt (key : PrivateKey) (layout : Layout) (ciphertext : Bytes) :
    Except Error Bytes := do
  let decryptor ← Decryptor.new key layout
  decryptor.decrypt ciphertext

end ColumnMasking.Sm2
