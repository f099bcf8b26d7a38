/-
ColumnMasking.Sm2.Signature — SM2 signatures over a message and the
identity of its signer.

What is signed is a digest of the message behind a digest of the
identity, the curve and the public key. The nonce of a signature is not
drawn: it is the first scalar that a keyed hash generator gives, started
from the private key and the digest (the scheme of RFC 6979 over SM3).
No second nonce is tried: where the first is of no use, or where the
private key is the order less one, there is no signature.

Nothing bounds the search for that scalar. A signer whose search never
ends does not fail, it gives no answer, and `PrivateKey.sign?` keeps the
two apart.
-/
import ColumnMasking.Sm2.Key
import ColumnMasking.Sm3

namespace ColumnMasking.Sm2

/-! ## What is signed -/

/-- The most bytes of an identity: its count of bits has to fit in two
bytes. -/
def maxIdentityLength : Nat := 8191

/-- The identity of a signer that gives none. -/
def defaultIdentity : String := "1234567812345678"

/-- The digest of an identity, the curve and a public point. -/
def identityDigest (identity : Bytes) (p : Point) : Bytes :=
  let ends (q : Point) : Bytes := q.encode.drop 1
  Sm3.hash (Bytes.ofNat 2 (8 * identity.length) ++ identity
    ++ coordinateBytes coefficientA ++ coordinateBytes coefficientB ++ ends generator ++ ends p)

/-- The digest of a message under an identity and a public point, as a
residue. -/
def messageDigest (identity : Bytes) (p : Point) (message : Bytes) : Fin order :=
  Fin.ofNat order (Bytes.toNat (Sm3.hash (identityDigest identity p ++ message)))

/-! ## Signatures -/

/-- The two halves of a signature. -/
structure Signature where
  r : Scalar
  s : Scalar
  deriving DecidableEq, Repr

namespace Signature

/-- Bytes in a signature. -/
def length : Nat := 64

/-- The 64 bytes of a signature. -/
def toBytes (signature : Signature) : Bytes :=
  signature.r.toBytes ++ signature.s.toBytes

/-- The signature that 64 bytes spell, if both halves are scalars. -/
def ofBytes? (bs : Bytes) : Option Signature := do
  let r ← Scalar.ofBytes? (bs.take KeyMaterial.coordinateLength)
  let s ← Scalar.ofBytes? (bs.drop KeyMaterial.coordinateLength)
  return ⟨r, s⟩

/-- The signature of a digest under a private scalar and a nonce, if the
nonce is of use: the first half and its sum with the nonce are not zero,
neither is the second half, and the private scalar is not the order less
one. -/
def make? (d : Scalar) (digest : Fin order) (k : Scalar) : Option Signature := do
  let x ← (k.times generator).abscissa?
  let r := digest + Fin.ofNat order x.val
  if r + k.residue = 0 ∨ 1 + d.residue = 0 then none
  let s := inverse (1 + d.residue) * (k.residue - r * d.residue)
  let rHalf ← Scalar.ofNat? r.val
  let sHalf ← Scalar.ofNat? s.val
  return ⟨rHalf, sHalf⟩

/-- The signature is that of the digest under a public point. Where the
sum of the two multiples is the point at infinity, no signature is. -/
def isValid (signature : Signature) (p : Point) (digest : Fin order) : Bool :=
  let t := signature.r.residue + signature.s.residue
  match ((signature.s.times generator).add (p.multiple t.val)).abscissa? with
  | none => false
  | some x => t ≠ 0 && digest + Fin.ofNat order x.val = signature.r.residue

end Signature

/-! ## Nonces -/

/-- The state of the keyed hash generator. -/
structure NonceState where
  key : Bytes
  value : Bytes
  deriving DecidableEq, Repr

namespace NonceState

/-- Takes in more bytes behind a marker. -/
def absorb (g : NonceState) (marker : UInt8) (bs : Bytes) : NonceState :=
  let key := Sm3.hmac g.key (g.value ++ marker :: bs)
  ⟨key, Sm3.hmac key g.value⟩

/-- The state for a private scalar and a digest. -/
def start (d : Scalar) (digest : Fin order) : NonceState :=
  let seed := d.toBytes ++ Bytes.ofNat KeyMaterial.coordinateLength digest.val
  let blank : NonceState := ⟨List.replicate 32 0x00, List.replicate 32 0x01⟩
  (blank.absorb 0x00 seed).absorb 0x01 seed

/-- The candidate for a nonce that the generator gives next. -/
def candidate (g : NonceState) : Bytes := Sm3.hmac g.key g.value

/-- The state after a candidate that is no scalar. -/
def next (g : NonceState) : NonceState := absorb ⟨g.key, g.candidate⟩ 0x00 []

/-- The first candidate that is a scalar. The search is not bounded: none
is found only where it never ends. -/
def firstScalar? (g : NonceState) : Option Scalar :=
  match Scalar.ofBytes? g.candidate with
  | some k => some k
  | none => by
    -- written as a term, the call would keep its place in the source as a mark
    apply firstScalar?
    exact g.next
partial_fixpoint

/-- A candidate that is a scalar ends the search. -/
theorem firstScalar?_of_some {g : NonceState} {k : Scalar}
    (h : Scalar.ofBytes? g.candidate = some k) : g.firstScalar? = some k := by
  rw [firstScalar?, h]

/-- A candidate that is none is passed over. -/
theorem firstScalar?_of_none {g : NonceState} (h : Scalar.ofBytes? g.candidate = none) :
    g.firstScalar? = g.next.firstScalar? := by
  rw [firstScalar?, h]

end NonceState

/-- The nonce for a private scalar and a digest. -/
def nonce? (d : Scalar) (digest : Fin order) : Option Scalar :=
  (NonceState.start d digest).firstScalar?

/-! ## Signing and verifying -/

/-- Signs a digest with a nonce. -/
def signWith (d : Scalar) (digest : Fin order) (k : Scalar) : Except Error Bytes :=
  match Signature.make? d digest k with
  | some signature => .ok signature.toBytes
  | none => .error .noSignature

/-- The answer to one who asks for the signature of a message under a
private key and an identity: the signature, or the reason why there is
none. No answer is given where the search for the nonce never ends. -/
def PrivateKey.sign? (key : PrivateKey) (message : Bytes) (identity : String) :
    Option (Except Error Bytes) :=
  match key.scalar with
  | .error error => some (.error error)
  | .ok d =>
    let identity := Utf8.encode identity
    if maxIdentityLength < identity.length then some (.error .signingIdentityTooLong)
    else
      let digest := messageDigest identity (d.times generator) message
      (nonce? d digest).map (signWith d digest)

/-- The signature of a message under a private key and an identity. Of a
search that never ends only its mark is left. -/
def PrivateKey.sign (key : PrivateKey) (message : Bytes) (identity : String) :
    Except Error Bytes :=
  (key.sign? message identity).getD (.error .noAnswer)

/-- Whether the bytes are a signature of the message under a public key
and an identity. -/
def PublicKey.verify (key : PublicKey) (message signature : Bytes) (identity : String) :
    Except Error Bool := do
  if signature.length ≠ Signature.length then throw (.signatureLength signature.length)
  let p ← key.point
  let identity := Utf8.encode identity
  if maxIdentityLength < identity.length then throw .verifyingIdentityTooLong
  match Signature.ofBytes? signature with
  | none => return false
  | some signature => return signature.isValid p (messageDigest identity p message)

end ColumnMasking.Sm2
