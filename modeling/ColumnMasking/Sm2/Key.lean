/-
ColumnMasking.Sm2.Key — public and private keys of SM2, and what can go
wrong with them and with what is done under them.

A key may hold any bytes: stored ones are not looked at until they are
used. The functions that make keys check them, and public keys are
always made in the uncompressed form.
-/
import ColumnMasking.ErrorKind
import ColumnMasking.Sm2.Layout
import ColumnMasking.Sm2.Scalar
import ColumnMasking.Sm2.Sec1

namespace ColumnMasking.Sm2

/-! ## Errors -/

/-- Why an SM2 operation fails. -/
inductive Error where
  /-- Key material of another role in place of a public key. -/
  | publicKeyRole (actual : KeyMaterial.Role)
  /-- Public key material of the wrong length. -/
  | publicKeyBytes
  /-- No encoding of a point of the curve other than infinity. -/
  | notOnCurve
  /-- A user identity too long to verify under. -/
  | verifyingIdentityTooLong
  /-- Key material of another role in place of a private key. -/
  | privateKeyRole (actual : KeyMaterial.Role)
  /-- No scalar. -/
  | scalarRange
  | keyMaterial (cause : KeyMaterial.Error)
  | encryption (detail : String)
  | ciphertextTooShort (length : Nat)
  /-- A ciphertext that does not start with an uncompressed point. -/
  | notUncompressed
  /-- The point, the masked text and the digest do not fit together. -/
  | integrity (layout : Layout)
  /-- A user identity too long to sign under. -/
  | signingIdentityTooLong
  /-- The nonce of this message is of no use with this key. -/
  | noSignature
  /-- The mark of a signer that searches for a nonce for ever. It is no
  failure: nothing is ever returned there. -/
  | noAnswer
  | signatureLength (actual : Nat)
  /-- No random bytes for a new key. -/
  | keyGeneration
  | encoding (cause : Encoding.Error)
  deriving DecidableEq, Repr

namespace Error

/-- The class of the failure. -/
def kind : Error → ErrorKind
  | publicKeyRole _ | publicKeyBytes | notOnCurve | verifyingIdentityTooLong
  | privateKeyRole _ | scalarRange | keyMaterial _ => .invalidKey
  | encryption _ | keyGeneration | signingIdentityTooLong | noSignature | noAnswer => .encryption
  | ciphertextTooShort _ | notUncompressed | integrity _ => .decryption
  | encoding _ | signatureLength _ => .decoding

/-- The reason in words. -/
def message : Error → String
  | publicKeyRole actual =>
    "Invalid SM2 public key: expected public key material, got " ++ actual.name
  | publicKeyBytes => "Invalid SM2 public key: public key must hold 64 coordinate bytes"
  | notOnCurve => "Invalid SM2 public key: point is not on " ++ curveName
  | verifyingIdentityTooLong => "Invalid SM2 public key: user id is too long"
  | privateKeyRole actual =>
    "Invalid SM2 private key: expected private key material, got " ++ actual.name
  | scalarRange => "Invalid SM2 private key: scalar must be in [1, n-1]"
  | keyMaterial cause => "Key material error: " ++ cause.message
  | encryption detail => "SM2 encryption failed: " ++ detail
  | ciphertextTooShort length =>
    "SM2 decryption failed: ciphertext is " ++ toString length
      ++ " bytes, shorter than C1 and C3"
  | notUncompressed => "SM2 decryption failed: C1 is not an uncompressed point"
  | integrity layout =>
    "SM2 decryption failed: integrity check failed under " ++ layout.name
  | signingIdentityTooLong => "SM2 signing failed: user id is too long"
  | noSignature => "SM2 signing failed: signature error"
  | noAnswer => "SM2 signing does not end"
  | signatureLength actual =>
    "Malformed SM2 signature: expected 64 bytes, got " ++ toString actual
  | keyGeneration => "Key generation failed: " ++ Entropy.exhausted
  | encoding cause => "Codec error: " ++ cause.message

end Error

/-! ## Public keys -/

/-- A public key, in a form of SEC 1. -/
structure PublicKey where
  bytes : Bytes
  deriving DecidableEq, Repr

namespace PublicKey

/-- The point that an encoding gives a public key: any but infinity. -/
def pointOf (bs : Bytes) : Except Error Point :=
  match Point.decode? bs with
  | some (.affine x y) => .ok (.affine x y)
  | _ => .error .notOnCurve

/-- The key of a point. -/
def ofPoint (p : Point) : PublicKey := ⟨p.encode⟩

/-- The key of an encoded point, uncompressed. -/
def ofSec1 (bs : Bytes) : Except Error PublicKey := do
  let p ← pointOf bs
  return ofPoint p

/-- The key that resolved material holds. -/
def ofMaterial (m : KeyMaterial) : Except Error PublicKey :=
  if m.role ≠ .sm2PublicKey then .error (.publicKeyRole m.role)
  else match m.point? with
    | none => .error .publicKeyBytes
    | some bs => ofSec1 bs

/-- The point of a key. -/
def point (key : PublicKey) : Except Error Point := pointOf key.bytes

/-- The bytes after the first: both coordinates of an uncompressed key. -/
def coordinates (key : PublicKey) : Bytes := key.bytes.drop 1

/-- The hexadecimal text of a key. -/
def exportText (key : PublicKey) : String := Hex.encode key.bytes

/-- The key of a text. -/
def importText (text : String) : Checked Error PublicKey := do
  let m ← (KeyMaterial.sm2PublicKey text .hex false).adapt Error.keyMaterial
  Checked.ofExcept (ofMaterial m)

end PublicKey

/-! ## Private keys -/

/-- A private key: a scalar in 32 bytes. -/
structure PrivateKey where
  bytes : Bytes
  deriving DecidableEq, Repr

namespace PrivateKey

/-- The key of a scalar. -/
def ofScalar (d : Scalar) : PrivateKey := ⟨d.toBytes⟩

/-- The key that resolved material holds. -/
def ofMaterial (m : KeyMaterial) : Except Error PrivateKey :=
  if m.role ≠ .sm2PrivateKey then .error (.privateKeyRole m.role)
  else match Scalar.ofBytes? m.bytes with
    | none => .error .scalarRange
    | some _ => .ok ⟨m.bytes⟩

/-- The fewest bytes that a scalar may be given in. -/
def minLength : Nat := 24

/-- The scalar of a key. From 24 bytes on, missing bytes in front are
taken for zeros. -/
def scalar (key : PrivateKey) : Except Error Scalar :=
  let missing := KeyMaterial.coordinateLength - key.bytes.length
  if key.bytes.length < minLength then .error .scalarRange
  else match Scalar.ofBytes? (List.replicate missing 0 ++ key.bytes) with
    | none => .error .scalarRange
    | some d => .ok d

/-- The public key of a private key. -/
def publicKey (key : PrivateKey) : Except Error PublicKey := do
  let d ← key.scalar
  return .ofPoint (d.times generator)

/-- The hexadecimal text of a key. -/
def exportText (key : PrivateKey) : String := Hex.encode key.bytes

/-- The key of a text. -/
def importText (text : String) : Except Error PrivateKey := do
  let m ← (KeyMaterial.sm2PrivateKey text .hex).mapError .keyMaterial
  ofMaterial m

end PrivateKey

/-! ## Key pairs -/

/-- A public key and its private key. -/
structure KeyPair where
  publicKey : PublicKey
  privateKey : PrivateKey
  deriving DecidableEq, Repr

/-- The key pair of a scalar. -/
def KeyPair.ofScalar (d : Scalar) : KeyPair :=
  ⟨.ofPoint (d.times generator), .ofScalar d⟩

/-- A new key pair. -/
def KeyPair.generate : Drawing Error KeyPair :=
  ExceptT.mk fun e =>
    match Scalar.draw e with
    | (some d, rest) => (.ok (ofScalar d), rest)
    | (none, rest) => (.error .keyGeneration, rest)

end ColumnMasking.Sm2
