/-
ColumnMasking.KeyMaterial — key texts and the bytes they resolve to.

A key text is taken for one of four roles. SM4 keys and IVs have 16
bytes, GCM nonces 12 or 16: a text of twice as many hexadecimal digits
is decoded, a text of that many bytes stands for itself, and where
Base64 is agreed on, a Base64 text of that many bytes is decoded; the
first that fits is taken. SM2 public keys are the last 128 of the
hexadecimal digits given (Base64 is first written as digits). SM2
private keys are unsigned numbers of at most 32 bytes, given to 32.

Resolving looks at the shape of a key alone: neither the curve nor the
range of scalars is asked for here.
-/
import ColumnMasking.Reported
import ColumnMasking.Text.Encoding

namespace ColumnMasking

namespace KeyMaterial

/-! ## Lengths -/

/-- Bytes of an SM4 block, key and IV. -/
def blockLength : Nat := 16

/-- Bytes of the shorter GCM nonce. -/
def nonceLength : Nat := 12

/-- Bytes of a curve coordinate and of a scalar. -/
def coordinateLength : Nat := 32

/-- Hexadecimal digits of the two coordinates of a public key. -/
def publicKeyDigits : Nat := 4 * coordinateLength

/-! ## Roles, sources, refusals -/

/-- What key material is for. -/
inductive Role where
  | sm2PublicKey
  | sm2PrivateKey
  | sm4Key
  | sm4Iv
  deriving DecidableEq, Repr

/-- The role as messages name it. -/
def Role.name : Role → String
  | sm2PublicKey => "SM2 public key"
  | sm2PrivateKey => "SM2 private key"
  | sm4Key => "SM4 key"
  | sm4Iv => "SM4 IV"

/-- How the text was read. -/
inductive Source where
  | hex
  | base64
  | rawUtf8
  deriving DecidableEq, Repr

/-- Why a text is no key material of its role. -/
inductive Error where
  | empty (role : Role)
  | blockLength (role : Role) (actual : Nat)
  | nonceLength (actual : Nat)
  | notHex (role : Role)
  | publicKeyTooShort (digits : Nat)
  | publicKeyLength (digits : Nat)
  | privateKeyTooLong (bytes : Nat)
  | malformed (role : Role) (encoding : Encoding) (cause : Encoding.Error)
  deriving DecidableEq, Repr

/-- The reason in words. -/
def Error.message : Error → String
  | empty role => role.name ++ " must not be empty"
  | blockLength role actual =>
    role.name ++ " must be 16 bytes or a 32-char hex string, got " ++ toString actual ++ " bytes"
  | nonceLength actual =>
    "GCM nonce must be 12 or 16 bytes, or a 24- or 32-char hex string, got "
      ++ toString actual ++ " bytes"
  | notHex role => role.name ++ " contains non-hex characters"
  | publicKeyTooShort digits =>
    "SM2 public key needs at least 128 hex characters, got " ++ toString digits
  | publicKeyLength digits =>
    "SM2 public key must be 128 hex characters or 130 starting with 04, got " ++ toString digits
  | privateKeyTooLong bytes =>
    "SM2 private key scalar is " ++ toString bytes ++ " bytes, longer than 32"
  | malformed role encoding cause =>
    role.name ++ " is not valid " ++ encoding.name ++ ": " ++ cause.message

end KeyMaterial

/-- Bytes of a key, its role, and how they were read. -/
structure KeyMaterial where
  bytes : Bytes
  role : KeyMaterial.Role
  source : KeyMaterial.Source
  deriving DecidableEq, Repr

namespace KeyMaterial

/-! ## Keys, IVs and nonces of SM4 -/

/-- The form in which a text stands for bytes of one of the lengths, the
three forms tried in turn. -/
def resolveBlock (text : String) (role : Role) (encoding : Encoding) (lengths : List Nat)
    (otherLength : Nat → Error) : Except Error KeyMaterial :=
  let raw := Utf8.encode text
  if raw = [] then .error (.empty role)
  else if raw.length ∈ lengths.map (2 * ·) ∧ Hex.isHex text = true then
    match Encoding.decodeHexStrict text with
    | .ok bytes => .ok ⟨bytes, role, .hex⟩
    | .error cause => .error (.malformed role .hex cause)
  else if raw.length ∈ lengths then .ok ⟨raw, role, .rawUtf8⟩
  else match encoding, Encoding.decodeBase64 text with
    | .base64, .ok bytes =>
      if bytes.length ∈ lengths then .ok ⟨bytes, role, .base64⟩
      else .error (otherLength raw.length)
    | _, _ => .error (otherLength raw.length)

/-- The SM4 key of a text. -/
def sm4Key (text : String) (encoding : Encoding) : Except Error KeyMaterial :=
  resolveBlock text .sm4Key encoding [blockLength] (.blockLength .sm4Key)

/-- The CBC IV of a text. -/
def sm4Iv (text : String) (encoding : Encoding) : Except Error KeyMaterial :=
  resolveBlock text .sm4Iv encoding [blockLength] (.blockLength .sm4Iv)

/-- The GCM nonce of a text. -/
def gcmNonce (text : String) (encoding : Encoding) : Except Error KeyMaterial :=
  resolveBlock text .sm4Iv encoding [nonceLength, blockLength] .nonceLength

/-- The IV that has the bytes of a key. -/
def ivOfKey (key : KeyMaterial) : KeyMaterial :=
  { key with role := .sm4Iv }

/-! ## Public keys of SM2 -/

/-- The hexadecimal digits of a public key text. -/
def digitsOfPublicKey (text : String) (encoding : Encoding) :
    Except Error (List Char × Source) :=
  if text = "" then .error (.empty .sm2PublicKey)
  else match encoding with
    | .hex =>
      if Hex.isHex text = true then .ok (text.toList, .hex)
      else .error (.notHex .sm2PublicKey)
    | .base64 =>
      match Encoding.decodeBase64 text with
      | .ok bytes => .ok ((Hex.encode bytes).toList, .base64)
      | .error cause => .error (.malformed .sm2PublicKey .base64 cause)

/-- The digits of a point in its usual form: `04` and two coordinates. -/
def isTaggedPoint (digits : List Char) : Bool :=
  digits.length = publicKeyDigits + 2 && digits.take 2 = ['0', '4']

/-- Whether the count of digits will do. Under `strict` nothing but a
leading `04` may be left out. -/
def checkPublicKeyLength (digits : List Char) (strict : Bool) : Except Error Unit :=
  let length := digits.length
  if strict ∧ ¬ (length = publicKeyDigits ∨ isTaggedPoint digits) then
    .error (.publicKeyLength length)
  else if length < publicKeyDigits then .error (.publicKeyTooShort length)
  else .ok ()

/-- The warning that digits other than a leading `04` are left out. -/
def truncationWarnings (digits : List Char) : List Warning :=
  if publicKeyDigits < digits.length ∧ ¬ isTaggedPoint digits then
    [.publicKeyTruncated (digits.length - publicKeyDigits)]
  else []

/-- The two coordinates at the end of the digits. -/
def publicKeyOfDigits (digits : List Char) (source : Source) : Except Error KeyMaterial :=
  match Encoding.decodeHexStrict
      (String.ofList (digits.drop (digits.length - publicKeyDigits))) with
  | .ok bytes => .ok ⟨bytes, .sm2PublicKey, source⟩
  | .error cause => .error (.malformed .sm2PublicKey .hex cause)

/-- The public key of a text: 64 bytes, `x` before `y`. A warning is
given once the shape is found good. -/
def sm2PublicKey (text : String) (encoding : Encoding) (strict : Bool) :
    Checked Error KeyMaterial := do
  let (digits, source) ← Checked.ofExcept (digitsOfPublicKey text encoding)
  Checked.ofExcept (checkPublicKeyLength digits strict)
  ExceptT.mk ⟨publicKeyOfDigits digits source, truncationWarnings digits⟩

/-- The coordinates of public key material. -/
def coordinates? (m : KeyMaterial) : Option (Bytes × Bytes) :=
  if m.role = .sm2PublicKey ∧ m.bytes.length = 2 * coordinateLength then
    some (m.bytes.take coordinateLength, m.bytes.drop coordinateLength)
  else none

/-- The uncompressed point of public key material. -/
def point? (m : KeyMaterial) : Option Bytes :=
  m.coordinates?.map fun (x, y) => 0x04 :: x ++ y

/-! ## Private keys of SM2 -/

/-- The bytes of a private key text, leading zeros included. An odd
count of digits is read with a zero in front. -/
def bytesOfPrivateKey (text : String) (encoding : Encoding) : Except Error (Bytes × Source) :=
  if text = "" then .error (.empty .sm2PrivateKey)
  else match encoding with
    | .hex =>
      if Hex.isHex text = true then
        let even := if text.length % 2 = 1 then "0" ++ text else text
        match Encoding.decodeHexStrict even with
        | .ok bytes => .ok (bytes, .hex)
        | .error cause => .error (.malformed .sm2PrivateKey .hex cause)
      else .error (.notHex .sm2PrivateKey)
    | .base64 =>
      match Encoding.decodeBase64 text with
      | .ok bytes => .ok (bytes, .base64)
      | .error cause => .error (.malformed .sm2PrivateKey .base64 cause)

/-- The private key of a text: the number it spells, in 32 bytes. -/
def sm2PrivateKey (text : String) (encoding : Encoding) : Except Error KeyMaterial := do
  let (raw, source) ← bytesOfPrivateKey text encoding
  let significant := raw.dropWhile (· = 0)
  if coordinateLength < significant.length then throw (.privateKeyTooLong significant.length)
  let zeros := List.replicate (coordinateLength - significant.length) 0
  return ⟨zeros ++ significant, .sm2PrivateKey, source⟩

end KeyMaterial
end ColumnMasking
