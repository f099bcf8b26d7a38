/-
ColumnMasking.Text.Encoding — the two written forms of bytes, and byte
payloads that carry the form they came in.

An encoding is agreed on by the two sides; the text itself does not say
which one it is. Under hexadecimal the lenient reading applies, with one
exception: a text that is not empty and holds no digit at all is an
error, so that the empty payload has the empty text and no other.
-/
import ColumnMasking.Text.Base64
import ColumnMasking.Text.Blank
import ColumnMasking.Text.Hex

namespace ColumnMasking

/-! ## Names -/

/-- A written name that denotes nothing of the kind asked for. -/
structure UnknownName where
  /-- What was asked for. -/
  kind : String
  /-- The name as it was looked up. -/
  given : String
  deriving DecidableEq, Repr

/-- The complaint about the name. -/
def UnknownName.message (e : UnknownName) : String :=
  "unknown " ++ e.kind ++ ": " ++ e.given

/-! ## Encodings -/

/-- A written form of bytes. -/
inductive Encoding where
  | hex
  | base64
  deriving DecidableEq, Repr

namespace Encoding

/-- The name of the form. -/
def name : Encoding → String
  | hex => "hex"
  | base64 => "base64"

/-- The form of the given name, white space around it and ASCII letter
case aside. -/
def ofName (text : String) : Except UnknownName Encoding :=
  let given := (Blank.trim text).toLower
  if given = "hex" then .ok hex
  else if given = "base64" then .ok base64
  else .error ⟨"encoding", given⟩

/-- Why a text is no payload. -/
inductive Error where
  | base64 (cause : Base64.Error)
  | hex (cause : Hex.Error)
  /-- A hexadecimal text of so many characters without a digit. -/
  | noHexDigits (characters : Nat)
  deriving DecidableEq, Repr

/-- What is wrong, in words. -/
def Error.message : Error → String
  | base64 cause => "Base64 decoding failed: " ++ cause.message
  | hex cause => "Invalid hex string: " ++ cause.message
  | noHexDigits characters =>
    "Hex text of " ++ toString characters ++ " characters contains no hex digits"

/-- The text of the bytes. -/
def encode (encoding : Encoding) (bs : Bytes) : String :=
  match encoding with
  | hex => Hex.encode bs
  | base64 => Base64.encode bs

/-- The bytes of a Base64 text. -/
def decodeBase64 (text : String) : Except Error Bytes :=
  (Base64.decode text).mapError .base64

/-- The bytes of a strict hexadecimal text. -/
def decodeHexStrict (text : String) : Except Error Bytes :=
  (Hex.decode text).mapError .hex

/-- The bytes of a text in the given form. -/
def decode (encoding : Encoding) (text : String) : Except Error Bytes :=
  match encoding with
  | hex =>
    let bs := Hex.decodeLenient text
    if bs = [] ∧ text ≠ "" then .error (.noHexDigits text.length) else .ok bs
  | base64 => decodeBase64 text

end Encoding

/-! ## Payloads -/

/-- Bytes together with their written form. -/
structure Payload where
  bytes : Bytes
  encoding : Encoding
  deriving DecidableEq, Repr

/-- The payload that a text stands for. -/
def Payload.parse (text : String) (encoding : Encoding) : Except Encoding.Error Payload := do
  let bytes ← encoding.decode text
  return ⟨bytes, encoding⟩

/-- The text of a payload. -/
def Payload.text (p : Payload) : String :=
  p.encoding.encode p.bytes

end ColumnMasking
