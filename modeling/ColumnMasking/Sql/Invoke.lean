/-
ColumnMasking.Sql.Invoke — calls of the SQL functions on parameters that
may be NULL.

The count of parameters is checked first. Parameters that may be left
out count as NULL when they are. What NULL and the empty string mean
differs from function to function: SM2 functions other than encryption
give NULL for NULL; ECB and CBC give the empty string for a value that
is NULL or empty and refuse a key or an IV that is; GCM passes the value
through when value or key are NULL or empty.
-/
import ColumnMasking.Engine.Sm2
import ColumnMasking.Engine.Sm4
import ColumnMasking.Sql.Function
import ColumnMasking.Text.Integer

namespace ColumnMasking.Sql

/-- A parameter: a string, or none for NULL. -/
abbrev Parameter := Option String

/-- The parameter at a place, NULL where there is none. -/
def at? (parameters : List Parameter) (place : Nat) : Parameter :=
  (parameters[place]?).join

namespace Function

/-- Refuses a count of parameters that the function does not take. -/
def checkCount (f : Function) (count : Nat) : Except Error Unit :=
  if f.least ≤ count ∧ count ≤ f.most then .ok ()
  else .error (.invalidArgument (.parameterCount f.name f.least f.most count))

/-- A parameter that may be neither NULL nor empty. -/
def required (f : Function) (what : String) (parameter : Parameter) : Except Error String :=
  match parameter with
  | some value =>
    if value = "" then .error (.invalidArgument (.missingParameter f.name what)) else .ok value
  | none => .error (.invalidArgument (.missingParameter f.name what))

/-- The order of segments that a mode type asks for. -/
def layoutOfModeType (f : Function) (modeType : String) : Except Error Sm2.Layout :=
  match Integer.int32? (Blank.trimChars modeType.toList) with
  | some n => .ok (.ofModeType n)
  | none => .error (.invalidArgument (.modeType f.name modeType))

/-! ## The kinds of functions -/

/-- SM2 encryption: NULL stays NULL and the empty string empty. -/
def sm2Encryption (f : Function) (engine : Engine) (value key modeType : Parameter) :
    Call (Option String) :=
  match value with
  | none => pure none
  | some plaintext =>
    if plaintext = "" then pure (some "")
    else do
      let key ← Call.ofExcept (f.required "public key" key)
      let layout ← match modeType with
        | some modeType => Call.ofExcept (f.layoutOfModeType modeType)
        | none => pure engine.settings.layout
      let ciphertext ← engine.sm2Encrypt key plaintext layout .base64
      return some ciphertext

/-- SM2 decryption: NULL for NULL. -/
def sm2Decryption (engine : Engine) (data key : Parameter) (encoding : Encoding) :
    Call (Option String) :=
  match data, key with
  | some data, some key =>
    Call.ofExcept (engine.sm2Decrypt key data engine.settings.layout encoding)
  | _, _ => pure none

/-- ECB and CBC: the empty string for a value that is NULL or empty. -/
def blockMode (f : Function) (transform : String → String → Option String → Checked Error String)
    (value key : Parameter) (iv : Except Error (Option String)) : Call (Option String) :=
  match value.filter (· ≠ "") with
  | none => pure (some "")
  | some value => do
    let key ← Call.ofExcept (f.required "key" key)
    let iv ← Call.ofExcept iv
    let result ← Call.ofChecked (transform key value iv)
    return some result

/-- GCM: the value as it is when value or key are NULL or empty. -/
def counterMode (transform : String → String → Option String → Option String →
    Checked Error String) (value key nonce aad : Parameter) : Call (Option String) :=
  match value, key with
  | some text, some key =>
    if text = "" ∨ key = "" then pure (some text)
    else do
      let result ← Call.ofChecked (transform key text nonce (aad.filter (· ≠ "")))
      return some result
  | _, _ => pure value

/-- SM2 signing: NULL for NULL. -/
def signing (engine : Engine) (message key identity : Parameter) (encoding : Encoding) :
    Call (Option String) :=
  match message, key with
  | some message, some key => do
    let signature ← Call.ofExcept (engine.sm2Sign key message identity encoding)
    return some signature
  | _, _ => pure none

/-- SM2 verification: NULL for NULL, otherwise `true` or `false`. -/
def verification (engine : Engine) (message key signature identity : Parameter)
    (encoding : Encoding) : Call (Option String) :=
  match message, key, signature with
  | some message, some key, some signature => do
    let valid ← Call.ofChecked (engine.sm2Verify key message signature identity encoding)
    return some (if valid then "true" else "false")
  | _, _, _ => pure none

/-! ## Invocation -/

/-- What a function gives for a list of parameters of admitted length. -/
def apply (f : Function) (engine : Engine) (parameters : List Parameter) :
    Call (Option String) :=
  let p := at? parameters
  let encryptIn (mode : Sm4.Mode) (key value : String) (iv aad : Option String) :=
    engine.sm4Encrypt key value mode iv aad .base64
  let decryptIn (mode : Sm4.Mode) (key value : String) (iv aad : Option String) :=
    engine.sm4Decrypt key value mode iv aad .base64
  match f with
  | sm2Encrypt => f.sm2Encryption engine (p 0) (p 1) (p 2)
  | sm2Decrypt => sm2Decryption engine (p 0) (p 1) .base64
  | sm2HexDecrypt => sm2Decryption engine (p 0) (p 1) .hex
  | sm4EncryptEcb => f.blockMode (encryptIn .ecb · · · none) (p 0) (p 1) (.ok none)
  | sm4DecryptEcb => f.blockMode (decryptIn .ecb · · · none) (p 0) (p 1) (.ok none)
  | sm4EncryptCbc =>
    f.blockMode (encryptIn .cbc · · · none) (p 0) (p 1) ((f.required "IV" (p 2)).map some)
  | sm4DecryptCbc =>
    f.blockMode (decryptIn .cbc · · · none) (p 0) (p 1) ((f.required "IV" (p 2)).map some)
  | sm4Encrypt => counterMode (encryptIn .gcm) (p 0) (p 1) (p 2) (p 3)
  | sm4Decrypt => counterMode (decryptIn .gcm) (p 0) (p 1) (p 2) (p 3)
  | sm2GetPubkey =>
    match p 0 with
    | none => pure none
    | some key => Call.ofExcept ((engine.sm2PublicKeyOf key).map some)
  | sm2Sign => signing engine (p 0) (p 1) (p 2) .base64
  | sm2SignHex => signing engine (p 0) (p 1) (p 2) .hex
  | sm2Verify => verification engine (p 0) (p 1) (p 2) (p 3) .base64
  | sm2VerifyHex => verification engine (p 0) (p 1) (p 2) (p 3) .hex

/-- Calls a function on a list of parameters. -/
def invoke (f : Function) (engine : Engine) (parameters : List Parameter) :
    Call (Option String) := do
  Call.ofExcept (f.checkCount parameters.length)
  f.apply engine parameters

end Function
end ColumnMasking.Sql
