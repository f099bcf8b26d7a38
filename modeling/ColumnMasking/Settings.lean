/-
ColumnMasking.Settings — how a masking engine behaves, and where its
settings come from.

There are four settings, each with a default. They are read from a JSON
file, in which anything left out takes its default and anything unknown
is passed over, or from variables of the environment, where a value that
is not understood gives a warning and leaves the default. They are
written to a JSON file in full.
-/
import ColumnMasking.Error
import ColumnMasking.Json.Printer
import ColumnMasking.Json.Reader
import ColumnMasking.Reported
import ColumnMasking.Suite

namespace ColumnMasking

/-! ## The settings -/

/-- Where the nonce of GCM comes from when none is given. -/
inductive NoncePolicy where
  /-- Nowhere: it has to be given. -/
  | explicit
  /-- From the key, the same one for every value. -/
  | legacyKeyDerived
  deriving DecidableEq, Repr

namespace NoncePolicy

/-- The name of the policy. -/
def name : NoncePolicy → String
  | explicit => "explicit"
  | legacyKeyDerived => "legacy-key-derived"

/-- The policy of the given name or short name, white space around it and
ASCII letter case aside. -/
def ofName (text : String) : Except UnknownName NoncePolicy :=
  let given := (Blank.trim text).toLower
  if given = "explicit" then .ok explicit
  else if given = "legacy-key-derived" ∨ given = "legacy" then .ok legacyKeyDerived
  else .error ⟨"GCM nonce policy", given⟩

/-- The policies by name. -/
def choices : List (String × NoncePolicy) :=
  [explicit, legacyKeyDerived].map fun policy => (policy.name, policy)

/-- The policy that a value names. -/
def ofJson? (value : Json) : Option NoncePolicy := value.choice? choices

/-- The value that names a policy. -/
def toJson (policy : NoncePolicy) : Json := .ofText policy.name

end NoncePolicy

/-- How a masking engine behaves. -/
structure Settings where
  /-- The order of SM2 segments where a call gives none. -/
  layout : Sm2.Layout := .c1c3c2
  /-- How the texts of SM2 keys are written. -/
  keyEncoding : Encoding := .hex
  /-- Whether a public key that is too long is refused. -/
  strictPublicKey : Bool := false
  noncePolicy : NoncePolicy := .explicit
  deriving DecidableEq, Repr

namespace Settings

/-- The settings where nothing is said. -/
def default : Settings := {}

instance : Inhabited Settings := ⟨default⟩

/-! ## JSON -/

/-- The settings as a value. -/
def toJson (s : Settings) : Json :=
  .record
    [("sm2_mode", s.layout.toJson),
     ("sm2_key_encoding", s.keyEncoding.toJson),
     ("strict_sm2_public_key", .bool s.strictPublicKey),
     ("gcm_nonce_policy", s.noncePolicy.toJson)]

/-- The settings that a value holds: an object with any of the four
members, or an array of the first so many of them. -/
def ofJson? (value : Json) : Option Settings :=
  match value with
  | .array elements => do
    if 4 < elements.length then none
    let layout ← Json.element? elements 0 default.layout Sm2.Layout.ofJson?
    let keyEncoding ← Json.element? elements 1 default.keyEncoding Encoding.ofJson?
    let strictPublicKey ← Json.element? elements 2 default.strictPublicKey Json.bool?
    let noncePolicy ← Json.element? elements 3 default.noncePolicy NoncePolicy.ofJson?
    return ⟨layout, keyEncoding, strictPublicKey, noncePolicy⟩
  | value => do
    let members ← value.members?
    let layout ← Json.field? members "sm2_mode" default.layout Sm2.Layout.ofJson?
    let keyEncoding ← Json.field? members "sm2_key_encoding" default.keyEncoding Encoding.ofJson?
    let strictPublicKey ←
      Json.field? members "strict_sm2_public_key" default.strictPublicKey Json.bool?
    let noncePolicy ←
      Json.field? members "gcm_nonce_policy" default.noncePolicy NoncePolicy.ofJson?
    return ⟨layout, keyEncoding, strictPublicKey, noncePolicy⟩

/-- The value of a settings file: the settings as its member `crypto`. -/
def toFileJson (s : Settings) : Json := .record [("crypto", s.toJson)]

/-- The settings of the value of a settings file. -/
def ofFileJson? (value : Json) : Option Settings :=
  match value with
  | .array elements =>
    if 1 < elements.length then none else Json.element? elements 0 default ofJson?
  | value => do Json.field? (← value.members?) "crypto" default ofJson?

/-! ## Files -/

/-- The settings of a file with the given bytes, if there is one. -/
def load (file : Option Bytes) : Except Error Settings :=
  match file with
  | none => .error (.file .notFound)
  | some bytes =>
    match Utf8.decode? bytes with
    | none => .error (.file .notText)
    | some text =>
      match (Json.parse? text).bind ofFileJson? with
      | none => .error .json
      | some settings => .ok settings

/-- The text of the file that keeps the settings, in a directory that
may or may not exist. -/
def save (s : Settings) (directoryExists : Bool) : Except Error String :=
  if directoryExists then .ok s.toFileJson.pretty else .error (.file .notFound)

/-! ## Environment -/

/-- What the names of all variables start with. -/
def variableStem : String := "SM_SEAL_"

/-- The value of a variable as `read` takes it. A variable that is not
set gives `unset`; a value that is not understood gives it too, and a
warning. -/
def ofVariable {α : Type} (lookup : String → Option String) (suffix : String) (unset : α)
    (read : String → Except UnknownName α) : Reported α :=
  let name := variableStem ++ suffix
  match lookup name with
  | none => .quiet unset
  | some value =>
    match read value with
    | .ok a => .quiet a
    | .error reason => ⟨unset, [.settingIgnored name reason.message]⟩

/-- The switch of a variable: on if its value is `true` in any ASCII
letter case and nothing more. -/
def switch (lookup : String → Option String) (suffix : String) (unset : Bool) : Bool :=
  match lookup (variableStem ++ suffix) with
  | none => unset
  | some value => value.toLower = "true"

/-- The settings of an environment. -/
def ofEnvironment (lookup : String → Option String) : Reported Settings := do
  let layout ← ofVariable lookup "SM2_MODE" default.layout Sm2.Layout.ofName
  let keyEncoding ← ofVariable lookup "SM2_KEY_ENCODING" default.keyEncoding Encoding.ofName
  let strictPublicKey := switch lookup "STRICT_SM2_PUBLIC_KEY" default.strictPublicKey
  let noncePolicy ← ofVariable lookup "GCM_NONCE_POLICY" default.noncePolicy NoncePolicy.ofName
  return ⟨layout, keyEncoding, strictPublicKey, noncePolicy⟩

end Settings
end ColumnMasking
