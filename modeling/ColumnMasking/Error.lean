/-
ColumnMasking.Error — why a masking call fails.

The errors of the layers below are kept as they are, so that the cause
of a failure can be asked for; `message` is the whole story in one line,
and `levels` the same story told from each layer, the innermost first.
-/
import ColumnMasking.Sm2.Key
import ColumnMasking.Sm4.Key

namespace ColumnMasking

/-- Why a file cannot be read or written. -/
inductive FileError where
  /-- The file or its directory does not exist. -/
  | notFound
  /-- The bytes of the file are no text. -/
  | notText
  | other (detail : String)
  deriving DecidableEq, Repr

/-- The reason in words. -/
def FileError.message : FileError → String
  | notFound => "No such file or directory (os error 2)"
  | notText => "stream did not contain valid UTF-8"
  | other detail => detail

/-- What is wrong with the arguments of a call. -/
inductive ArgumentError where
  /-- The mode needs an IV or a nonce and has none. -/
  | missingIv (mode : Sm4.Mode)
  /-- An SQL function has the wrong count of parameters. -/
  | parameterCount (function : String) (least most actual : Nat)
  /-- A parameter that an SQL function cannot do without. -/
  | missingParameter (function parameter : String)
  /-- The mode type of an SQL function is no 32-bit integer. -/
  | modeType (function given : String)
  | other (detail : String)
  deriving DecidableEq, Repr

/-- The complaint in words. -/
def ArgumentError.message : ArgumentError → String
  | missingIv mode => "SM4/" ++ mode.name ++ " requires an IV or nonce"
  | parameterCount function least most actual =>
    let expected :=
      if least = most then "exactly " ++ toString least
      else toString least ++ " to " ++ toString most
    function ++ " requires " ++ expected ++ " parameters, got " ++ toString actual
  | missingParameter function parameter =>
    function ++ " " ++ parameter ++ " cannot be null or empty"
  | modeType function given =>
    function ++ " mode type must be an integer, got " ++ Quoted.text given
  | other detail => detail

/-- Why a masking call fails. -/
inductive Error where
  | file (cause : FileError)
  /-- The text of the settings is not the JSON that was expected. -/
  | json
  | configuration (detail : String)
  | decoding (cause : Encoding.Error)
  | keyMaterial (cause : KeyMaterial.Error)
  | invalidArgument (cause : ArgumentError)
  /-- No random bytes. -/
  | entropy
  | sm2 (cause : Sm2.Error)
  | sm4 (cause : Sm4.Error)
  deriving DecidableEq, Repr

namespace Error

/-- The class of the failure. -/
def kind : Error → ErrorKind
  | file _ | json | configuration _ => .configuration
  | decoding _ => .decoding
  | keyMaterial _ => .invalidKey
  | invalidArgument _ => .invalidArgument
  | entropy => .encryption
  | sm2 cause => cause.kind
  | sm4 cause => cause.kind

/-- An SM2 error as the layer of its algorithm tells it. -/
def sm2Layer (cause : Sm2.Error) : String := "SM2 error: " ++ cause.message

/-- An SM4 error as the layer of its algorithm tells it. -/
def sm4Layer (cause : Sm4.Error) : String := "SM4 System error: " ++ cause.message

/-- The whole story in one line. -/
def message : Error → String
  | file cause => "I/O error: " ++ cause.message
  | json => "Serialization error (JSON)"
  | configuration detail => "Configuration error: " ++ detail
  | decoding cause => "Decoding error: " ++ cause.message
  | keyMaterial cause => "Invalid key material: " ++ cause.message
  | invalidArgument cause => "Invalid argument: " ++ cause.message
  | entropy => "Secure random source failed: " ++ Entropy.exhausted
  | sm2 cause => "Asymmetric cryptographic error: " ++ sm2Layer cause
  | sm4 cause => "Symmetric cryptographic error: " ++ sm4Layer cause

/-- What an SM2 error itself was caused by. -/
def sm2Cause : Sm2.Error → List String
  | .keyMaterial cause => [cause.message]
  | .encoding cause => [cause.message]
  | _ => []

/-- What an SM4 error itself was caused by. -/
def sm4Cause : Sm4.Error → List String
  | .keyMaterial cause => [cause.message]
  | _ => []

/-- The story as each layer tells it, the innermost first. -/
def levels (e : Error) : List String :=
  match e with
  | decoding cause => [cause.message, e.message]
  | keyMaterial cause => [cause.message, e.message]
  | sm2 cause => sm2Cause cause ++ [cause.message, sm2Layer cause, e.message]
  | sm4 cause => sm4Cause cause ++ [cause.message, sm4Layer cause, e.message]
  | _ => [e.message]

end Error
end ColumnMasking
