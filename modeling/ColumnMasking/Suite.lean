/-
ColumnMasking.Suite — the algorithms with their modes, and what provides
them.

A suite is SM2 with an order of segments or SM4 with a mode of
operation. Suites, orders and modes also have a form as JSON values: the
name of the choice.
-/
import ColumnMasking.Json
import ColumnMasking.Sm2.Layout
import ColumnMasking.Sm4.Mode

namespace ColumnMasking

/-! ## Choices as JSON values -/

/-- The orders of segments by name. -/
def Sm2.Layout.choices : List (String × Sm2.Layout) :=
  [Sm2.Layout.c1c2c3, .c1c3c2].map fun layout => (layout.name, layout)

/-- The order that a value names. -/
def Sm2.Layout.ofJson? (value : Json) : Option Sm2.Layout :=
  value.choice? choices

/-- The value that names an order. -/
def Sm2.Layout.toJson (layout : Sm2.Layout) : Json := .ofText layout.name

/-- The modes of operation by name. -/
def Sm4.Mode.choices : List (String × Sm4.Mode) :=
  [Sm4.Mode.ecb, .cbc, .gcm].map fun mode => (mode.name, mode)

/-- The mode that a value names. -/
def Sm4.Mode.ofJson? (value : Json) : Option Sm4.Mode :=
  value.choice? choices

/-- The value that names a mode. -/
def Sm4.Mode.toJson (mode : Sm4.Mode) : Json := .ofText mode.name

/-- The encodings by name. -/
def Encoding.choices : List (String × Encoding) :=
  [Encoding.hex, .base64].map fun encoding => (encoding.name, encoding)

/-- The encoding that a value names. -/
def Encoding.ofJson? (value : Json) : Option Encoding :=
  value.choice? choices

/-- The value that names an encoding. -/
def Encoding.toJson (encoding : Encoding) : Json := .ofText encoding.name

/-! ## Suites -/

/-- An algorithm with its mode. -/
inductive Suite where
  | sm2 (layout : Sm2.Layout)
  | sm4 (mode : Sm4.Mode)
  deriving DecidableEq, Repr

namespace Suite

/-- Every suite. -/
def all : List Suite :=
  [sm2 .c1c2c3, sm2 .c1c3c2, sm4 .ecb, sm4 .cbc, sm4 .gcm]

/-- The suite in the usual three-part notation. -/
def name : Suite → String
  | sm2 layout => "SM2/" ++ layout.name
  | sm4 .gcm => "SM4/GCM/NoPadding"
  | sm4 mode => "SM4/" ++ mode.name ++ "/PKCS7Padding"

/-- The suite that a value names: an object with the algorithm for its
only name. -/
def ofJson? : Json → Option Suite
  | .object [(algorithm, value)] => do
    let algorithm ← Utf16.decode? algorithm
    if algorithm = "sm2" then return sm2 (← Sm2.Layout.ofJson? value)
    else if algorithm = "sm4" then return sm4 (← Sm4.Mode.ofJson? value)
    else none
  | _ => none

/-- The value that names a suite. -/
def toJson : Suite → Json
  | sm2 layout => .record [("sm2", layout.toJson)]
  | sm4 mode => .record [("sm4", mode.toJson)]

end Suite

/-! ## The provider -/

/-- The name under which the suites are provided. -/
def providerName : String := "RustCrypto"

/-- The suites provided: all of them. -/
def providedSuites : List Suite := Suite.all

/-- Whether a suite is provided. -/
def Suite.isProvided (suite : Suite) : Bool := providedSuites.contains suite

/-- Every suite is provided. -/
theorem Suite.isProvided_eq_true (suite : Suite) : suite.isProvided = true := by
  cases suite with
  | sm2 layout => cases layout <;> rfl
  | sm4 mode => cases mode <;> rfl

end ColumnMasking
