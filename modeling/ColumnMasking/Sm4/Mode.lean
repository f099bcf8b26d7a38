/-
ColumnMasking.Sm4.Mode — the names of the modes of operation of SM4.
-/
import ColumnMasking.Text.Encoding

namespace ColumnMasking.Sm4

/-- A mode of operation. -/
inductive Mode where
  /-- Each block on its own. -/
  | ecb
  /-- Each block chained to the one before it. -/
  | cbc
  /-- A key stream with an authentication tag. -/
  | gcm
  deriving DecidableEq, Repr

namespace Mode

/-- The name of the mode. -/
def name : Mode → String
  | ecb => "ECB"
  | cbc => "CBC"
  | gcm => "GCM"

/-- The mode of the given name, white space around it and ASCII letter
case aside. -/
def ofName (text : String) : Except UnknownName Mode :=
  let given := (Blank.trim text).toUpper
  if given = "ECB" then .ok ecb
  else if given = "CBC" then .ok cbc
  else if given = "GCM" then .ok gcm
  else .error ⟨"SM4 mode", given⟩

/-- The modes that need an IV or a nonce. -/
def requiresIv : Mode → Bool
  | ecb => false
  | cbc | gcm => true

end Mode
end ColumnMasking.Sm4
