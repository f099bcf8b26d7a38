/-
ColumnMasking.Sm4.Cipher — SM4 under a mode chosen at run time.

The row forms hand their arguments to the mode as they are; a mode
without an IV does not look at the one given. The checked forms first
refuse additional data outside GCM and a missing IV where one is needed.
-/
import ColumnMasking.Sm4.Cbc
import ColumnMasking.Sm4.Gcm

namespace ColumnMasking.Sm4

/-! ## Nominal sizes -/

/-- The bytes of text that a single call is meant for; more is not
refused. -/
def nominalTextLength : Nat := 1024

/-- The bytes of ciphertext to reserve for such a text. -/
def nominalCiphertextLength : Nat := 2080

/-! ## Rows -/

namespace Mode

/-- A text enciphered in the mode, additional data counting in GCM
alone. -/
def encryptRow (mode : Mode) (key : Key) (iv : Option Iv) (plaintext : Bytes)
    (aad : Option Bytes) : Except Error Bytes :=
  match mode with
  | ecb => Ecb.encrypt key plaintext
  | cbc => Cbc.encrypt key iv plaintext
  | gcm => Gcm.encrypt key iv plaintext aad

/-- A ciphertext deciphered in the mode, additional data counting in GCM
alone. -/
def decryptRow (mode : Mode) (key : Key) (iv : Option Iv) (ciphertext : Bytes)
    (aad : Option Bytes) : Except Error Bytes :=
  match mode with
  | ecb => Ecb.decrypt key ciphertext
  | cbc => Cbc.decrypt key iv ciphertext
  | gcm => Gcm.decrypt key iv ciphertext aad

/-- Each row enciphered under the same key and IV; the first failure is
the failure of the whole. -/
def encryptRows (mode : Mode) (key : Key) (iv : Option Iv) (rows : List Bytes) :
    Except Error (List Bytes) :=
  rows.mapM fun row => mode.encryptRow key iv row none

/-- Each row deciphered under the same key and IV. -/
def decryptRows (mode : Mode) (key : Key) (iv : Option Iv) (rows : List Bytes) :
    Except Error (List Bytes) :=
  rows.mapM fun row => mode.decryptRow key iv row none

/-! ## Checked calls -/

/-- Refuses additional data that the mode has no use for, and the want
of an IV that it needs. -/
def checkInputs (mode : Mode) (iv : Option Iv) (aad : Option Bytes) : Except Error Unit :=
  if aad.isSome ∧ mode ≠ gcm then .error (.unexpectedAad mode)
  else if mode.requiresIv ∧ iv = none then .error (.missingIv mode)
  else .ok ()

/-- The ciphertext of a text in the mode. -/
def encrypt (mode : Mode) (key : Key) (iv : Option Iv) (plaintext : Bytes)
    (aad : Option Bytes) : Except Error Bytes := do
  mode.checkInputs iv aad
  mode.encryptRow key iv plaintext aad

/-- The text of a ciphertext in the mode. -/
def decrypt (mode : Mode) (key : Key) (iv : Option Iv) (ciphertext : Bytes)
    (aad : Option Bytes) : Except Error Bytes := do
  mode.checkInputs iv aad
  mode.decryptRow key iv ciphertext aad

end Mode
end ColumnMasking.Sm4
