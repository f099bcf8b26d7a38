/-
ColumnMasking.Sql.Function — the SQL functions by name, with the count of
their parameters and a line of description.
-/
import ColumnMasking.Text.Blank

namespace ColumnMasking.Sql

/-- An SQL function. -/
inductive Function where
  | sm2Encrypt
  | sm2Decrypt
  | sm2HexDecrypt
  | sm4EncryptEcb
  | sm4DecryptEcb
  | sm4EncryptCbc
  | sm4DecryptCbc
  | sm4Encrypt
  | sm4Decrypt
  | sm2GetPubkey
  | sm2Sign
  | sm2Verify
  | sm2SignHex
  | sm2VerifyHex
  deriving DecidableEq, Repr

namespace Function

/-- Every function, in the order of the catalogue. -/
def all : List Function :=
  [sm2Encrypt, sm2Decrypt, sm2HexDecrypt, sm4EncryptEcb, sm4DecryptEcb, sm4EncryptCbc,
   sm4DecryptCbc, sm4Encrypt, sm4Decrypt, sm2GetPubkey, sm2Sign, sm2Verify, sm2SignHex,
   sm2VerifyHex]

/-- The name in SQL. -/
def name : Function → String
  | sm2Encrypt => "sm2_encrypt"
  | sm2Decrypt => "sm2_decrypt"
  | sm2HexDecrypt => "sm2_hexdecrypt"
  | sm4EncryptEcb => "sm4_encrypt_ecb"
  | sm4DecryptEcb => "sm4_decrypt_ecb"
  | sm4EncryptCbc => "sm4_encrypt_cbc"
  | sm4DecryptCbc => "sm4_decrypt_cbc"
  | sm4Encrypt => "sm4_encrypt"
  | sm4Decrypt => "sm4_decrypt"
  | sm2GetPubkey => "sm2_get_pubkey"
  | sm2Sign => "sm2_sign"
  | sm2Verify => "sm2_verify"
  | sm2SignHex => "sm2_sign_hex"
  | sm2VerifyHex => "sm2_verify_hex"

/-- The function of a name, white space around it and ASCII letter case
aside. -/
def ofName? (text : String) : Option Function :=
  let given := (Blank.trim text).toLower
  all.find? fun f => f.name = given

/-- The fewest parameters. -/
def least : Function → Nat
  | sm2GetPubkey => 1
  | sm4EncryptCbc | sm4DecryptCbc | sm2Verify | sm2VerifyHex => 3
  | _ => 2

/-- The most parameters. -/
def most : Function → Nat
  | sm2GetPubkey => 1
  | sm2Encrypt | sm2Sign | sm2SignHex | sm4EncryptCbc | sm4DecryptCbc => 3
  | sm4Encrypt | sm4Decrypt | sm2Verify | sm2VerifyHex => 4
  | _ => 2

/-- What the function does, in a line. -/
def description : Function → String
  | sm2Encrypt => "Encrypts a value with an SM2 public key, returns Base64"
  | sm2Decrypt => "Decrypts Base64 SM2 ciphertext and returns a UTF-8 encoded string"
  | sm2HexDecrypt => "Decrypts hex SM2 ciphertext and returns a UTF-8 encoded string"
  | sm4EncryptEcb => "SM4 ECB mode encryption, returns Base64"
  | sm4DecryptEcb => "SM4 ECB mode decryption of Base64 ciphertext"
  | sm4EncryptCbc => "SM4 CBC mode encryption, returns Base64"
  | sm4DecryptCbc => "SM4 CBC mode decryption of Base64 ciphertext"
  | sm4Encrypt => "SM4 GCM mode encryption, returns Base64"
  | sm4Decrypt => "SM4 GCM mode decryption of Base64 ciphertext"
  | sm2GetPubkey => "Derives the 128-char hex SM2 public key (x || y)"
  | sm2Sign => "SM2 signature (r || s) over a value, returns Base64"
  | sm2Verify => "Verifies a Base64 SM2 signature, returns true or false"
  | sm2SignHex => "SM2 signature (r || s) over a value, returns hex"
  | sm2VerifyHex => "Verifies a hex SM2 signature, returns true or false"

/-- A call of the function as an execution plan shows it. -/
def display (f : Function) (parameters : List String) : String :=
  f.name ++ "(" ++ String.intercalate ", " parameters ++ ")"

end Function
end ColumnMasking.Sql
