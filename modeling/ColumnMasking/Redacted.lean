/-
ColumnMasking.Redacted — what a log may show of a secret: how long it is.

The shown form of two secrets of the same length is the same, so nothing
but the length can be read off it.
-/
import ColumnMasking.Sm2.Key
import ColumnMasking.Sm4.Key

namespace ColumnMasking

/-- What a log may show of secret bytes: their count. -/
def redacted (secret : Bytes) : String :=
  "ZeroizingVec([REDACTED; " ++ toString secret.length ++ "])"

/-- What a log may show of an SM4 key. -/
def Sm4.Key.redacted (key : Sm4.Key) : String :=
  "Sm4Key(" ++ ColumnMasking.redacted key.bytes ++ ")"

/-- What a log may show of an SM2 private key. -/
def Sm2.PrivateKey.redacted (key : Sm2.PrivateKey) : String :=
  "Sm2PrivateKey(" ++ ColumnMasking.redacted key.bytes ++ ")"

/-- Secrets of one length look alike. -/
theorem redacted_eq_of_length_eq {a b : Bytes} (h : a.length = b.length) :
    redacted a = redacted b := by
  unfold redacted
  rw [h]

end ColumnMasking
