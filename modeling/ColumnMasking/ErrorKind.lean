/-
ColumnMasking.ErrorKind — the classes of failure that a caller acts on.

An SQL adapter decides by the class whether a failed call gives NULL or
stops the query.
-/

namespace ColumnMasking

/-- A class of failure. -/
inductive ErrorKind where
  /-- A key or an IV has the wrong shape, or a point is not on the curve. -/
  | invalidKey
  /-- A hexadecimal or Base64 text cannot be read. -/
  | decoding
  /-- Authentication, padding, or a mode or key that does not match. -/
  | decryption
  /-- Encryption itself failed, for want of randomness or of capacity. -/
  | encryption
  /-- An argument is missing or has no place. -/
  | invalidArgument
  /-- Settings cannot be loaded or saved. -/
  | configuration
  deriving DecidableEq, Repr

/-- The class in words. -/
def ErrorKind.name : ErrorKind → String
  | invalidKey => "invalid key"
  | decoding => "decoding error"
  | decryption => "decryption error"
  | encryption => "encryption error"
  | invalidArgument => "invalid argument"
  | configuration => "configuration error"

end ColumnMasking
