/-
ColumnMasking.Reported — results that come with warnings.

Some calls succeed or fail in a way that an operator should hear about.
The warnings are part of the value that a call gives: a list, in the
order in which they arose, beside the result. A failed call keeps the
warnings it gave before it failed, because the failure is inside the
result.
-/

namespace ColumnMasking

/-- Something an operator should know about a call. No warning holds
key material, plaintext or ciphertext. -/
inductive Warning where
  /-- So many leading characters of a public key were left out. -/
  | publicKeyTruncated (dropped : Nat)
  /-- The value of a configuration variable was not understood. -/
  | settingIgnored (variableName reason : String)
  /-- A GCM nonce was taken from the key. -/
  | nonceFromKey
  deriving DecidableEq, Repr

/-- The fields of the log line of a warning. -/
def Warning.fields : Warning → List (String × String)
  | publicKeyTruncated dropped =>
    [("message", "truncating SM2 public key to its trailing 128 hex characters"),
     ("dropped", toString dropped)]
  | settingIgnored variableName reason =>
    [("message", "ignoring invalid configuration value"),
     ("variable", variableName), ("reason", reason)]
  | nonceFromKey =>
    [("message", "deriving SM4/GCM nonce from the key; "
        ++ "every value under this key reuses the same nonce")]

/-- A result and the warnings that arose on the way to it. -/
structure Reported (α : Type) where
  result : α
  warnings : List Warning
  deriving DecidableEq, Repr

namespace Reported

/-- A result without a warning. -/
def quiet {α : Type} (a : α) : Reported α := ⟨a, []⟩

/-- A second call after a first one; its warnings come second. -/
def andThen {α β : Type} (r : Reported α) (next : α → Reported β) : Reported β :=
  let s := next r.result
  ⟨s.result, r.warnings ++ s.warnings⟩

instance : Monad Reported where
  pure := quiet
  bind := andThen

instance : LawfulMonad Reported := LawfulMonad.mk' Reported
  (fun x => by
    show Reported.mk x.result (x.warnings ++ []) = x
    simp)
  (fun _ _ => rfl)
  (fun x f g => by
    show Reported.mk _ ((x.warnings ++ (f x.result).warnings) ++ _) = Reported.mk _ _
    rw [List.append_assoc]
    rfl)

end Reported

/-- A call that may warn and may fail. -/
abbrev Checked (ε α : Type) := ExceptT ε Reported α

namespace Checked

/-- What the call gave. -/
def result {ε α : Type} (c : Checked ε α) : Except ε α := Reported.result c.run

/-- What the call warned about. -/
def warnings {ε α : Type} (c : Checked ε α) : List Warning := Reported.warnings c.run

/-- A call without a warning. -/
def ofExcept {ε α : Type} (r : Except ε α) : Checked ε α := ExceptT.mk (Reported.quiet r)

end Checked

end ColumnMasking
