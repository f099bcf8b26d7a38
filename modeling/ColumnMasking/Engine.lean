/-
ColumnMasking.Engine — the masking engine, and the kinds of call made on
it.

An engine is nothing but its settings: every call resolves the keys it
is given anew. Calls that only fail give an `Except`, calls that may warn
a `Checked`, calls that draw random bytes a `Drawing`, and calls that do
all of it a `Call`.
-/
import ColumnMasking.Settings

namespace ColumnMasking

/-- The version of the library. -/
def version : String := "0.1.0"

/-- A masking engine. -/
structure Engine where
  settings : Settings
  deriving DecidableEq, Repr

namespace Engine

/-- The engine where nothing is said. -/
def default : Engine := ⟨.default⟩

instance : Inhabited Engine := ⟨default⟩

/-- The engine of a settings file. -/
def load (file : Option Bytes) : Except Error Engine :=
  (Settings.load file).map (⟨·⟩)

/-- The engine of an environment. -/
def ofEnvironment (lookup : String → Option String) : Reported Engine := do
  let settings ← Settings.ofEnvironment lookup
  return ⟨settings⟩

end Engine

/-! ## Calls -/

/-- A call that may draw random bytes, warn and fail. -/
abbrev Call (α : Type) := ExceptT Error (StateT Entropy Reported) α

namespace Call

/-- A call that draws nothing. -/
def ofChecked {α : Type} (c : Checked Error α) : Call α :=
  ExceptT.mk fun e => ⟨(c.result, e), c.warnings⟩

/-- A call that warns of nothing. -/
def ofDrawing {α : Type} (d : Drawing Error α) : Call α :=
  ExceptT.mk fun e => .quiet (d.run e)

/-- A call that does nothing but succeed or fail. -/
def ofExcept {α : Type} (r : Except Error α) : Call α :=
  ofChecked (.ofExcept r)

/-- What a call gives on a random stream: its result, the stream after
it, and its warnings. -/
def runOn {α : Type} (c : Call α) (e : Entropy) : Reported (Except Error α × Entropy) :=
  c.run e

end Call

end ColumnMasking
