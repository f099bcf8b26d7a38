/-
ColumnMasking.Proofs.Sql.ModeTypes — what the mode type of SM2 encryption in SQL
asks for.

A mode type is a text, and stands for a number of 32 bits (`IsModeType`). One
asks for the order of the present standard and any other number for the former
order, so a number that wrapped around would silently give another ciphertext
than the one asked for. `sm2Encrypt_modeType` says that none does: a text that is
no such number is refused, and with one that is the call is that of the engine,
with nothing left to the order of the settings.

The call is refused for its mode type alone. The engine has faults of its own to
find, but an argument is never one of them (`kind_of_sm2Encrypt`).
-/
import ColumnMasking.Proofs.Engine.Sm2Keys
import ColumnMasking.Proofs.Sql.MissingParameters
import ColumnMasking.Proofs.Text.SignedNumbers
import ColumnMasking.Proofs.Text.WrittenNames

namespace ColumnMasking

/-! ## 1. Mode types -/

namespace Integer

/-- No character of a number is white space. -/
theorem Spells.isBlank {cs : List Char} {n : Int} (h : Spells cs n) :
    ∀ c ∈ cs, Blank.isBlank c = false := by
  have hdigit : ∀ {digits : List Char}, (∀ c ∈ digits, c.isDigit = true) →
      ∀ c ∈ digits, Blank.isBlank c = false := by
    intro digits hdigits c hc
    have hrange : 48 ≤ c.toNat ∧ c.toNat ≤ 57 := by
      simpa [Char.isDigit, UInt32.le_iff_toNat_le] using hdigits c hc
    exact Blank.isBlank_of_graphic ⟨by omega, by omega⟩
  cases h with
  | plain _ hdigits => exact hdigit hdigits
  | plus _ hdigits => exact List.forall_mem_cons.mpr ⟨by decide, hdigit hdigits⟩
  | minus _ hdigits => exact List.forall_mem_cons.mpr ⟨by decide, hdigit hdigits⟩

end Integer

namespace Sql

/-- The text stands for the number: it spells a number of 32 bits, with nothing
but white space around it. -/
def IsModeType (text : String) (n : Int) : Prop :=
  ∃ core, Blank.Padded text.toList core ∧ Integer.Spells core n ∧ -2 ^ 31 ≤ n ∧ n ≤ 2 ^ 31 - 1

/-- A mode type is what is read as a number once it is trimmed. -/
theorem isModeType_iff {text : String} {n : Int} :
    IsModeType text n ↔ Integer.int32? (Blank.trimChars text.toList) = some n := by
  rw [Integer.int32?_eq_some_iff]
  constructor
  · rintro ⟨core, hpadded, hspells, hrange⟩
    rw [Blank.trimChars_of_padded hpadded hspells.isBlank]
    exact ⟨hspells, hrange⟩
  · rintro ⟨hspells, hrange⟩
    exact ⟨_, Blank.padded_trimChars text.toList, hspells, hrange⟩

namespace Function

variable {f : Function} {engine : Engine} {text : String}

theorem layoutOfModeType_of_isModeType {n : Int} (h : IsModeType text n) :
    f.layoutOfModeType text = .ok (.ofModeType n) := by
  rw [layoutOfModeType, isModeType_iff.mp h]

theorem layoutOfModeType_of_not (h : ¬ ∃ n, IsModeType text n) :
    f.layoutOfModeType text = .error (.invalidArgument (.modeType f.name text)) := by
  have hnone : Integer.int32? (Blank.trimChars text.toList) = none :=
    Option.eq_none_iff_forall_ne_some.mpr fun n hn => h ⟨n, isModeType_iff.mpr hn⟩
  rw [layoutOfModeType, hnone]

end Function
end Sql

/-! ## 2. Faults of the engine -/

/-- No fault of SM2 itself lies with an argument. -/
theorem Sm2.Error.kind_ne_invalidArgument (cause : Sm2.Error) :
    cause.kind ≠ .invalidArgument := by
  cases cause <;> exact nofun

/-- Nor does any fault that encryption finds. -/
theorem Engine.kind_of_sm2Encrypt {engine : Engine} {publicKey plaintext : String}
    {layout : Sm2.Layout} {encoding : Encoding} {e : Entropy} {error : Error}
    (h : ((engine.sm2Encrypt publicKey plaintext layout encoding).runOn e).result.1
      = .error error) : error.kind ≠ .invalidArgument := by
  unfold sm2Encrypt at h
  split at h
  · cases h
  rw [Call.result_runOn_ofChecked_bind] at h
  cases hkey : (engine.sm2PublicKey publicKey).result with
  | error cause =>
    rw [hkey] at h
    obtain rfl := Except.error.inj h
    rw [kind_of_sm2PublicKey hkey]
    exact nofun
  | ok key =>
    rw [hkey] at h
    simp only [sm2EncryptBytes, Call.result_runOn_ofDrawing_bind, Drawing.run_adapt] at h
    cases hdrawn : (key.encrypt layout (Utf8.encode plaintext)).run e with
    | mk result rest =>
      rw [hdrawn] at h
      cases result with
      | error cause =>
        obtain rfl := Except.error.inj h
        exact cause.kind_ne_invalidArgument
      | ok ciphertext => cases h

/-! ## 3. Encryption by mode type -/

namespace Sql.Function

variable {engine : Engine} {plaintext key modeType : String}

/-- With a text to encipher and a key, a call is decided by its mode type. -/
theorem sm2Encrypt_invoke (hplaintext : plaintext ≠ "") (hkey : key ≠ "") :
    sm2Encrypt.invoke engine [some plaintext, some key, some modeType]
      = Call.ofExcept (sm2Encrypt.layoutOfModeType modeType) >>= fun layout =>
          some <$> engine.sm2Encrypt key plaintext layout .base64 := by
  have hrequired : sm2Encrypt.required "public key" (some key) = .ok key :=
    required_eq_ok_iff.mpr ⟨rfl, hkey⟩
  rw [invoke_eq_apply ⟨by simp [least], by simp [most]⟩]
  show sm2Encrypt.sm2Encryption engine (some plaintext) (some key) (some modeType) = _
  simp only [sm2Encryption, if_neg hplaintext, hrequired]
  rfl

/-- A text that is enciphered under a key is enciphered in the order that the
mode type asks for. A mode type that is no number of 32 bits is refused as an
argument, and nothing else is. One, however it is written, asks for the order of
the present standard and any other number for the former order; the order of the
settings does not come into it.

Calls that are equal are so on every random stream, with all that they draw and
warn of. -/
theorem sm2Encrypt_modeType (engine : Engine) (plaintext key modeType : String)
    (hplaintext : plaintext ≠ "") (hkey : key ≠ "") :
    (∀ e, (∃ error, ((sm2Encrypt.invoke engine
          [some plaintext, some key, some modeType]).runOn e).result.1 = .error error
        ∧ error.kind = .invalidArgument) ↔ ¬ ∃ n, IsModeType modeType n) ∧
    ((¬ ∃ n, IsModeType modeType n) → ∀ e,
      (sm2Encrypt.invoke engine [some plaintext, some key, some modeType]).runOn e
        = .quiet (.error (.invalidArgument (.modeType "sm2_encrypt" modeType)), e)) ∧
    (∀ n, IsModeType modeType n →
      sm2Encrypt.invoke engine [some plaintext, some key, some modeType]
        = some <$> engine.sm2Encrypt key plaintext
            (if n = 1 then .c1c3c2 else .c1c2c3) .base64) ∧
    (∀ layout, sm2Encrypt.invoke ⟨{ engine.settings with layout := layout }⟩
        [some plaintext, some key, some modeType]
      = sm2Encrypt.invoke engine [some plaintext, some key, some modeType]) := by
  have hrefused : (¬ ∃ n, IsModeType modeType n) → ∀ e,
      (sm2Encrypt.invoke engine [some plaintext, some key, some modeType]).runOn e
        = .quiet (.error (.invalidArgument (.modeType "sm2_encrypt" modeType)), e) := by
    intro h e
    rw [sm2Encrypt_invoke hplaintext hkey, layoutOfModeType_of_not h]
    rfl
  have hasked : ∀ n, IsModeType modeType n →
      sm2Encrypt.invoke engine [some plaintext, some key, some modeType]
        = some <$> engine.sm2Encrypt key plaintext
            (if n = 1 then .c1c3c2 else .c1c2c3) .base64 := by
    intro n h
    rw [sm2Encrypt_invoke hplaintext hkey, layoutOfModeType_of_isModeType h]
    rfl
  refine ⟨fun e => ?_, hrefused, hasked, fun layout => ?_⟩
  · constructor
    · rintro ⟨error, herror, hkind⟩ ⟨n, hn⟩
      rw [hasked n hn, Call.fst_runOn_map_eq_error_iff] at herror
      exact Engine.kind_of_sm2Encrypt herror hkind
    · intro h
      exact ⟨_, by rw [hrefused h e]; rfl, rfl⟩
  · rw [sm2Encrypt_invoke hplaintext hkey, sm2Encrypt_invoke hplaintext hkey]
    rfl

/-- One with a sign, a zero and spaces, and the number above 32 bits that would
wrap around to one. -/
theorem sm2Encrypt_modeType_one :
    sm2Encrypt.invoke .default [some "a", some "k", some " +01 "]
      = some <$> Engine.default.sm2Encrypt "k" "a" .c1c3c2 .base64 ∧
    (sm2Encrypt.invoke .default [some "a", some "k", some "4294967297"]).runOn ⟨[]⟩
      = .quiet (.error (.invalidArgument (.modeType "sm2_encrypt" "4294967297")), ⟨[]⟩) := by
  obtain ⟨-, -, hasked, -⟩ :=
    sm2Encrypt_modeType .default "a" "k" " +01 " (by decide) (by decide)
  obtain ⟨-, hrefused, -, -⟩ :=
    sm2Encrypt_modeType .default "a" "k" "4294967297" (by decide) (by decide)
  have hblank : ∀ c ∈ [' '], Blank.isBlank c = true := by simp [Blank.isBlank, Blank.ranges]
  refine ⟨hasked 1 ⟨_, ⟨[' '], [' '], by decide, hblank, hblank⟩,
    (Integer.spells_one 1).right, by decide, by decide⟩, hrefused ?_ ⟨[]⟩⟩
  rintro ⟨n, hn⟩
  rw [isModeType_iff, show Integer.int32? _ = none by decide] at hn
  cases hn

end Sql.Function
end ColumnMasking
