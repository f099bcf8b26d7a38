/-
ColumnMasking.Proofs.Engine.Warnings — when a call warns, and what its
warnings give away.

`warnings_exact` says for each call of SM4 on texts, and for each public key
text that is resolved, under which condition there is a warning and that there
is none otherwise. Where in a call the warning arises is what this turns on. A
nonce is taken from the key after the key text is resolved and before any text
is read, so a call that fails afterwards has warned, one whose key fails has
not, and a column warns as often as a single call
(`warnings_bind_inputs_exact`). Digits of a public key are left out after their
count is found good and before they are read.

Two calls that agree on the condition write the same log lines, whatever their
keys and texts are: a warning has nothing in it but the count of digits that
were left out.
-/
import ColumnMasking.Proofs.Engine.Sm4Outcomes
import ColumnMasking.Proofs.Sm2.PublicKeyTexts
import ColumnMasking.Engine.Sm2

namespace ColumnMasking

/-- The warning is the only one where the condition holds, and where it does
not there is none. -/
def Warning.ExactlyIf (warning : Warning) (condition : Prop) (given : List Warning) : Prop :=
  (condition → given = [warning]) ∧ (¬ condition → given = [])

/-- Equivalent conditions leave the same warnings. -/
theorem Warning.ExactlyIf.eq_of_iff {warning : Warning} {condition other : Prop}
    {given given' : List Warning} (h : warning.ExactlyIf condition given)
    (h' : warning.ExactlyIf other given') (hiff : condition ↔ other) : given = given' := by
  by_cases hcondition : condition
  · rw [h.left hcondition, h'.left (hiff.mp hcondition)]
  · rw [h.right hcondition, h'.right (mt hiff.mpr hcondition)]

/-- The log lines of warnings. -/
def logLines (given : List Warning) : List (List (String × String)) :=
  given.map Warning.fields

namespace Engine

variable {engine : Engine} {key text : String} {mode : Sm4.Mode} {iv : Option String}
  {encoding : Encoding}

/-! ## 1. Nonces from the key -/

/-- The nonce of a call comes from its key: GCM is called without one, or with
an empty one, and the settings say where it is to come from. -/
def DerivesNonce (engine : Engine) (mode : Sm4.Mode) (iv : Option String) : Prop :=
  mode = .gcm ∧ (iv = none ∨ iv = some "") ∧ engine.settings.noncePolicy = .legacyKeyDerived

/-- Once there is a key, the IV is warned of when it comes from there. -/
theorem warnings_sm4Iv_exact (engine : Engine) (mode : Sm4.Mode) (key : String)
    (iv : Option String) (encoding : Encoding) :
    Warning.nonceFromKey.ExactlyIf (engine.DerivesNonce mode iv)
      (engine.sm4Iv mode key iv encoding).warnings := by
  have hquiet : ∀ {given : List Warning}, given = [] → ¬ engine.DerivesNonce mode iv →
      Warning.nonceFromKey.ExactlyIf (engine.DerivesNonce mode iv) given :=
    fun hgiven hnot => ⟨fun h => absurd h hnot, fun _ => hgiven⟩
  unfold sm4Iv
  split
  · exact hquiet rfl fun h => absurd h.left (by decide)
  · -- GCM with a nonce
    rename_i text hgiven
    obtain ⟨rfl, hne⟩ := filter_eq_some_iff.mp hgiven
    refine hquiet rfl fun h => ?_
    rcases h.right.left with hnone | hempty
    · cases hnone
    · exact hne (Option.some.inj hempty)
  · exact hquiet rfl fun h => absurd h.left (by decide)
  · exact hquiet rfl fun h => absurd h.left (by decide)
  · -- GCM without a nonce
    rename_i hnone
    split
    · rename_i hpolicy
      exact hquiet rfl fun h => absurd (hpolicy.symm.trans h.right.right) (by decide)
    · rename_i hpolicy
      exact ⟨fun _ => rfl, fun hnot => absurd ⟨rfl, filter_eq_none_iff.mp hnone, hpolicy⟩ hnot⟩

/-- Steps that warn of nothing follow on the key and the IV without a trace:
the call warns when the key text resolves and the nonce comes from it. -/
theorem warnings_bind_inputs_exact {α : Type} {next : Sm4.Key → Option Sm4.Iv → Checked Error α}
    (hnext : ∀ k v, (next k v).warnings = []) :
    Warning.nonceFromKey.ExactlyIf
      ((∃ m, KeyMaterial.sm4Key key encoding = .ok m) ∧ engine.DerivesNonce mode iv)
      (Checked.ofExcept (engine.sm4Key key encoding) >>= fun k =>
        engine.sm4Iv mode key iv encoding >>= fun v => next k v).warnings := by
  rw [Checked.warnings_bind, Checked.warnings_ofExcept, List.nil_append,
    Checked.result_ofExcept, sm4Key_eq]
  cases KeyMaterial.sm4Key key encoding with
  | error cause =>
    refine ⟨?_, fun _ => rfl⟩
    rintro ⟨⟨m, hm⟩, -⟩
    cases hm
  | ok m =>
    have hiv := engine.warnings_sm4Iv_exact mode key iv encoding
    show Warning.nonceFromKey.ExactlyIf _
      (engine.sm4Iv mode key iv encoding >>= fun v => next ⟨m.bytes⟩ v).warnings
    rw [Checked.warnings_bind_of_quiet (hnext _)]
    exact ⟨fun h => hiv.left h.right, fun h => hiv.right fun hderives => h ⟨⟨m, rfl⟩, hderives⟩⟩

/-! ## 2. Calls of SM4 -/

/-- A call of SM4 on a text or on a column of texts. -/
inductive Sm4Call where
  | encrypt (key plaintext : String) (mode : Sm4.Mode) (iv aad : Option String)
      (encoding : Encoding)
  | decrypt (key ciphertext : String) (mode : Sm4.Mode) (iv aad : Option String)
      (encoding : Encoding)
  | encryptColumn (key : String) (values : List String) (mode : Sm4.Mode) (iv : Option String)
      (encoding : Encoding)
  | decryptColumn (key : String) (values : List String) (mode : Sm4.Mode) (iv : Option String)
      (encoding : Encoding)

namespace Sm4Call

/-- What the call warns of. -/
def warnings (engine : Engine) : Sm4Call → List Warning
  | encrypt key plaintext mode iv aad encoding =>
    (engine.sm4Encrypt key plaintext mode iv aad encoding).warnings
  | decrypt key ciphertext mode iv aad encoding =>
    (engine.sm4Decrypt key ciphertext mode iv aad encoding).warnings
  | encryptColumn key values mode iv encoding =>
    (engine.sm4EncryptColumn key values mode iv encoding).warnings
  | decryptColumn key values mode iv encoding =>
    (engine.sm4DecryptColumn key values mode iv encoding).warnings

/-- The call takes its nonce from its key. An empty text is not transformed at
all; a column is, even one without rows. -/
def TakesNonceFromKey (engine : Engine) : Sm4Call → Prop
  | encrypt key text mode iv _ encoding | decrypt key text mode iv _ encoding =>
    text ≠ "" ∧ (∃ m, KeyMaterial.sm4Key key encoding = .ok m) ∧ engine.DerivesNonce mode iv
  | encryptColumn key _ mode iv encoding | decryptColumn key _ mode iv encoding =>
    (∃ m, KeyMaterial.sm4Key key encoding = .ok m) ∧ engine.DerivesNonce mode iv

/-- Nothing is warned of for an empty text. -/
theorem exactlyIf_nonempty {warning : Warning} {condition : Prop} {text : String}
    {c : Checked Error String} (h : warning.ExactlyIf condition c.warnings) :
    warning.ExactlyIf (text ≠ "" ∧ condition)
      (if text = "" then pure "" else c : Checked Error String).warnings := by
  split
  · rename_i hempty
    exact ⟨fun hcondition => absurd hempty hcondition.left, fun _ => rfl⟩
  · rename_i hne
    exact ⟨fun hcondition => h.left hcondition.right, fun hnot => h.right fun hc => hnot ⟨hne, hc⟩⟩

/-- A call warns when it takes its nonce from its key, and only then. -/
theorem exactlyIf_takesNonceFromKey (engine : Engine) (call : Sm4Call) :
    Warning.nonceFromKey.ExactlyIf (call.TakesNonceFromKey engine) (call.warnings engine) := by
  cases call with
  | encrypt key plaintext mode iv aad encoding =>
    refine exactlyIf_nonempty (warnings_bind_inputs_exact fun k v => ?_)
    exact Checked.warnings_ofExcept_bind fun _ => rfl
  | decrypt key ciphertext mode iv aad encoding =>
    refine exactlyIf_nonempty (warnings_bind_inputs_exact fun k v => ?_)
    refine Checked.warnings_ofExcept_bind fun bytes => ?_
    exact Checked.warnings_ofExcept_bind fun _ => rfl
  | encryptColumn key values mode iv encoding =>
    refine warnings_bind_inputs_exact fun k v => ?_
    exact Checked.warnings_ofExcept_bind fun _ => rfl
  | decryptColumn key values mode iv encoding =>
    refine warnings_bind_inputs_exact fun k v => ?_
    refine Checked.warnings_ofExcept_bind fun rows => ?_
    exact Checked.warnings_ofExcept_bind fun _ => rfl

end Sm4Call

end Engine

/-! ## 3. Public keys -/

namespace KeyMaterial

variable {text : String} {encoding : Encoding} {digits : List Char} {strict : Bool}

/-- The hexadecimal digits that a public key text stands for: itself, or what
the bytes of a Base64 text are in digits. -/
def StandsFor (encoding : Encoding) (text : String) (digits : List Char) : Prop :=
  text ≠ "" ∧
    match encoding with
    | .hex => (∀ c ∈ text.toList, Hex.IsDigit c) ∧ digits = text.toList
    | .base64 => ∃ bytes, text = Base64.encode bytes ∧ digits = (Hex.encode bytes).toList

/-- A count of digits that passes: no less than 128, and under the strict
reading nothing but that and a leading `04`. -/
def PassesShape (strict : Bool) (digits : List Char) : Prop :=
  128 ≤ digits.length ∧
    (strict = true → digits.length = 128 ∨ digits.length = 130 ∧ ['0', '4'] <+: digits)

theorem digitsOfPublicKey_iff :
    (∃ source, digitsOfPublicKey text encoding = .ok (digits, source))
      ↔ StandsFor encoding text digits := by
  cases encoding with
  | hex => simp [digitsOfPublicKey_hex_iff, StandsFor, and_assoc]
  | base64 => simp [digitsOfPublicKey_base64_iff, StandsFor]

theorem checkPublicKeyLength_iff :
    checkPublicKeyLength digits strict = .ok () ↔ PassesShape strict digits := by
  cases strict with
  | false =>
    rw [checkPublicKeyLength_lenient_iff]
    exact ⟨fun h => ⟨h, nofun⟩, fun h => h.left⟩
  | true =>
    rw [checkPublicKeyLength_strict_iff]
    constructor
    · intro h
      refine ⟨?_, fun _ => h⟩
      rcases h with h | ⟨h, -⟩ <;> rw [h] <;> decide
    · exact fun h => h.right rfl

/-- So many digits of a public key text are left out that are no leading
`04`. -/
def Truncates (encoding : Encoding) (strict : Bool) (text : String) (dropped : Nat) : Prop :=
  ∃ digits, StandsFor encoding text digits ∧ PassesShape strict digits
    ∧ 128 < digits.length ∧ ¬ (digits.length = 130 ∧ ['0', '4'] <+: digits)
    ∧ dropped = digits.length - 128

/-- The strict reading leaves nothing else out. -/
theorem not_truncates_strict {dropped : Nat} : ¬ Truncates encoding true text dropped := by
  rintro ⟨digits, -, ⟨-, hpasses⟩, hlong, htagged, -⟩
  rcases hpasses rfl with hexact | htag
  · omega
  · exact htagged htag

/-- The warnings of a text that stands for digits whose count will do. -/
theorem warnings_sm2PublicKey_of_passes (hdigits : StandsFor encoding text digits)
    (hpasses : PassesShape strict digits) :
    (sm2PublicKey text encoding strict).warnings = truncationWarnings digits := by
  obtain ⟨source, hread⟩ := digitsOfPublicKey_iff.mpr hdigits
  rw [sm2PublicKey, hread, Checked.warnings_bind]
  show (Checked.ofExcept (checkPublicKeyLength digits strict) >>= fun _ =>
    ExceptT.mk ⟨publicKeyOfDigits digits source, truncationWarnings digits⟩).warnings = _
  rw [checkPublicKeyLength_iff.mpr hpasses]
  rfl

/-- There is no warning of any other text. -/
theorem warnings_sm2PublicKey_of_not_passes
    (h : ∀ digits, StandsFor encoding text digits → ¬ PassesShape strict digits) :
    (sm2PublicKey text encoding strict).warnings = [] := by
  rw [sm2PublicKey, Checked.warnings_bind]
  cases hread : digitsOfPublicKey text encoding with
  | error cause => rfl
  | ok read =>
    obtain ⟨digits, source⟩ := read
    have hfails := mt checkPublicKeyLength_iff.mp (h digits (digitsOfPublicKey_iff.mp ⟨_, hread⟩))
    cases hcount : checkPublicKeyLength digits strict with
    | ok u => exact absurd hcount hfails
    | error cause =>
      show (Checked.ofExcept (checkPublicKeyLength digits strict) >>= fun _ =>
        ExceptT.mk ⟨publicKeyOfDigits digits source, truncationWarnings digits⟩).warnings = _
      rw [hcount]
      rfl

/-- Digits that are left out are warned of unless they are a leading `04`. -/
theorem truncationWarnings_exact :
    (Warning.publicKeyTruncated (digits.length - 128)).ExactlyIf
      (128 < digits.length ∧ ¬ (digits.length = 130 ∧ ['0', '4'] <+: digits))
      (truncationWarnings digits) := by
  have hcount : publicKeyDigits = 128 := by decide
  have htagged : isTaggedPoint digits = true ↔ _ := isTaggedPoint_iff
  rw [hcount] at htagged
  rw [truncationWarnings, hcount]
  constructor
  · rintro ⟨hlong, hnot⟩
    rw [if_pos ⟨hlong, mt htagged.mp hnot⟩]
  · intro hnot
    rw [if_neg fun ⟨hlong, h⟩ => hnot ⟨hlong, mt htagged.mpr h⟩]

/-- Resolving a public key text warns of the digits that are left out, and of
nothing else. -/
theorem warnings_sm2PublicKey_exact :
    (∀ dropped, Truncates encoding strict text dropped →
      (sm2PublicKey text encoding strict).warnings = [.publicKeyTruncated dropped]) ∧
    ((∀ dropped, ¬ Truncates encoding strict text dropped) →
      (sm2PublicKey text encoding strict).warnings = []) := by
  constructor
  · rintro dropped ⟨digits, hdigits, hpasses, hlong, htagged, hdropped⟩
    rw [hdropped, warnings_sm2PublicKey_of_passes hdigits hpasses]
    exact truncationWarnings_exact.left ⟨hlong, htagged⟩
  · intro hnone
    by_cases hpasses : ∃ digits, StandsFor encoding text digits ∧ PassesShape strict digits
    · obtain ⟨digits, hdigits, hpasses⟩ := hpasses
      rw [warnings_sm2PublicKey_of_passes hdigits hpasses]
      exact truncationWarnings_exact.right fun ⟨hlong, htagged⟩ =>
        hnone _ ⟨digits, hdigits, hpasses, hlong, htagged, rfl⟩
    · exact warnings_sm2PublicKey_of_not_passes fun digits hdigits h => hpasses ⟨digits, hdigits, h⟩

end KeyMaterial

/-! ## 4. All warnings of the calls -/

namespace Engine

/-- So many digits of a public key text are left out by the engine that are no
leading `04`. -/
def Truncates (engine : Engine) (text : String) (dropped : Nat) : Prop :=
  KeyMaterial.Truncates engine.settings.keyEncoding engine.settings.strictPublicKey text dropped

/-- What becomes of the material is not warned of. -/
theorem warnings_sm2PublicKey (engine : Engine) (text : String) :
    (engine.sm2PublicKey text).warnings
      = (KeyMaterial.sm2PublicKey text engine.settings.keyEncoding
          engine.settings.strictPublicKey).warnings := by
  rw [sm2PublicKey, Checked.warnings_bind_of_quiet fun _ => rfl, Checked.warnings_adapt]

/-- The engine warns of the digits that are left out, and of nothing else. -/
theorem sm2PublicKey_warnings_exact (engine : Engine) (text : String) :
    (∀ dropped, engine.Truncates text dropped →
      (engine.sm2PublicKey text).warnings = [.publicKeyTruncated dropped]) ∧
    ((∀ dropped, ¬ engine.Truncates text dropped) → (engine.sm2PublicKey text).warnings = []) := by
  rw [warnings_sm2PublicKey]
  exact KeyMaterial.warnings_sm2PublicKey_exact

/-- A call of SM4 warns once, however many its texts are, when it takes its
nonce from its key, and a public key text is warned of when digits of it are
left out, which under the strict reading they never are. There are no other
warnings, and two calls that agree on this write the same log lines whatever
else they are given. -/
theorem warnings_exact (engine : Engine) :
    (∀ call : Sm4Call,
      Warning.nonceFromKey.ExactlyIf (call.TakesNonceFromKey engine) (call.warnings engine)) ∧
    (∀ text,
      (∀ dropped, engine.Truncates text dropped →
        (engine.sm2PublicKey text).warnings = [.publicKeyTruncated dropped]) ∧
      ((∀ dropped, ¬ engine.Truncates text dropped) → (engine.sm2PublicKey text).warnings = []) ∧
      (engine.settings.strictPublicKey = true → (engine.sm2PublicKey text).warnings = [])) ∧
    (∀ (other : Engine) (call call' : Sm4Call),
      (call.TakesNonceFromKey engine ↔ call'.TakesNonceFromKey other) →
      logLines (call.warnings engine) = logLines (call'.warnings other)) ∧
    (∀ (other : Engine) (text text' : String),
      (∀ dropped, engine.Truncates text dropped ↔ other.Truncates text' dropped) →
      logLines (engine.sm2PublicKey text).warnings
        = logLines (other.sm2PublicKey text').warnings) := by
  refine ⟨Sm4Call.exactlyIf_takesNonceFromKey engine, fun text => ?_,
    fun other call call' hiff => ?_, fun other text text' hiff => ?_⟩
  · obtain ⟨htruncates, hnone⟩ := engine.sm2PublicKey_warnings_exact text
    refine ⟨htruncates, hnone, fun hstrict => hnone fun dropped h => ?_⟩
    rw [Truncates, hstrict] at h
    exact KeyMaterial.not_truncates_strict h
  · rw [(call.exactlyIf_takesNonceFromKey engine).eq_of_iff
      (call'.exactlyIf_takesNonceFromKey other) hiff]
  · obtain ⟨htruncates, hnone⟩ := engine.sm2PublicKey_warnings_exact text
    obtain ⟨htruncates', hnone'⟩ := other.sm2PublicKey_warnings_exact text'
    by_cases htruncated : ∃ dropped, engine.Truncates text dropped
    · obtain ⟨dropped, h⟩ := htruncated
      rw [htruncates dropped h, htruncates' dropped ((hiff dropped).mp h)]
    · have hquiet : ∀ dropped, ¬ engine.Truncates text dropped := fun dropped h =>
        htruncated ⟨dropped, h⟩
      rw [hnone hquiet, hnone' fun dropped h => hquiet dropped ((hiff dropped).mpr h)]

/-- The engine that takes its nonces from the key warns once of a column of two
texts. It writes the same line for a text that is enciphered and for one that
cannot even be read, under different keys. And of 129 digits one is left out. -/
theorem warnings_exact_legacy :
    (Sm4Call.encryptColumn "0123456789abcdef" ["a", "b"] .gcm (some "") .hex).warnings
        ⟨{ noncePolicy := .legacyKeyDerived }⟩ = [.nonceFromKey] ∧
    logLines
        ((Sm4Call.encrypt "0123456789abcdef" "a" .gcm none none .hex).warnings
          ⟨{ noncePolicy := .legacyKeyDerived }⟩)
      = logLines
        ((Sm4Call.decrypt "fedcba9876543210" "?" .gcm (some "") (some "b") .base64).warnings
          ⟨{ noncePolicy := .legacyKeyDerived }⟩) ∧
    (Engine.sm2PublicKey ⟨{ noncePolicy := .legacyKeyDerived }⟩
      (String.ofList (List.replicate 129 '0'))).warnings = [.publicKeyTruncated 1] := by
  obtain ⟨hsm4, hkey, hpair, -⟩ := warnings_exact ⟨{ noncePolicy := .legacyKeyDerived }⟩
  refine ⟨(hsm4 _).left ⟨⟨_, rfl⟩, rfl, .inr rfl, rfl⟩, hpair _ _ _ ?_, (hkey _).left 1 ?_⟩
  · exact iff_of_true ⟨by decide, ⟨_, rfl⟩, rfl, .inl rfl, rfl⟩
      ⟨by decide, ⟨_, rfl⟩, rfl, .inr rfl, rfl⟩
  · have htext : (String.ofList (List.replicate 129 '0')).toList = List.replicate 129 '0' :=
      String.toList_ofList
    have hlength : (List.replicate 129 '0').length = 129 := List.length_replicate
    have hne : String.ofList (List.replicate 129 '0') ≠ "" := by
      intro h
      rw [h] at htext
      cases htext
    have hdigits : ∀ c ∈ List.replicate 129 '0', Hex.IsDigit c := by
      intro c hc
      rw [List.eq_of_mem_replicate hc]
      decide
    refine ⟨List.replicate 129 '0', ⟨hne, ?_, htext.symm⟩, ⟨?_, nofun⟩, ?_, ?_, ?_⟩
    · rwa [htext]
    all_goals rw [hlength]
    · decide
    · decide
    · rintro ⟨h, -⟩
      cases h

end Engine
end ColumnMasking
