/-
ColumnMasking.Proofs.Sql.MissingParameters — parameters that are left out,
NULL or empty.

A function looks at its parameters by their places alone, and a place that
is not there counts as NULL (`at?_append_none`), so a NULL at the end may be
left out. Some places take the empty string for NULL as well; the engine or
the function sees to that, depending on the place
(`apply_emptyCountsAsNull`).

`missing_parameters` puts these together with the two cases in which nothing
else is looked at: a count of parameters that is not admitted, and a NULL that
a function passes on (`apply_of_null`).
-/
import ColumnMasking.Proofs.Sql.FunctionResults

namespace ColumnMasking.Sql

/-! ## 1. Places -/

/-- A NULL at the end is no different from the end. -/
theorem at?_append_none (parameters : List Parameter) :
    at? (parameters ++ [none]) = at? parameters := by
  funext place
  unfold at?
  rcases Nat.lt_trichotomy place parameters.length with hlt | heq | hgt
  · rw [List.getElem?_append_left hlt]
  · subst heq
    simp
  · rw [List.getElem?_eq_none (by simp; omega), List.getElem?_eq_none (by omega)]

/-- A parameter that is replaced is the only one that changes. -/
theorem at?_set_of_ne (parameters : List Parameter) {place other : Nat} (h : place ≠ other)
    (parameter : Parameter) :
    at? (parameters.set place parameter) other = at? parameters other := by
  rw [at?, List.getElem?_set_ne h, at?]

/-- A parameter is replaced where there is one. -/
theorem at?_set_self (parameters : List Parameter) (place : Nat) (parameter : Parameter) :
    at? (parameters.set place parameter) place
      = if place < parameters.length then parameter else none := by
  unfold at?
  by_cases h : place < parameters.length
  · rw [List.getElem?_set_self h, if_pos h, Option.join_some]
  · rw [List.getElem?_eq_none (by rw [List.length_set]; omega), if_neg h, Option.join_none]

namespace Function

variable {f : Function} {engine : Engine} {parameters : List Parameter}

/-- The function takes so many parameters. -/
def Admits (f : Function) (count : Nat) : Prop :=
  f.least ≤ count ∧ count ≤ f.most

theorem checkCount_eq {count : Nat} (h : f.Admits count) : f.checkCount count = .ok () :=
  if_pos h

/-- An admitted count of parameters is passed over. -/
theorem invoke_eq_apply (h : f.Admits parameters.length) :
    f.invoke engine parameters = f.apply engine parameters := by
  rw [invoke, checkCount_eq h]
  rfl

/-- A count that is not admitted is refused before any parameter is looked
at. -/
theorem invoke_of_not_admits (h : ¬ f.Admits parameters.length) (e : Entropy) :
    (f.invoke engine parameters).runOn e
      = .quiet (.error (.invalidArgument
          (.parameterCount f.name f.least f.most parameters.length)), e) := by
  have hcount : f.checkCount parameters.length
      = .error (.invalidArgument (.parameterCount f.name f.least f.most parameters.length)) :=
    if_neg h
  rw [invoke, hcount]
  rfl

/-- A function looks at its parameters by their places. -/
theorem apply_congr {others : List Parameter} (h : at? parameters = at? others) :
    f.apply engine parameters = f.apply engine others := by
  unfold apply
  rw [h]

end Function

/-! ## 2. Empty parameters -/

/-- An empty text that is filtered out is none. -/
theorem filter_empty : (some "").filter (· ≠ "") = none := by decide

end ColumnMasking.Sql

namespace ColumnMasking.Engine

variable {engine : Engine} {key text : String} {mode : Sm4.Mode} {aad : Option String}
  {encoding : Encoding}

/-- An empty text is no IV. -/
theorem sm4Iv_empty :
    engine.sm4Iv mode key (some "") encoding = engine.sm4Iv mode key none encoding := by
  unfold sm4Iv
  rw [Sql.filter_empty]
  rfl

theorem sm4Encrypt_emptyIv :
    engine.sm4Encrypt key text mode (some "") aad encoding
      = engine.sm4Encrypt key text mode none aad encoding := by
  rw [sm4Encrypt, sm4Encrypt, sm4Iv_empty]

theorem sm4Decrypt_emptyIv :
    engine.sm4Decrypt key text mode (some "") aad encoding
      = engine.sm4Decrypt key text mode none aad encoding := by
  rw [sm4Decrypt, sm4Decrypt, sm4Iv_empty]

end ColumnMasking.Engine

namespace ColumnMasking.Sql.Function

variable {f : Function} {engine : Engine} {parameters : List Parameter}

section

variable {transform : String → String → Option String → Option String → Checked Error String}
  {value key nonce aad : Parameter}

/-- A transformation that takes an empty nonce for none goes on doing so. -/
theorem counterMode_emptyNonce
    (h : ∀ k text aad, transform k text (some "") aad = transform k text none aad) :
    counterMode transform value key (some "") aad = counterMode transform value key none aad := by
  unfold counterMode
  simp only [h]

/-- Empty additional data is none, whatever the transformation makes of it. -/
theorem counterMode_emptyAad :
    counterMode transform value key nonce (some "")
      = counterMode transform value key nonce none := by
  unfold counterMode
  rw [filter_empty]
  rfl

theorem signing_emptyIdentity {encoding : Encoding} :
    signing engine value key (some "") encoding = signing engine value key none encoding := rfl

theorem verification_emptyIdentity {signature : Parameter} {encoding : Encoding} :
    verification engine value key signature (some "") encoding
      = verification engine value key signature none encoding := rfl

end

/-- The places of optional parameters at which the empty string counts as
NULL: nonce and additional data of GCM, and the identity of a signature. The
mode type of SM2 encryption is not among them. -/
def emptyCountsAsNull : Function → List Nat
  | sm4Encrypt | sm4Decrypt => [2, 3]
  | sm2Sign | sm2SignHex => [2]
  | sm2Verify | sm2VerifyHex => [3]
  | _ => []

/-- The empty string for NULL at one of these places makes no difference. -/
theorem apply_emptyCountsAsNull {place : Nat} (h : place ∈ f.emptyCountsAsNull) :
    f.apply engine (parameters.set place (some ""))
      = f.apply engine (parameters.set place none) := by
  by_cases hplace : place < parameters.length
  · have hempty : at? (parameters.set place (some "")) place = some "" := by
      rw [at?_set_self, if_pos hplace]
    have hnull : at? (parameters.set place none) place = none := by
      rw [at?_set_self, if_pos hplace]
    cases f <;> simp only [emptyCountsAsNull, List.mem_cons, List.not_mem_nil, or_false] at h
    case sm4Encrypt =>
      rcases h with rfl | rfl
      · simp (disch := decide) only [apply, hempty, hnull, at?_set_of_ne]
        exact counterMode_emptyNonce fun _ _ _ => Engine.sm4Encrypt_emptyIv
      · simp (disch := decide) only [apply, hempty, hnull, at?_set_of_ne]
        exact counterMode_emptyAad
    case sm4Decrypt =>
      rcases h with rfl | rfl
      · simp (disch := decide) only [apply, hempty, hnull, at?_set_of_ne]
        exact counterMode_emptyNonce fun _ _ _ => Engine.sm4Decrypt_emptyIv
      · simp (disch := decide) only [apply, hempty, hnull, at?_set_of_ne]
        exact counterMode_emptyAad
    case sm2Sign | sm2SignHex =>
      subst h
      simp (disch := decide) only [apply, hempty, hnull, at?_set_of_ne]
      exact signing_emptyIdentity
    case sm2Verify | sm2VerifyHex =>
      subst h
      simp (disch := decide) only [apply, hempty, hnull, at?_set_of_ne]
      exact verification_emptyIdentity
  · rw [List.set_eq_of_length_le (by omega), List.set_eq_of_length_le (by omega)]

/-! ## 3. NULL for NULL -/

section

variable {message key signature identity : Parameter} {encoding : Encoding}

theorem sm2Decryption_of_null (h : message = none ∨ key = none) :
    sm2Decryption engine message key encoding = pure none := by
  rcases h with rfl | rfl
  · rfl
  · cases message <;> rfl

theorem signing_of_null (h : message = none ∨ key = none) :
    signing engine message key identity encoding = pure none := by
  rcases h with rfl | rfl
  · rfl
  · cases message <;> rfl

theorem verification_of_null (h : message = none ∨ key = none ∨ signature = none) :
    verification engine message key signature identity encoding = pure none := by
  rcases h with rfl | rfl | rfl
  · rfl
  · cases message <;> rfl
  · cases message <;> cases key <;> rfl

end

/-- The functions that give NULL for NULL at every place that they require:
those of SM2 but encryption. -/
def passingNull : List Function :=
  [sm2Decrypt, sm2HexDecrypt, sm2GetPubkey, sm2Sign, sm2SignHex, sm2Verify, sm2VerifyHex]

/-- They give it before anything else is looked at. -/
theorem apply_of_null {place : Nat} (hf : f ∈ passingNull) (hplace : place < f.least)
    (hnull : at? parameters place = none) : f.apply engine parameters = pure none := by
  cases f
  case sm2Decrypt | sm2HexDecrypt =>
    obtain rfl | rfl : place = 0 ∨ place = 1 := by
      simp only [least] at hplace
      omega
    · exact sm2Decryption_of_null (.inl hnull)
    · exact sm2Decryption_of_null (.inr hnull)
  case sm2GetPubkey =>
    obtain rfl : place = 0 := by
      simp only [least] at hplace
      omega
    rw [apply, hnull]
  case sm2Sign | sm2SignHex =>
    obtain rfl | rfl : place = 0 ∨ place = 1 := by
      simp only [least] at hplace
      omega
    · exact signing_of_null (.inl hnull)
    · exact signing_of_null (.inr hnull)
  case sm2Verify | sm2VerifyHex =>
    obtain rfl | rfl | rfl : place = 0 ∨ place = 1 ∨ place = 2 := by
      simp only [least] at hplace
      omega
    · exact verification_of_null (.inl hnull)
    · exact verification_of_null (.inr (.inl hnull))
    · exact verification_of_null (.inr (.inr hnull))
  all_goals exact absurd hf (by decide)

/-! ## 4. Missing parameters -/

/-- A NULL at the end may be left out, and at the places of
`emptyCountsAsNull` the empty string may stand for it. A count of parameters
that is not admitted is refused, and with a count that is admitted NULL is
passed on by the functions that do so, whatever the other parameters are.

Calls that are equal are so on every random stream, with all that they draw
and warn of. -/
theorem missing_parameters (f : Function) (engine : Engine) (parameters : List Parameter) :
    (f.Admits parameters.length → f.Admits (parameters ++ [none]).length →
      f.invoke engine (parameters ++ [none]) = f.invoke engine parameters) ∧
    (∀ place ∈ f.emptyCountsAsNull,
      f.invoke engine (parameters.set place (some ""))
        = f.invoke engine (parameters.set place none)) ∧
    (¬ f.Admits parameters.length → ∀ e,
      (f.invoke engine parameters).runOn e
        = .quiet (.error (.invalidArgument
            (.parameterCount f.name f.least f.most parameters.length)), e)) ∧
    (f ∈ passingNull → f.Admits parameters.length →
      ∀ place < f.least, at? parameters place = none → ∀ e,
        (f.invoke engine parameters).runOn e = .quiet (.ok none, e)) := by
  refine ⟨fun hshort hlong => ?_, fun place hplace => ?_, invoke_of_not_admits,
    fun hf hcount place hplace hnull e => ?_⟩
  · rw [invoke_eq_apply hlong, invoke_eq_apply hshort, apply_congr (at?_append_none parameters)]
  · rw [invoke, invoke, List.length_set, List.length_set, apply_emptyCountsAsNull hplace]
  · rw [invoke_eq_apply hcount, apply_of_null hf hplace hnull]
    rfl

/-- A value masked with GCM under no nonce, NULL and the empty string; a third
parameter for ECB; and a signature that is no Base64, checked under NULL. -/
theorem missing_parameters_gcm_ecb_verify :
    sm4Encrypt.invoke .default [some "a", some "k", none]
      = sm4Encrypt.invoke .default [some "a", some "k"]
    ∧ sm4Encrypt.invoke .default [some "a", some "k", some ""]
      = sm4Encrypt.invoke .default [some "a", some "k", none]
    ∧ (sm4EncryptEcb.invoke .default [none, some "k", none]).runOn ⟨[]⟩
      = .quiet (.error (.invalidArgument (.parameterCount "sm4_encrypt_ecb" 2 2 3)), ⟨[]⟩)
    ∧ (sm2Verify.invoke .default [some "a", none, some "?"]).runOn ⟨[]⟩
      = .quiet (.ok none, ⟨[]⟩) := by
  obtain ⟨hnull, -, -, -⟩ := missing_parameters sm4Encrypt .default [some "a", some "k"]
  obtain ⟨-, hempty, -, -⟩ := missing_parameters sm4Encrypt .default [some "a", some "k", none]
  obtain ⟨-, -, hcount, -⟩ := missing_parameters sm4EncryptEcb .default [none, some "k", none]
  obtain ⟨-, -, -, hpassed⟩ := missing_parameters sm2Verify .default [some "a", none, some "?"]
  exact ⟨hnull ⟨by decide, by decide⟩ ⟨by decide, by decide⟩, hempty 2 (by decide),
    hcount (fun h => absurd h.right (by decide)) ⟨[]⟩,
    hpassed (by decide) ⟨by decide, by decide⟩ 1 (by decide) rfl ⟨[]⟩⟩

end ColumnMasking.Sql.Function
