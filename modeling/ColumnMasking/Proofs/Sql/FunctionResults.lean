/-
ColumnMasking.Proofs.Sql.FunctionResults — what a call of an SQL function
gives.

A call succeeds when the count of its parameters is admitted and its
function does (`invoke_eq_ok_iff`). For the kinds of functions that mask or
unmask, the lemmas below say which parameters may be NULL or empty, and
which call of the engine the others come to.
-/
import ColumnMasking.Proofs.CallResults
import ColumnMasking.Sql.Invoke

namespace ColumnMasking.Sql

@[simp] theorem at?_cons_zero (parameter : Parameter) (rest : List Parameter) :
    at? (parameter :: rest) 0 = parameter := rfl

@[simp] theorem at?_cons_succ (parameter : Parameter) (rest : List Parameter) (place : Nat) :
    at? (parameter :: rest) (place + 1) = at? rest place := rfl

namespace Function

variable {f : Function} {engine : Engine} {e : Entropy} {out : Option String}

/-! ## 1. Parameters -/

/-- A parameter that is required is there and not empty. -/
theorem required_eq_ok_iff {what : String} {parameter : Parameter} {value : String} :
    f.required what parameter = .ok value ↔ parameter = some value ∧ value ≠ "" := by
  cases parameter with
  | none => simp [required]
  | some given =>
    simp only [required, Option.some.injEq]
    split
    · rename_i hempty
      constructor
      · exact nofun
      · rintro ⟨rfl, hne⟩
        exact absurd hempty hne
    · rename_i hne
      rw [Except.ok.injEq]
      constructor
      · rintro rfl
        exact ⟨rfl, hne⟩
      · rintro ⟨rfl, -⟩
        rfl

/-- A call gives what its function gives, if the count of its parameters is
admitted. -/
theorem invoke_eq_ok_iff {parameters : List Parameter} :
    ((f.invoke engine parameters).runOn e).result.1 = .ok out
      ↔ (f.least ≤ parameters.length ∧ parameters.length ≤ f.most)
        ∧ ((f.apply engine parameters).runOn e).result.1 = .ok out := by
  rw [invoke, Call.ofExcept, Call.fst_runOn_ofChecked_bind_eq_ok_iff, Checked.result_ofExcept,
    checkCount]
  split
  · rename_i hcount
    constructor
    · rintro ⟨u, -, h⟩
      exact ⟨hcount, h⟩
    · rintro ⟨-, h⟩
      exact ⟨(), rfl, h⟩
  · rename_i hcount
    constructor
    · rintro ⟨u, hu, -⟩
      exact absurd hu nofun
    · rintro ⟨h, -⟩
      exact absurd h hcount

/-! ## 2. ECB and CBC -/

section

variable {transform : String → String → Option String → Checked Error String}
  {key : Parameter} {iv : Except Error (Option String)}

/-- The empty string needs neither key nor IV. -/
theorem blockMode_empty :
    ((f.blockMode transform (some "") key iv).runOn e).result.1 = .ok (some "") := rfl

/-- Any other text needs a key, and an IV if the mode does. -/
theorem blockMode_eq_ok_iff {text : String} (htext : text ≠ "") :
    ((f.blockMode transform (some text) key iv).runOn e).result.1 = .ok out
      ↔ ∃ k v result, (key = some k ∧ k ≠ "") ∧ iv = .ok v
        ∧ (transform k text v).result = .ok result ∧ out = some result := by
  have hgiven : (some text).filter (· ≠ "") = some text := by simp [htext]
  unfold blockMode
  rw [hgiven]
  simp only [Call.ofExcept, Call.fst_runOn_ofChecked_bind_eq_ok_iff, Checked.result_ofExcept,
    required_eq_ok_iff]
  constructor
  · rintro ⟨k, hk, v, hv, result, hresult, h⟩
    exact ⟨k, v, result, hk, hv, hresult, (Except.ok.inj h).symm⟩
  · rintro ⟨k, v, result, hk, hv, hresult, rfl⟩
    exact ⟨k, hk, v, hv, result, hresult, rfl⟩

end

/-! ## 3. GCM -/

section

variable {transform : String → String → Option String → Option String → Checked Error String}
  {nonce aad : Parameter}

/-- The value is passed through where it or the key is NULL or empty. -/
theorem counterMode_of_missing {value key : Parameter}
    (h : value = none ∨ value = some "" ∨ key = none ∨ key = some "") :
    ((counterMode transform value key nonce aad).runOn e).result.1 = .ok value := by
  unfold counterMode
  split
  · rename_i text key
    have hempty : text = "" ∨ key = "" := by simpa using h
    rw [if_pos hempty]
    rfl
  · rfl

/-- Otherwise it is transformed. An empty text as additional data is none. -/
theorem counterMode_eq_ok_iff {text key : String} (htext : text ≠ "") (hkey : key ≠ "") :
    ((counterMode transform (some text) (some key) nonce aad).runOn e).result.1 = .ok out
      ↔ ∃ result, (transform key text nonce (aad.filter (· ≠ ""))).result = .ok result
        ∧ out = some result := by
  simp only [counterMode, if_neg (not_or_intro htext hkey),
    Call.fst_runOn_ofChecked_bind_eq_ok_iff]
  constructor
  · rintro ⟨result, hresult, h⟩
    exact ⟨result, hresult, (Except.ok.inj h).symm⟩
  · rintro ⟨result, hresult, rfl⟩
    exact ⟨result, hresult, rfl⟩

end

/-! ## 4. SM2 -/

/-- The order of segments of a call: the one that its mode type asks for, or
else the one of the settings. -/
def layoutFor (f : Function) (engine : Engine) (modeType : Parameter) : Except Error Sm2.Layout :=
  match modeType with
  | some modeType => f.layoutOfModeType modeType
  | none => .ok engine.settings.layout

/-- A text that is not empty is enciphered under a key that is not empty. -/
theorem sm2Encryption_eq_ok_iff {text : String} (htext : text ≠ "") {key modeType : Parameter} :
    ((f.sm2Encryption engine (some text) key modeType).runOn e).result.1 = .ok out
      ↔ ∃ k layout ciphertext, (key = some k ∧ k ≠ "")
        ∧ f.layoutFor engine modeType = .ok layout
        ∧ ((engine.sm2Encrypt k text layout .base64).runOn e).result.1 = .ok ciphertext
        ∧ out = some ciphertext := by
  have hsteps : f.sm2Encryption engine (some text) key modeType
      = Call.ofExcept (f.required "public key" key) >>= fun k =>
          Call.ofExcept (f.layoutFor engine modeType) >>= fun layout =>
            engine.sm2Encrypt k text layout .base64 >>= fun ciphertext =>
              pure (some ciphertext) := by
    simp only [sm2Encryption, if_neg htext]
    cases modeType <;> rfl
  simp only [hsteps, Call.ofExcept, Call.fst_runOn_ofChecked_bind_eq_ok_iff,
    Checked.result_ofExcept, Call.fst_runOn_bind_pure_eq_ok_iff, required_eq_ok_iff]
  constructor
  · rintro ⟨k, hk, layout, hlayout, ciphertext, hciphertext, hout⟩
    exact ⟨k, layout, ciphertext, hk, hlayout, hciphertext, hout.symm⟩
  · rintro ⟨k, layout, ciphertext, hk, hlayout, hciphertext, hout⟩
    exact ⟨k, hk, layout, hlayout, ciphertext, hciphertext, hout.symm⟩

/-- Deciphering in SQL is deciphering in the order of the settings. -/
theorem result_sm2Decryption {data key : String} {encoding : Encoding} :
    ((sm2Decryption engine (some data) (some key) encoding).runOn e).result
      = (engine.sm2Decrypt key data engine.settings.layout encoding, e) := rfl

end Function
end ColumnMasking.Sql
