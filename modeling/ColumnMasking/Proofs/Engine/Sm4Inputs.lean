/-
ColumnMasking.Proofs.Engine.Sm4Inputs — the key and the IV that an SM4 call
resolves before it looks at a text.

Calls on one value and on a column resolve their key and their IV by the
same steps; `sm4Inputs` is what these steps give. The result of each of the
four calls is then a function of it (`result_sm4Encrypt` and the three
others), and what is resolved is fit for its mode (`admitted_of_sm4Inputs`):
a key of sixteen bytes, and an IV of a length that the mode admits.
-/
import ColumnMasking.Engine.Sm4
import ColumnMasking.Proofs.KeyTexts
import ColumnMasking.Proofs.Sm4.AcceptedCiphertexts

namespace ColumnMasking.Engine

/-! ## 1. Inputs -/

/-- The key and the IV of a call. -/
def sm4Inputs (engine : Engine) (key : String) (mode : Sm4.Mode) (iv : Option String)
    (encoding : Encoding) : Except Error (Sm4.Key × Option Sm4.Iv) := do
  let k ← engine.sm4Key key encoding
  let v ← (engine.sm4Iv mode key iv encoding).result
  return (k, v)

/-- Inputs are resolved when the key and the IV are. -/
theorem sm4Inputs_eq_ok_iff {engine : Engine} {key : String} {mode : Sm4.Mode}
    {iv : Option String} {encoding : Encoding} {k : Sm4.Key} {v : Option Sm4.Iv} :
    engine.sm4Inputs key mode iv encoding = .ok (k, v)
      ↔ engine.sm4Key key encoding = .ok k
        ∧ (engine.sm4Iv mode key iv encoding).result = .ok v := by
  unfold sm4Inputs
  simp only [bind_eq_ok_iff]
  constructor
  · rintro ⟨k', hk, v', hv, h⟩
    obtain ⟨rfl, rfl⟩ := Prod.mk.inj (Except.ok.inj h)
    exact ⟨hk, hv⟩
  · rintro ⟨hk, hv⟩
    exact ⟨k, hk, v, hv, rfl⟩

/-- Steps that follow on the key and the IV follow on the inputs. -/
theorem result_bind_inputs {α : Type} (engine : Engine) (key : String) (mode : Sm4.Mode)
    (iv : Option String) (encoding : Encoding)
    (next : Sm4.Key → Option Sm4.Iv → Checked Error α) :
    (Checked.ofExcept (engine.sm4Key key encoding) >>= fun k =>
        engine.sm4Iv mode key iv encoding >>= fun v => next k v).result
      = engine.sm4Inputs key mode iv encoding >>= fun p => (next p.1 p.2).result := by
  unfold sm4Inputs
  rw [Checked.result_bind, Checked.result_ofExcept]
  cases engine.sm4Key key encoding with
  | error error => rfl
  | ok k =>
    show (engine.sm4Iv mode key iv encoding >>= fun v => next k v).result = _
    rw [Checked.result_bind]
    cases (engine.sm4Iv mode key iv encoding).result <;> rfl

/-! ## 2. Results -/

section

variable (engine : Engine) (key : String) (mode : Sm4.Mode) (iv : Option String)
  (encoding : Encoding)

/-- The result of enciphering a text. -/
theorem result_sm4Encrypt (plaintext : String) (aad : Option String) :
    (engine.sm4Encrypt key plaintext mode iv aad encoding).result
      = if plaintext = "" then .ok ""
        else engine.sm4Inputs key mode iv encoding >>= fun p =>
          ((mode.encrypt p.1 p.2 (Utf8.encode plaintext) (aad.map Utf8.encode)).mapError
            Error.sm4).map encoding.encode := by
  unfold sm4Encrypt
  split
  · rfl
  · rw [result_bind_inputs]
    congr 1
    funext p
    rw [Checked.result_bind, Checked.result_ofExcept, sm4EncryptBytes]
    cases mode.encrypt p.1 p.2 (Utf8.encode plaintext) (aad.map Utf8.encode) <;> rfl

/-- The result of deciphering a text. -/
theorem result_sm4Decrypt (ciphertext : String) (aad : Option String) :
    (engine.sm4Decrypt key ciphertext mode iv aad encoding).result
      = if ciphertext = "" then .ok ""
        else engine.sm4Inputs key mode iv encoding >>= fun p =>
          (encoding.decode ciphertext).mapError Error.decoding >>= fun bytes =>
            ((mode.decrypt p.1 p.2 bytes (aad.map Utf8.encode)).mapError Error.sm4).map
              Utf8.decodeLossy := by
  unfold sm4Decrypt
  split
  · rfl
  · rw [result_bind_inputs]
    congr 1
    funext p
    rw [Checked.result_bind, Checked.result_ofExcept]
    congr 1
    funext bytes
    rw [Checked.result_bind, Checked.result_ofExcept, sm4DecryptBytes]
    cases mode.decrypt p.1 p.2 bytes (aad.map Utf8.encode) <;> rfl

/-- The result of enciphering a column. -/
theorem result_sm4EncryptColumn (values : List String) :
    (engine.sm4EncryptColumn key values mode iv encoding).result
      = engine.sm4Inputs key mode iv encoding >>= fun p =>
          ((mode.encryptRows p.1 p.2 (values.map Utf8.encode)).mapError Error.sm4).map
            (List.map encoding.encode) := by
  unfold sm4EncryptColumn
  rw [result_bind_inputs]
  congr 1
  funext p
  rw [Checked.result_bind, Checked.result_ofExcept]
  cases mode.encryptRows p.1 p.2 (values.map Utf8.encode) <;> rfl

/-- The result of deciphering a column. -/
theorem result_sm4DecryptColumn (values : List String) :
    (engine.sm4DecryptColumn key values mode iv encoding).result
      = engine.sm4Inputs key mode iv encoding >>= fun p =>
          (values.mapM encoding.decode).mapError Error.decoding >>= fun rows =>
            ((mode.decryptRows p.1 p.2 rows).mapError Error.sm4).map
              (List.map Utf8.decodeLossy) := by
  unfold sm4DecryptColumn
  rw [result_bind_inputs]
  congr 1
  funext p
  rw [Checked.result_bind, Checked.result_ofExcept]
  congr 1
  funext rows
  rw [Checked.result_bind, Checked.result_ofExcept]
  cases mode.decryptRows p.1 p.2 rows <;> rfl

end

/-! ## 3. What is resolved -/

/-- A key that is resolved has sixteen bytes. -/
theorem length_of_sm4Key {engine : Engine} {text : String} {encoding : Encoding} {k : Sm4.Key}
    (h : engine.sm4Key text encoding = .ok k) : k.bytes.length = Sm4.Key.size := by
  obtain ⟨m, -, hk⟩ := bind_eq_ok_iff.mp h
  have hk := mapError_eq_ok_iff.mp hk
  simp only [Sm4.Key.ofMaterial, Sm4.Key.ofBytes] at hk
  split at hk
  · rename_i hlength
    obtain rfl := Except.ok.inj hk
    exact hlength
  · simp at hk

/-- An IV that is resolved has the bytes of its material, of the length of a
nonce. -/
theorem bytes_of_ivOf {m : Except KeyMaterial.Error KeyMaterial} {v : Option Sm4.Iv}
    (h : ivOf m = .ok v) :
    ∃ material, m = .ok material ∧ v = some ⟨material.bytes⟩
      ∧ material.bytes.length ∈ Sm4.Iv.nonceLengths := by
  obtain ⟨material, hm, h⟩ := bind_eq_ok_iff.mp h
  obtain ⟨iv, hiv, hv⟩ := bind_eq_ok_iff.mp h
  obtain rfl := Except.ok.inj hv
  have hiv := mapError_eq_ok_iff.mp hiv
  simp only [Sm4.Iv.ofMaterial, Sm4.Iv.nonce] at hiv
  split at hiv
  · rename_i hlength
    obtain rfl := Except.ok.inj hiv
    exact ⟨material, mapError_eq_ok_iff.mp hm, rfl, hlength⟩
  · simp at hiv

/-- An IV that is resolved is one that the mode admits. -/
theorem admitsIv_of_sm4Iv {engine : Engine} {mode : Sm4.Mode} {key : String}
    {iv : Option String} {encoding : Encoding} {v : Option Sm4.Iv}
    (h : (engine.sm4Iv mode key iv encoding).result = .ok v) : mode.AdmitsIv v := by
  have hnonce : ∀ {m}, ivOf m = .ok v → Sm4.Mode.gcm.AdmitsIv v := by
    intro m hm
    obtain ⟨material, -, rfl, hlength⟩ := bytes_of_ivOf hm
    exact ⟨_, rfl, hlength⟩
  unfold sm4Iv at h
  split at h
  · -- ECB
    trivial
  · -- GCM with a nonce
    exact hnonce h
  · -- CBC with an IV
    obtain ⟨material, hmaterial, rfl, -⟩ := bytes_of_ivOf h
    exact ⟨_, rfl, List.mem_singleton.mpr (KeyMaterial.length_of_sm4Iv hmaterial)⟩
  · -- CBC without one
    exact absurd h nofun
  · -- GCM without a nonce
    split at h
    · exact absurd h nofun
    · exact hnonce h

/-- Inputs that are resolved are fit for the mode. -/
theorem admitted_of_sm4Inputs {engine : Engine} {key : String} {mode : Sm4.Mode}
    {iv : Option String} {encoding : Encoding} {k : Sm4.Key} {v : Option Sm4.Iv}
    (h : engine.sm4Inputs key mode iv encoding = .ok (k, v)) :
    k.bytes.length = Sm4.Key.size ∧ mode.AdmitsIv v := by
  obtain ⟨hk, hv⟩ := sm4Inputs_eq_ok_iff.mp h
  exact ⟨length_of_sm4Key hk, admitsIv_of_sm4Iv hv⟩

end ColumnMasking.Engine
