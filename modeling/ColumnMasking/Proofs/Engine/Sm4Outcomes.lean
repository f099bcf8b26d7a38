/-
ColumnMasking.Proofs.Engine.Sm4Outcomes — all the ways in which an SM4 call
on one text can end.

A call resolves its key and its IV, reads its text and runs a mode, and each
of these layers has checks of its own. `sm4_outcomes` says which of them a
caller sees, and in which order: the faults of key and IV
(`decidedBy_sm4Inputs`), then a ciphertext that cannot be read, then
additional data that the mode has no use for, and last what the mode makes
of the text.

The checks on lengths in the layers below never fail. Resolved material has
the length that they ask for (`KeyMaterial.Shaped`), so `sm4Key_eq` and
`ivOf_eq` give key and IV without them, and a mode that is given both does
not complain of either (`Sm4.Mode.not_unfit_of_encrypt`,
`Sm4.Mode.not_unfit_of_decrypt`).
-/
import ColumnMasking.Proofs.Engine.Sm4Columns
import ColumnMasking.Proofs.FirstFault
import ColumnMasking.Proofs.KeyShapes

namespace ColumnMasking

/-! ## 1. The modes under inputs that fit -/

namespace Sm4

/-- The complaint is about a key or an IV that does not fit its use. -/
def Error.Unfit : Error → Prop
  | .keySize _ | .ivSize _ _ | .missingIv _ => True
  | _ => False

/-- What is said of the text is not said of key or IV. -/
theorem Error.not_unfit_of_kind {error : Error}
    (h : error.kind = .encryption ∨ error.kind = .decryption) : ¬ error.Unfit := by
  intro hunfit
  cases error with
  | keySize | ivSize | missingIv => simp [kind] at h
  | _ => exact hunfit

namespace Mode

variable {mode : Mode} {key : Key} {iv : Option Iv} {aad : Option Bytes} {text ciphertext : Bytes}
  {error : Error}

/-- Where the mode admits the IV, only additional data out of its place is
refused before the text is looked at. -/
theorem checkInputs_eq (hiv : mode.AdmitsIv iv) (aad : Option Bytes) :
    mode.checkInputs iv aad
      = if aad.isSome ∧ mode ≠ gcm then .error (.unexpectedAad mode) else .ok () := by
  have hwanting : ¬ (mode.requiresIv ∧ iv = none) := by
    rintro ⟨hrequires, rfl⟩
    cases mode with
    | ecb => exact absurd hrequires nofun
    | cbc =>
      obtain ⟨v, hv, -⟩ := hiv
      exact absurd hv nofun
    | gcm =>
      obtain ⟨v, hv, -⟩ := hiv
      exact absurd hv nofun
  rw [checkInputs, if_neg hwanting]

/-- A row that is not enciphered under a key and an IV of the right lengths is
too long. -/
theorem kind_of_encryptRow (hkey : key.bytes.length = Key.size) (hiv : mode.AdmitsIv iv)
    (htext : text ≠ []) (h : mode.encryptRow key iv text aad = .error error) :
    error.kind = .encryption := by
  cases mode with
  | ecb =>
    rw [encryptRow, Ecb.encrypt_eq hkey htext] at h
    cases h
  | cbc =>
    obtain ⟨v, rfl, hv⟩ := hiv
    rw [encryptRow, Cbc.encrypt_eq hkey hv htext] at h
    cases h
  | gcm =>
    obtain ⟨v, rfl, hv⟩ := hiv
    simp only [encryptRow, Gcm.encrypt, Iv.require_eq .gcm hv, if_neg htext,
      Key.schedule_eq hkey] at h
    rcases bind_eq_error_iff.mp h with h | ⟨nonce, -, h⟩
    · cases h
    rcases bind_eq_error_iff.mp h with h | ⟨ks, -, h⟩
    · cases h
    split at h
    · obtain rfl := Except.error.inj h
      rfl
    · cases h

/-- A call fails for additional data out of its place, and ends like its row
otherwise. -/
theorem decidedBy_checkInputs (hiv : mode.AdmitsIv iv) (aad : Option Bytes)
    {row : Except Error Bytes} {faults : List (Prop × ErrorKind)}
    {otherwise : Except ColumnMasking.Error Bytes → Prop}
    (hrow : DecidedBy (row.mapError .sm4) faults otherwise) :
    DecidedBy ((mode.checkInputs iv aad >>= fun _ => row).mapError .sm4)
      ((aad.isSome ∧ mode ≠ gcm, .invalidArgument) :: faults) otherwise := by
  rw [checkInputs_eq hiv]
  by_cases hplace : aad.isSome ∧ mode ≠ gcm
  · rw [if_pos hplace]
    exact .of_fault hplace ⟨_, rfl, rfl⟩
  · rw [if_neg hplace]
    exact .of_not hplace hrow

/-- Enciphering fails for additional data out of its place, or for want of
room. -/
theorem decidedBy_encrypt (hkey : key.bytes.length = Key.size) (hiv : mode.AdmitsIv iv)
    (htext : text ≠ []) (aad : Option Bytes) :
    DecidedBy ((mode.encrypt key iv text aad).mapError .sm4)
      [(aad.isSome ∧ mode ≠ gcm, .invalidArgument),
       (¬ (mode.Within Gcm.maxLength text ∧ mode.Within Gcm.maxLength (aad.getD [])),
        .encryption)]
      Succeeds := by
  refine decidedBy_checkInputs hiv aad (.of_succeeds_iff ?_ ?_)
  · constructor
    · rintro ⟨ciphertext, h⟩
      exact ((encryptRow_eq_ok_iff hkey hiv htext aad ciphertext).mp
        (mapError_eq_ok_iff.mp h)).right
    · intro hroom
      exact ⟨_, mapError_eq_ok_iff.mpr
        ((encryptRow_eq_ok_iff hkey hiv htext aad _).mpr ⟨rfl, hroom⟩)⟩
  · intro error h
    obtain ⟨cause, hcause, rfl⟩ := mapError_eq_error_iff.mp h
    exact kind_of_encryptRow hkey hiv htext hcause

/-- Deciphering fails for additional data out of its place, or because the
ciphertext is undecipherable. -/
theorem decidedBy_decrypt (hkey : key.bytes.length = Key.size) (hiv : mode.AdmitsIv iv)
    (ciphertext : Bytes) (aad : Option Bytes) :
    DecidedBy ((mode.decrypt key iv ciphertext aad).mapError .sm4)
      [(aad.isSome ∧ mode ≠ gcm, .invalidArgument)]
      fun outcome => Succeeds outcome ∨ FailsAs outcome .decryption := by
  refine decidedBy_checkInputs hiv aad ?_
  cases hrow : mode.decryptRow key iv ciphertext aad with
  | ok text => exact .inl ⟨_, rfl⟩
  | error error => exact .inr ⟨_, rfl, kind_of_decryptRow hkey hiv hrow⟩

theorem not_unfit_of_encrypt (hkey : key.bytes.length = Key.size) (hiv : mode.AdmitsIv iv)
    (htext : text ≠ []) (h : mode.encrypt key iv text aad = .error error) : ¬ error.Unfit := by
  rw [encrypt, checkInputs_eq hiv] at h
  split at h
  · obtain rfl := Except.error.inj h
    exact id
  · exact Error.not_unfit_of_kind (.inl (kind_of_encryptRow hkey hiv htext h))

theorem not_unfit_of_decrypt (hkey : key.bytes.length = Key.size) (hiv : mode.AdmitsIv iv)
    (h : mode.decrypt key iv ciphertext aad = .error error) : ¬ error.Unfit := by
  rw [decrypt, checkInputs_eq hiv] at h
  split at h
  · obtain rfl := Except.error.inj h
    exact id
  · exact Error.not_unfit_of_kind (.inr (kind_of_decryptRow hkey hiv h))

end Mode
end Sm4

namespace Engine

variable {engine : Engine} {key text : String} {mode : Sm4.Mode} {iv aad : Option String}
  {encoding : Encoding}

/-! ## 2. Keys and IVs -/

/-- A key text that resolves gives a key. -/
theorem sm4Key_eq (engine : Engine) (text : String) (encoding : Encoding) :
    engine.sm4Key text encoding
      = ((KeyMaterial.sm4Key text encoding).mapError .keyMaterial).map fun m => ⟨m.bytes⟩ := by
  unfold sm4Key
  cases hm : KeyMaterial.sm4Key text encoding with
  | error cause => rfl
  | ok m =>
    have hlength := List.mem_singleton.mp (KeyMaterial.shaped_sm4Key.length_mem hm)
    show (Sm4.Key.ofMaterial m).mapError Error.sm4 = _
    rw [Sm4.Key.ofMaterial_of_length hlength]
    rfl

/-- Material of the length of a nonce gives an IV. -/
theorem ivOf_eq {r : Except KeyMaterial.Error KeyMaterial}
    (hlength : ∀ m, r = .ok m → m.bytes.length ∈ Sm4.Iv.nonceLengths) :
    ivOf r = (r.mapError .keyMaterial).map fun m => some ⟨m.bytes⟩ := by
  unfold ivOf
  cases r with
  | error cause => rfl
  | ok m =>
    show ((Sm4.Iv.ofMaterial m).mapError Error.sm4 >>= fun iv => pure (some iv)) = _
    rw [Sm4.Iv.ofMaterial_of_length (hlength m rfl)]
    rfl

/-! ## 3. The faults of key and IV -/

/-- The key text is no key. -/
def KeyUnresolved (key : String) (encoding : Encoding) : Prop :=
  ∀ m, KeyMaterial.sm4Key key encoding ≠ .ok m

/-- No IV is given, or an empty one, where the mode needs one and the
settings do not provide it. -/
def IvWanting (engine : Engine) (mode : Sm4.Mode) (iv : Option String) : Prop :=
  (iv = none ∨ iv = some "")
    ∧ (mode = .cbc ∨ mode = .gcm ∧ engine.settings.noncePolicy = .explicit)

/-- An IV is given that is none for the mode. ECB does not look at it. -/
def IvUnresolved (mode : Sm4.Mode) (iv : Option String) (encoding : Encoding) : Prop :=
  ∃ text, iv = some text ∧ text ≠ "" ∧
    match mode with
    | .ecb => False
    | .cbc => ∀ m, KeyMaterial.sm4Iv text encoding ≠ .ok m
    | .gcm => ∀ m, KeyMaterial.gcmNonce text encoding ≠ .ok m

/-- What can be wrong with the key and the IV of a call, in the order in
which it is noticed. -/
def inputFaults (engine : Engine) (key : String) (mode : Sm4.Mode) (iv : Option String)
    (encoding : Encoding) : List (Prop × ErrorKind) :=
  [(KeyUnresolved key encoding, .invalidKey),
   (engine.IvWanting mode iv, .invalidArgument),
   (IvUnresolved mode iv encoding, .invalidKey)]

theorem filter_eq_some_iff : iv.filter (· ≠ "") = some text ↔ iv = some text ∧ text ≠ "" := by
  simp [Option.filter_eq_some_iff]

theorem filter_eq_none_iff : iv.filter (· ≠ "") = none ↔ iv = none ∨ iv = some "" := by
  cases iv with
  | none => simp
  | some text => simp [Option.filter_eq_none_iff]

/-- Material that resolves decides its IV. -/
theorem decidedBy_ivOf {r : Except KeyMaterial.Error KeyMaterial}
    (hlength : ∀ m, r = .ok m → m.bytes.length ∈ Sm4.Iv.nonceLengths) :
    DecidedBy (ivOf r) [(∀ m, r ≠ .ok m, .invalidKey)] Succeeds := by
  have hread : DecidedBy (r.mapError Error.keyMaterial) [(∀ m, r ≠ .ok m, .invalidKey)] Succeeds :=
    .mapError fun _ => rfl
  rw [ivOf_eq hlength]
  exact hread.map fun h => h.map _

theorem decidedBy_sm4Key :
    DecidedBy (engine.sm4Key key encoding) [(KeyUnresolved key encoding, .invalidKey)]
      Succeeds := by
  have hread : DecidedBy ((KeyMaterial.sm4Key key encoding).mapError Error.keyMaterial)
      [(KeyUnresolved key encoding, .invalidKey)] Succeeds := .mapError fun _ => rfl
  rw [sm4Key_eq]
  exact hread.map fun h => h.map _

/-- An IV that is given is not wanting; it is resolved or not. -/
theorem decidedBy_given (hne : text ≠ "") {r : Except KeyMaterial.Error KeyMaterial}
    (hiff : IvUnresolved mode (some text) encoding ↔ ∀ m, r ≠ .ok m)
    (hlength : ∀ m, r = .ok m → m.bytes.length ∈ Sm4.Iv.nonceLengths) :
    DecidedBy (ivOf r) [(engine.IvWanting mode (some text), .invalidArgument),
      (IvUnresolved mode (some text) encoding, .invalidKey)] Succeeds := by
  refine .of_not ?_ ?_
  · simp [IvWanting, hne]
  · rw [hiff]
    exact decidedBy_ivOf hlength

/-- The IV of a call whose key is resolved is wanting, or not resolved, or
there. -/
theorem decidedBy_sm4Iv {material : KeyMaterial}
    (hkey : KeyMaterial.sm4Key key encoding = .ok material) :
    DecidedBy (engine.sm4Iv mode key iv encoding).result
      [(engine.IvWanting mode iv, .invalidArgument), (IvUnresolved mode iv encoding, .invalidKey)]
      Succeeds := by
  unfold sm4Iv
  split
  · -- ECB
    refine .of_not ?_ (.of_not ?_ ⟨none, rfl⟩)
    · simp [IvWanting]
    · simp [IvUnresolved]
  · -- GCM with a nonce
    rename_i text hgiven
    obtain ⟨rfl, hne⟩ := filter_eq_some_iff.mp hgiven
    exact decidedBy_given hne (by simp [IvUnresolved, hne])
      fun m hm => KeyMaterial.mem_nonceLengths (.inr (.inl hm))
  · -- CBC with an IV
    rename_i text hgiven
    obtain ⟨rfl, hne⟩ := filter_eq_some_iff.mp hgiven
    exact decidedBy_given hne (by simp [IvUnresolved, hne])
      fun m hm => KeyMaterial.mem_nonceLengths (.inl hm)
  · -- CBC without one
    rename_i hnone
    exact .of_fault ⟨filter_eq_none_iff.mp hnone, .inl rfl⟩ ⟨_, rfl, rfl⟩
  · -- GCM without a nonce
    rename_i hnone
    have hempty := filter_eq_none_iff.mp hnone
    split
    · rename_i hpolicy
      exact .of_fault ⟨hempty, .inr ⟨rfl, hpolicy⟩⟩ ⟨_, rfl, rfl⟩
    · rename_i hpolicy
      refine .of_not ?_ (.of_not ?_ ?_)
      · simp [IvWanting, hpolicy]
      · rintro ⟨text, rfl, hne, -⟩
        simp [hne] at hempty
      · -- the key is its own nonce
        have hderived : (KeyMaterial.sm4Key key encoding).map KeyMaterial.ivOfKey
            = .ok material.ivOfKey := by rw [hkey]; rfl
        rw [Checked.result_mk, ivOf_eq fun m hm => KeyMaterial.mem_nonceLengths (.inr (.inr hm)),
          hderived]
        exact ⟨_, rfl⟩

/-- Key and IV are resolved unless one of their faults applies. -/
theorem decidedBy_sm4Inputs :
    DecidedBy (engine.sm4Inputs key mode iv encoding) (engine.inputFaults key mode iv encoding)
      Succeeds := by
  have hinputs : DecidedBy (engine.sm4Inputs key mode iv encoding)
      ([(KeyUnresolved key encoding, .invalidKey)] ++ ([(engine.IvWanting mode iv,
        .invalidArgument), (IvUnresolved mode iv encoding, .invalidKey)] ++ [])) Succeeds := by
    refine decidedBy_sm4Key.bind fun k hk => ?_
    rw [sm4Key_eq] at hk
    obtain ⟨material, hmaterial, -⟩ := map_eq_ok_iff.mp hk
    exact (decidedBy_sm4Iv (mapError_eq_ok_iff.mp hmaterial)).bind fun v _ => ⟨(k, v), rfl⟩
  exact hinputs

/-- Key and IV fail in the layers above the modes alone. -/
theorem sm4Inputs_ne_sm4 (cause : Sm4.Error) :
    engine.sm4Inputs key mode iv encoding ≠ .error (.sm4 cause) := by
  have hiv : ∀ {r : Except KeyMaterial.Error KeyMaterial},
      (∀ m, r = .ok m → m.bytes.length ∈ Sm4.Iv.nonceLengths) →
      ivOf r ≠ .error (.sm4 cause) := by
    intro r hlength h
    rw [ivOf_eq hlength, map_eq_error_iff, mapError_eq_error_iff] at h
    obtain ⟨cause', -, h⟩ := h
    exact absurd h nofun
  intro h
  rcases bind_eq_error_iff.mp h with h | ⟨k, -, h⟩
  · rw [sm4Key_eq, map_eq_error_iff, mapError_eq_error_iff] at h
    obtain ⟨cause', -, h⟩ := h
    exact absurd h nofun
  rcases bind_eq_error_iff.mp h with h | ⟨v, -, h⟩
  · unfold sm4Iv at h
    split at h
    · exact absurd h nofun
    · exact hiv (fun m hm => KeyMaterial.mem_nonceLengths (.inr (.inl hm))) h
    · exact hiv (fun m hm => KeyMaterial.mem_nonceLengths (.inl hm)) h
    · exact absurd h nofun
    · split at h
      · exact absurd h nofun
      · exact hiv (fun m hm => KeyMaterial.mem_nonceLengths (.inr (.inr hm))) h
  · exact absurd h nofun

/-! ## 4. Calls -/

/-- How a text is deciphered or not. -/
theorem decidedBy_sm4Decrypt (htext : text ≠ "") :
    DecidedBy (engine.sm4Decrypt key text mode iv aad encoding).result
      (engine.inputFaults key mode iv encoding ++
        [(∀ bytes, encoding.decode text ≠ .ok bytes, .decoding),
         (aad.isSome ∧ mode ≠ .gcm, .invalidArgument)])
      fun outcome => Succeeds outcome ∨ FailsAs outcome .decryption := by
  rw [result_sm4Decrypt, if_neg htext]
  refine decidedBy_sm4Inputs.bind ?_
  rintro ⟨k, v⟩ hinputs
  obtain ⟨hkey, hiv⟩ := admitted_of_sm4Inputs hinputs
  have hread : DecidedBy ((encoding.decode text).mapError Error.decoding)
      [(∀ bytes, encoding.decode text ≠ .ok bytes, .decoding)] Succeeds := .mapError fun _ => rfl
  refine hread.bind fun bytes _ => ?_
  have hmode := Sm4.Mode.decidedBy_decrypt hkey hiv bytes (aad.map Utf8.encode)
  rw [Option.isSome_map] at hmode
  exact hmode.map fun h => h.imp (fun h => h.map _) (fun h => h.map _)

/-- How a text is enciphered or not. -/
theorem decidedBy_sm4Encrypt (htext : text ≠ "") :
    DecidedBy (engine.sm4Encrypt key text mode iv aad encoding).result
      (engine.inputFaults key mode iv encoding ++
        [(aad.isSome ∧ mode ≠ .gcm, .invalidArgument),
         (¬ (mode.Within Sm4.Gcm.maxLength (Utf8.encode text)
            ∧ mode.Within Sm4.Gcm.maxLength ((aad.map Utf8.encode).getD [])), .encryption)])
      Succeeds := by
  have hbytes : Utf8.encode text ≠ [] := fun hnil => htext (Utf8.encode_eq_nil_iff.mp hnil)
  rw [result_sm4Encrypt, if_neg htext]
  refine decidedBy_sm4Inputs.bind ?_
  rintro ⟨k, v⟩ hinputs
  obtain ⟨hkey, hiv⟩ := admitted_of_sm4Inputs hinputs
  have hmode := Sm4.Mode.decidedBy_encrypt hkey hiv hbytes (aad.map Utf8.encode)
  rw [Option.isSome_map] at hmode
  exact hmode.map fun h => h.map _

/-- The classes of failure of deciphering. -/
theorem kind_of_sm4Decrypt (htext : text ≠ "") {error : Error}
    (h : (engine.sm4Decrypt key text mode iv aad encoding).result = .error error) :
    error.kind ∈ [.invalidKey, .invalidArgument, .decoding, .decryption] := by
  rcases (decidedBy_sm4Decrypt htext).kind_mem h with hfault | hok | hfails
  · have hfaults : ∀ kind ∈ [ErrorKind.invalidKey, .invalidArgument, .invalidKey, .decoding,
        .invalidArgument], kind ∈ [ErrorKind.invalidKey, .invalidArgument, .decoding,
        .decryption] := by decide
    exact hfaults error.kind hfault
  · exact absurd h (hok.ne_error error)
  · rw [hfails.kind_eq h]
    decide

/-- The classes of failure of enciphering. -/
theorem kind_of_sm4Encrypt (htext : text ≠ "") {error : Error}
    (h : (engine.sm4Encrypt key text mode iv aad encoding).result = .error error) :
    error.kind ∈ [.invalidKey, .invalidArgument, .encryption] := by
  rcases (decidedBy_sm4Encrypt htext).kind_mem h with hfault | hok
  · have hfaults : ∀ kind ∈ [ErrorKind.invalidKey, .invalidArgument, .invalidKey,
        .invalidArgument, .encryption], kind ∈ [ErrorKind.invalidKey, .invalidArgument,
        .encryption] := by decide
    exact hfaults error.kind hfault
  · exact absurd h (hok.ne_error error)

/-- What a mode says of a text it does not decipher is not about key or IV. -/
theorem not_unfit_of_sm4Decrypt (htext : text ≠ "") {cause : Sm4.Error}
    (h : (engine.sm4Decrypt key text mode iv aad encoding).result = .error (.sm4 cause)) :
    ¬ cause.Unfit := by
  rw [result_sm4Decrypt, if_neg htext] at h
  rcases bind_eq_error_iff.mp h with h | ⟨⟨k, v⟩, hinputs, h⟩
  · exact absurd h (sm4Inputs_ne_sm4 cause)
  rcases bind_eq_error_iff.mp h with h | ⟨bytes, -, h⟩
  · obtain ⟨cause', -, h⟩ := mapError_eq_error_iff.mp h
    exact absurd h nofun
  · obtain ⟨cause', hmode, hcause⟩ := mapError_eq_error_iff.mp (map_eq_error_iff.mp h)
    obtain rfl := Error.sm4.inj hcause
    obtain ⟨hkey, hiv⟩ := admitted_of_sm4Inputs hinputs
    exact Sm4.Mode.not_unfit_of_decrypt hkey hiv hmode

/-- What a mode says of a text it does not encipher is not about key or IV. -/
theorem not_unfit_of_sm4Encrypt (htext : text ≠ "") {cause : Sm4.Error}
    (h : (engine.sm4Encrypt key text mode iv aad encoding).result = .error (.sm4 cause)) :
    ¬ cause.Unfit := by
  have hbytes : Utf8.encode text ≠ [] := fun hnil => htext (Utf8.encode_eq_nil_iff.mp hnil)
  rw [result_sm4Encrypt, if_neg htext] at h
  rcases bind_eq_error_iff.mp h with h | ⟨⟨k, v⟩, hinputs, h⟩
  · exact absurd h (sm4Inputs_ne_sm4 cause)
  · obtain ⟨cause', hmode, hcause⟩ := mapError_eq_error_iff.mp (map_eq_error_iff.mp h)
    obtain rfl := Error.sm4.inj hcause
    obtain ⟨hkey, hiv⟩ := admitted_of_sm4Inputs hinputs
    exact Sm4.Mode.not_unfit_of_encrypt hkey hiv hbytes hmode

/-- The outcome of a call on a text that is not empty is decided by the first
fault that applies: of the key, of the IV, of the ciphertext text, of the
additional data. Past these a ciphertext is deciphered or undecipherable,
and a text is enciphered unless it or the additional data is too long for
GCM. So the settings are never at fault, and deciphering fails at nothing
that has to do with enciphering; no mode complains of a key or an IV that
was resolved; and ECB does the same under any IV. -/
theorem sm4_outcomes (engine : Engine) (key : String) (mode : Sm4.Mode) (iv aad : Option String)
    (encoding : Encoding) {text : String} (htext : text ≠ "") :
    DecidedBy (engine.sm4Decrypt key text mode iv aad encoding).result
      (engine.inputFaults key mode iv encoding ++
        [(∀ bytes, encoding.decode text ≠ .ok bytes, .decoding),
         (aad.isSome ∧ mode ≠ .gcm, .invalidArgument)])
      (fun outcome => Succeeds outcome ∨ FailsAs outcome .decryption) ∧
    DecidedBy (engine.sm4Encrypt key text mode iv aad encoding).result
      (engine.inputFaults key mode iv encoding ++
        [(aad.isSome ∧ mode ≠ .gcm, .invalidArgument),
         (¬ (mode.Within Sm4.Gcm.maxLength (Utf8.encode text)
            ∧ mode.Within Sm4.Gcm.maxLength ((aad.map Utf8.encode).getD [])), .encryption)])
      Succeeds ∧
    (∀ error, (engine.sm4Decrypt key text mode iv aad encoding).result = .error error →
      error.kind ≠ .configuration ∧ error.kind ≠ .encryption
        ∧ ∀ cause, error = .sm4 cause → ¬ cause.Unfit) ∧
    (∀ error, (engine.sm4Encrypt key text mode iv aad encoding).result = .error error →
      error.kind ≠ .configuration ∧ ∀ cause, error = .sm4 cause → ¬ cause.Unfit) ∧
    (mode = .ecb → ∀ iv',
      engine.sm4Decrypt key text mode iv' aad encoding
          = engine.sm4Decrypt key text mode iv aad encoding ∧
      engine.sm4Encrypt key text mode iv' aad encoding
          = engine.sm4Encrypt key text mode iv aad encoding) := by
  refine ⟨decidedBy_sm4Decrypt htext, decidedBy_sm4Encrypt htext, ?_, ?_, ?_⟩
  · intro error h
    have hkind := kind_of_sm4Decrypt htext h
    refine ⟨?_, ?_, ?_⟩
    · intro hconfiguration
      rw [hconfiguration] at hkind
      exact absurd hkind (by decide)
    · intro hencryption
      rw [hencryption] at hkind
      exact absurd hkind (by decide)
    · rintro cause rfl
      exact not_unfit_of_sm4Decrypt htext h
  · intro error h
    have hkind := kind_of_sm4Encrypt htext h
    constructor
    · intro hconfiguration
      rw [hconfiguration] at hkind
      exact absurd hkind (by decide)
    · rintro cause rfl
      exact not_unfit_of_sm4Encrypt htext h
  · rintro rfl iv'
    exact ⟨rfl, rfl⟩

/-- A ciphertext that cannot be read is noticed before additional data that
has no place in ECB. -/
theorem sm4_outcomes_unreadable :
    FailsAs (Engine.default.sm4Decrypt "0123456789abcdef" "!" .ecb none (some "") .base64).result
      .decoding := by
  obtain ⟨⟨-, hresolved⟩, -⟩ := sm4_outcomes Engine.default "0123456789abcdef" .ecb none (some "")
    .base64 (show "!" ≠ "" by decide)
  have hkey : ¬ KeyUnresolved "0123456789abcdef" .base64 := fun h => h _ rfl
  have hwanting : ¬ Engine.default.IvWanting .ecb none := by simp [IvWanting]
  have hiv : ¬ IvUnresolved .ecb none .base64 := by simp [IvUnresolved]
  have hunreadable : ∀ bytes, Encoding.base64.decode "!" ≠ .ok bytes := by
    intro bytes h
    have herror : Encoding.base64.decode "!" = .error (.base64 (.invalidSymbol 0x21 0)) := by
      decide +kernel
    rw [herror] at h
    exact absurd h nofun
  exact (((hresolved hkey).right hwanting).right hiv).left hunreadable

end Engine
end ColumnMasking
