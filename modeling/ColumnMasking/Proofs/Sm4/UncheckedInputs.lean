/-
ColumnMasking.Proofs.Sm4.UncheckedInputs — the modes under keys and IVs of
any length.

A stored key or IV is not looked at before a mode uses it, so each mode
checks both lengths itself, in an order of its own and between other checks.
`modes_on_unchecked_inputs` says that nothing is lost in this:

* a mode chosen at run time gives what the mode itself gives;
* no call stops at a read of a fixed width (section 1);
* a length is blamed only where it is wrong, and a text that is not empty
  goes through only where both lengths are right (section 3).

The stopping forms follow the modes step by step, with each read of a fixed
width made explicit; under CBC, key and IV are taken together by one step
that blames the key for either (`Cbc.take`). Section 2 shows that they give
what the modes give, because the checks in front of each read leave only the
right widths.
-/
import ColumnMasking.Proofs.Sm4.AcceptedCiphertexts

namespace ColumnMasking.Sm4

/-! ## 1. Reads that could stop the program -/

/-- A call that has no result where a read stops the program. -/
abbrev Stopping (α : Type) := ExceptT Error Option α

namespace Stopping

/-- A step that succeeds or fails, and never stops. -/
def ofExcept {α : Type} (r : Except Error α) : Stopping α := ExceptT.mk (some r)

/-- A read that succeeds or stops. -/
def ofRead {α : Type} (read : Option α) : Stopping α := ExceptT.mk (read.map .ok)

end Stopping

/-- The bytes as an array of fixed width. -/
def exactly? (width : Nat) (bs : Bytes) : Option Bytes :=
  if bs.length = width then some bs else none

/-- The blocks of a text, each read as an array of sixteen bytes. -/
def blocksOf? (text : Bytes) : Option (List Block) :=
  (Bytes.chunks blockLength text).mapM fun piece =>
    (exactly? blockLength piece).map Block.ofBytes

namespace Ecb

/-- Enciphering, with its reads. -/
def encrypt? (key : Key) (plaintext : Bytes) : Stopping Bytes :=
  if plaintext = [] then pure []
  else do
    let ks ← .ofExcept key.schedule
    let blocks ← .ofRead (blocksOf? (Padding.pad plaintext))
    return (blocks.map (Sm4.encrypt ks)).flatMap Block.toBytes

/-- Deciphering, with its reads. -/
def decrypt? (key : Key) (ciphertext : Bytes) : Stopping Bytes :=
  if ciphertext = [] then pure []
  else do
    .ofExcept (checkAligned ciphertext)
    let ks ← .ofExcept key.schedule
    let blocks ← .ofRead (blocksOf? ciphertext)
    .ofExcept (removePadding ((blocks.map (Sm4.decrypt ks)).flatMap Block.toBytes))

end Ecb

namespace Cbc

/-- Key and IV, taken together. The key is blamed, whichever of them has the
wrong length. -/
def take (key : Key) (iv : Bytes) : Except Error (List Word × Block) :=
  if key.bytes.length = Key.size ∧ iv.length = blockLength then .ok (key.rounds, Block.ofBytes iv)
  else .error (.keySize key.bytes.length)

/-- Enciphering, with its reads. -/
def encrypt? (key : Key) (iv : Option Iv) (plaintext : Bytes) : Stopping Bytes := do
  let iv ← .ofExcept (Iv.require .cbc iv [blockLength])
  if plaintext = [] then return []
  let (ks, first) ← .ofExcept (take key iv)
  let blocks ← .ofRead (blocksOf? (Padding.pad plaintext))
  return (chain ks first blocks).flatMap Block.toBytes

/-- Deciphering, with its reads. -/
def decrypt? (key : Key) (iv : Option Iv) (ciphertext : Bytes) : Stopping Bytes := do
  let iv ← .ofExcept (Iv.require .cbc iv [blockLength])
  if ciphertext = [] then return []
  .ofExcept (checkAligned ciphertext)
  let (ks, first) ← .ofExcept (take key iv)
  let blocks ← .ofRead (blocksOf? ciphertext)
  .ofExcept (removePadding ((unchain ks first blocks).flatMap Block.toBytes))

end Cbc

namespace Gcm

/-- The nonce as an array: of twelve bytes if it has that length, of sixteen
if it has any other. -/
def nonce? (nonce : Bytes) : Option Bytes :=
  if nonce.length = KeyMaterial.nonceLength then exactly? KeyMaterial.nonceLength nonce
  else exactly? blockLength nonce

/-- Enciphering, with its reads. -/
def encrypt? (key : Key) (iv : Option Iv) (plaintext : Bytes) (aad : Option Bytes) :
    Stopping Bytes := do
  let nonce ← .ofExcept (Iv.require .gcm iv Iv.nonceLengths)
  if plaintext = [] then return []
  let ks ← .ofExcept key.schedule
  let nonce ← .ofRead (nonce? nonce)
  let aad := aad.getD []
  if maxLength < plaintext.length ∨ maxLength < aad.length then
    throw (.encryption "aead::Error")
  return sealed ks nonce aad plaintext

/-- Deciphering, with its reads; the tag is one of them. -/
def decrypt? (key : Key) (iv : Option Iv) (ciphertext : Bytes) (aad : Option Bytes) :
    Stopping Bytes := do
  let nonce ← .ofExcept (Iv.require .gcm iv Iv.nonceLengths)
  if ciphertext = [] then return []
  if ciphertext.length < tagLength then throw .shorterThanTag
  let ks ← .ofExcept key.schedule
  let nonce ← .ofRead (nonce? nonce)
  let aad := aad.getD []
  if maxLength + tagLength < ciphertext.length - tagLength ∨ maxLength < aad.length then
    throw .tagMismatch
  let _ ← .ofRead (exactly? tagLength (ciphertext.drop (ciphertext.length - tagLength)))
  match unsealed? ks nonce aad ciphertext with
  | some plaintext => return plaintext
  | none => throw .tagMismatch

end Gcm

/-! ## 2. No read stops the program -/

/-- A step that does not stop is followed by what does not stop on what it
gives. -/
theorem Stopping.bind_eq {α β : Type} {x : Except Error α} {next : α → Stopping β}
    {f : α → Except Error β} (h : ∀ a, x = .ok a → next a = .ofExcept (f a)) :
    (Stopping.ofExcept x >>= next) = .ofExcept (x >>= f) := by
  cases x with
  | error error => rfl
  | ok a => exact h a rfl

/-- A result that is transformed on the way makes no difference. -/
theorem Stopping.bind_map_eq {α β γ : Type} {x : Except Error α} {g : α → β}
    {next : β → Stopping γ} {f : α → Except Error γ}
    (h : ∀ a, x = .ok a → next (g a) = .ofExcept (f a)) :
    (Stopping.ofExcept (x.map g) >>= next) = .ofExcept (x >>= f) := by
  cases x with
  | error error => rfl
  | ok a => exact h a rfl

/-- An IV that is taken is followed on bytes of an admitted length. -/
theorem Stopping.bind_require_eq {β : Type} {mode : Mode} {iv : Option Iv} {lengths : List Nat}
    {next : Bytes → Stopping β} {f : Bytes → Except Error β}
    (h : ∀ bs, bs.length ∈ lengths → next bs = .ofExcept (f bs)) :
    (Stopping.ofExcept (Iv.require mode iv lengths) >>= next)
      = .ofExcept (Iv.require mode iv lengths >>= f) := by
  refine Stopping.bind_eq fun bs hbs => ?_
  obtain ⟨v, -, rfl, hlength⟩ := Iv.exists_of_require hbs
  exact h _ hlength

/-- A read that is there is followed on what it gives. -/
theorem Stopping.ofRead_bind {α β : Type} {read : Option α} {a : α} (h : read = some a)
    (next : α → Stopping β) : (Stopping.ofRead read >>= next) = next a := by
  subst h
  rfl

/-- An array is read from as many bytes as it has. -/
theorem exactly?_eq {width : Nat} {bs : Bytes} (h : bs.length = width) :
    exactly? width bs = some bs := if_pos h

/-- A text of whole blocks is read block by block. -/
theorem blocksOf?_eq (count : Nat) {text : Bytes} (h : text.length = 16 * count) :
    blocksOf? text = some (blocksOf text) := by
  refine wholeBlocks_induction (motive := fun text => blocksOf? text = some (blocksOf text))
    ?nil ?append count h
  case nil => simp [blocksOf?]
  case append =>
    intro front rest hfront ih
    unfold blocksOf? at ih
    rw [blocksOf_append _ hfront, blocksOf?, Bytes.chunks_append _ (by decide) hfront,
      List.mapM_cons, exactly?_eq hfront, ih]
    rfl

theorem blocksOf?_pad (text : Bytes) :
    blocksOf? (Padding.pad text) = some (blocksOf (Padding.pad text)) :=
  blocksOf?_eq _ (Padding.length_pad text)

/-- A ciphertext that passes is read block by block. -/
theorem blocksOf?_of_aligned {text : Bytes} (h : checkAligned text = .ok ()) :
    blocksOf? text = some (blocksOf text) := by
  rw [checkAligned] at h
  split at h
  · rename_i haligned
    rw [blockLength] at haligned
    exact blocksOf?_eq (text.length / 16) (by omega)
  · cases h

theorem Ecb.encrypt?_eq (key : Key) (plaintext : Bytes) :
    encrypt? key plaintext = .ofExcept (encrypt key plaintext) := by
  rw [encrypt?, encrypt]
  split
  · rfl
  · refine Stopping.bind_eq fun ks _ => ?_
    rw [Stopping.ofRead_bind (blocksOf?_pad plaintext), mapBlocks_eq]
    rfl

theorem Ecb.decrypt?_eq (key : Key) (ciphertext : Bytes) :
    decrypt? key ciphertext = .ofExcept (decrypt key ciphertext) := by
  rw [decrypt?, decrypt]
  split
  · rfl
  · refine Stopping.bind_eq fun _ haligned => Stopping.bind_eq fun ks _ => ?_
    rw [Stopping.ofRead_bind (blocksOf?_of_aligned haligned), mapBlocks_eq]

namespace Cbc

/-- Once the IV is found good, nothing but the key is taken. -/
theorem take_eq {key : Key} {iv : Bytes} (hiv : iv.length = blockLength) :
    take key iv = key.schedule.map (·, Block.ofBytes iv) := by
  simp only [take, Key.schedule, hiv, and_true]
  split <;> rfl

theorem encrypt?_eq (key : Key) (iv : Option Iv) (plaintext : Bytes) :
    encrypt? key iv plaintext = .ofExcept (encrypt key iv plaintext) := by
  rw [encrypt?, encrypt]
  refine Stopping.bind_require_eq fun bs hlength => ?_
  split
  · rfl
  · rw [take_eq (List.mem_singleton.mp hlength)]
    refine Stopping.bind_map_eq fun ks _ => ?_
    exact Stopping.ofRead_bind (blocksOf?_pad plaintext) _

theorem decrypt?_eq (key : Key) (iv : Option Iv) (ciphertext : Bytes) :
    decrypt? key iv ciphertext = .ofExcept (decrypt key iv ciphertext) := by
  rw [decrypt?, decrypt]
  refine Stopping.bind_require_eq fun bs hlength => ?_
  split
  · rfl
  · refine Stopping.bind_eq fun _ haligned => ?_
    rw [take_eq (List.mem_singleton.mp hlength)]
    refine Stopping.bind_map_eq fun ks _ => ?_
    exact Stopping.ofRead_bind (blocksOf?_of_aligned haligned) _

end Cbc

namespace Gcm

/-- A nonce of an admitted length is read at that length. -/
theorem nonce?_eq {nonce : Bytes} (h : nonce.length ∈ Iv.nonceLengths) :
    nonce? nonce = some nonce := by
  simp only [Iv.nonceLengths, List.mem_cons, List.not_mem_nil, or_false] at h
  unfold nonce?
  split
  · rename_i hshort
    exact exactly?_eq hshort
  · rename_i hlong
    exact exactly?_eq (h.resolve_left hlong)

theorem encrypt?_eq (key : Key) (iv : Option Iv) (plaintext : Bytes) (aad : Option Bytes) :
    encrypt? key iv plaintext aad = .ofExcept (encrypt key iv plaintext aad) := by
  rw [encrypt?, encrypt]
  refine Stopping.bind_require_eq fun bs hlength => ?_
  split
  · rfl
  · refine Stopping.bind_eq fun ks _ => ?_
    rw [Stopping.ofRead_bind (nonce?_eq hlength)]
    dsimp only
    split <;> rfl

theorem decrypt?_eq (key : Key) (iv : Option Iv) (ciphertext : Bytes) (aad : Option Bytes) :
    decrypt? key iv ciphertext aad = .ofExcept (decrypt key iv ciphertext aad) := by
  rw [decrypt?, decrypt]
  refine Stopping.bind_require_eq fun bs hlength => ?_
  split
  · rfl
  split
  · rfl
  · rename_i hlong
    refine Stopping.bind_eq fun ks _ => ?_
    rw [Stopping.ofRead_bind (nonce?_eq hlength)]
    dsimp only
    split
    · rfl
    · have htag : (ciphertext.drop (ciphertext.length - tagLength)).length = tagLength := by
        rw [List.length_drop]
        omega
      rw [Stopping.ofRead_bind (exactly?_eq htag)]
      cases unsealed? ks bs (aad.getD []) ciphertext <;> rfl

end Gcm

/-! ## 3. Which length is blamed -/

namespace Mode

/-- What a complaint says about key and IV is true: a key is blamed for its
own length, which is not that of a key, and an IV for its own, which the mode
does not admit, or for being absent. -/
def Blames (mode : Mode) (key : Key) (iv : Option Iv) : Error → Prop
  | .keySize actual => actual = key.bytes.length ∧ key.bytes.length ≠ Key.size
  | .ivSize _ actual => ∃ v, iv = some v ∧ actual = v.bytes.length ∧ ¬ mode.AdmitsIv iv
  | .missingIv named => named = mode ∧ iv = none
  | _ => True

section

variable {mode : Mode} {key : Key} {iv : Option Iv} {data : Bytes} {aad : Option Bytes}

/-- Whatever the outcome complains of is true of key and IV. -/
def BlamesRightly (mode : Mode) (key : Key) (iv : Option Iv) {α : Type}
    (outcome : Except Error α) : Prop :=
  ∀ error, outcome = .error error → mode.Blames key iv error

namespace BlamesRightly

variable {α β : Type}

theorem ok (a : α) : mode.BlamesRightly key iv (.ok a) := nofun

theorem error {e : Error} (h : mode.Blames key iv e) :
    mode.BlamesRightly key iv (.error e : Except Error α) := by
  rintro _ ⟨⟩
  exact h

/-- Two steps blame rightly when each of them does. -/
theorem bind {x : Except Error α} {f : α → Except Error β} (hx : mode.BlamesRightly key iv x)
    (hf : ∀ a, mode.BlamesRightly key iv (f a)) : mode.BlamesRightly key iv (x >>= f) := by
  intro e h
  rcases bind_eq_error_iff.mp h with h | ⟨a, -, h⟩
  · exact hx e h
  · exact hf a e h

theorem schedule : mode.BlamesRightly key iv key.schedule := by
  intro e h
  obtain ⟨hsize, rfl⟩ := Key.schedule_eq_error_iff.mp h
  exact ⟨rfl, hsize⟩

theorem require {lengths : List Nat}
    (hadmits : mode.AdmitsIv iv → ∃ v, iv = some v ∧ v.bytes.length ∈ lengths) :
    mode.BlamesRightly key iv (Iv.require mode iv lengths) := by
  intro e h
  rcases Iv.require_eq_error h with ⟨rfl, rfl⟩ | ⟨v, rfl, hlength, rfl⟩
  · exact ⟨rfl, rfl⟩
  · refine ⟨v, rfl, rfl, fun hiv => ?_⟩
    obtain ⟨v', hv', hlength'⟩ := hadmits hiv
    obtain rfl := Option.some.inj hv'
    exact hlength hlength'

theorem checkAligned : mode.BlamesRightly key iv (checkAligned data) := by
  unfold Sm4.checkAligned
  split
  · exact ok ()
  · exact error trivial

theorem removePadding : mode.BlamesRightly key iv (removePadding data) := by
  unfold Sm4.removePadding
  split
  · exact ok _
  · exact error trivial

end BlamesRightly

/-- Enciphering complains of a length where it is wrong. -/
theorem blamesRightly_encryptRow :
    mode.BlamesRightly key iv (mode.encryptRow key iv data aad) := by
  cases mode with
  | ecb =>
    rw [encryptRow, Ecb.encrypt]
    split
    · exact .ok _
    · exact .bind .schedule fun ks => .ok _
  | cbc =>
    rw [encryptRow, Cbc.encrypt]
    refine .bind (.require id) fun bs => ?_
    split
    · exact .ok _
    · exact .bind .schedule fun ks => .ok _
  | gcm =>
    rw [encryptRow, Gcm.encrypt]
    refine .bind (.require id) fun bs => ?_
    split
    · exact .ok _
    refine .bind .schedule fun ks => ?_
    dsimp only
    split
    · exact .error trivial
    · exact .ok _

/-- Deciphering complains of a length where it is wrong. -/
theorem blamesRightly_decryptRow :
    mode.BlamesRightly key iv (mode.decryptRow key iv data aad) := by
  cases mode with
  | ecb =>
    rw [decryptRow, Ecb.decrypt]
    split
    · exact .ok _
    · exact .bind .checkAligned fun _ => .bind .schedule fun ks => .removePadding
  | cbc =>
    rw [decryptRow, Cbc.decrypt]
    refine .bind (.require id) fun bs => ?_
    split
    · exact .ok _
    · exact .bind .checkAligned fun _ => .bind .schedule fun ks => .removePadding
  | gcm =>
    rw [decryptRow, Gcm.decrypt]
    refine .bind (.require id) fun bs => ?_
    split
    · exact .ok _
    split
    · exact .error trivial
    refine .bind .schedule fun ks => ?_
    dsimp only
    split
    · exact .error trivial
    split
    · exact .ok _
    · exact .error trivial

/-- A ciphertext that is not empty is deciphered only under a key of the right
size and an IV that the mode admits. -/
theorem admitted_of_decryptRow {text : Bytes} (hne : data ≠ [])
    (h : mode.decryptRow key iv data aad = .ok text) :
    key.bytes.length = Key.size ∧ mode.AdmitsIv iv := by
  cases mode with
  | ecb =>
    rw [decryptRow, Ecb.decrypt, if_neg hne] at h
    obtain ⟨_, -, h⟩ := bind_eq_ok_iff.mp h
    obtain ⟨ks, hks, -⟩ := bind_eq_ok_iff.mp h
    exact ⟨Key.length_of_schedule hks, trivial⟩
  | cbc =>
    rw [decryptRow, Cbc.decrypt] at h
    obtain ⟨bs, hbs, h⟩ := bind_eq_ok_iff.mp h
    rw [if_neg hne] at h
    obtain ⟨_, -, h⟩ := bind_eq_ok_iff.mp h
    obtain ⟨ks, hks, -⟩ := bind_eq_ok_iff.mp h
    exact ⟨Key.length_of_schedule hks, admitsIv_of_require_cbc hbs⟩
  | gcm =>
    rw [decryptRow, Gcm.decrypt] at h
    obtain ⟨bs, hbs, h⟩ := bind_eq_ok_iff.mp h
    rw [if_neg hne] at h
    split at h
    · cases h
    obtain ⟨ks, hks, -⟩ := bind_eq_ok_iff.mp h
    exact ⟨Key.length_of_schedule hks, admitsIv_of_require_gcm hbs⟩

end

/-! ## 4. Unchecked inputs -/

/-- A call of a mode checks the lengths of key and IV by itself: it does not
stop, it complains of a length only where that is wrong, and it lets a text
that is not empty through only where both are right. -/
structure ChecksLengths (mode : Mode) (key : Key) (iv : Option Iv) (data : Bytes)
    (call : Stopping Bytes) (outcome : Except Error Bytes) : Prop where
  runs : call = .ofExcept outcome
  blames : mode.BlamesRightly key iv outcome
  admits : data ≠ [] → ∀ out, outcome = .ok out →
    key.bytes.length = Key.size ∧ mode.AdmitsIv iv

section

variable {key : Key} {iv : Option Iv} {data : Bytes} {call : Stopping Bytes}

theorem checksLengths_of_encryptRow (mode : Mode) (aad : Option Bytes)
    (h : call = .ofExcept (mode.encryptRow key iv data aad)) :
    mode.ChecksLengths key iv data call (mode.encryptRow key iv data aad) where
  runs := h
  blames := blamesRightly_encryptRow
  admits hne _ := admitted_of_encryptRow hne

theorem checksLengths_of_decryptRow (mode : Mode) (aad : Option Bytes)
    (h : call = .ofExcept (mode.decryptRow key iv data aad)) :
    mode.ChecksLengths key iv data call (mode.decryptRow key iv data aad) where
  runs := h
  blames := blamesRightly_decryptRow
  admits hne _ := admitted_of_decryptRow hne

end

/-- Where the mode has a use for all that is given, the checked calls add no
outcome of their own. -/
theorem checked_eq_row (mode : Mode) (key : Key) (iv : Option Iv) (data : Bytes)
    {aad : Option Bytes} (hplace : aad = none ∨ mode = gcm) :
    mode.encrypt key iv data aad = mode.encryptRow key iv data aad
      ∧ mode.decrypt key iv data aad = mode.decryptRow key iv data aad := by
  have haad : ¬ (aad.isSome ∧ mode ≠ gcm) := by
    rintro ⟨hsome, hmode⟩
    obtain rfl := hplace.resolve_right hmode
    cases hsome
  rw [encrypt, decrypt, checkInputs, if_neg haad]
  by_cases hwanting : mode.requiresIv = true ∧ iv = none
  · -- the mode itself asks for the IV first
    rw [if_pos hwanting]
    obtain ⟨hrequires, rfl⟩ := hwanting
    cases mode with
    | ecb => cases hrequires
    | cbc => exact ⟨rfl, rfl⟩
    | gcm => exact ⟨rfl, rfl⟩
  · rw [if_neg hwanting]
    exact ⟨rfl, rfl⟩

/-- Additional data is refused before all else where the mode has no use for
it. -/
theorem refuses_aad {mode : Mode} (hmode : mode ≠ gcm) (key : Key) (iv : Option Iv)
    (data aad : Bytes) :
    mode.encrypt key iv data (some aad) = .error (.unexpectedAad mode)
      ∧ mode.decrypt key iv data (some aad) = .error (.unexpectedAad mode) := by
  rw [encrypt, decrypt, checkInputs, if_pos ⟨rfl, hmode⟩]
  exact ⟨rfl, rfl⟩

/-- A mode chosen at run time gives what the mode itself gives, and refuses
additional data that the mode has no use for; and each mode checks the lengths
of its key and its IV by itself. -/
theorem modes_on_unchecked_inputs (key : Key) (iv : Option Iv) (data : Bytes) :
    (ecb.encrypt key iv data none = Ecb.encrypt key data
      ∧ ecb.decrypt key iv data none = Ecb.decrypt key data) ∧
    (cbc.encrypt key iv data none = Cbc.encrypt key iv data
      ∧ cbc.decrypt key iv data none = Cbc.decrypt key iv data) ∧
    (∀ aad, gcm.encrypt key iv data aad = Gcm.encrypt key iv data aad
      ∧ gcm.decrypt key iv data aad = Gcm.decrypt key iv data aad) ∧
    (∀ mode, mode ≠ gcm → ∀ aad,
      mode.encrypt key iv data (some aad) = .error (.unexpectedAad mode)
        ∧ mode.decrypt key iv data (some aad) = .error (.unexpectedAad mode)) ∧
    (ecb.ChecksLengths key iv data (Ecb.encrypt? key data) (Ecb.encrypt key data)
      ∧ ecb.ChecksLengths key iv data (Ecb.decrypt? key data) (Ecb.decrypt key data)) ∧
    (cbc.ChecksLengths key iv data (Cbc.encrypt? key iv data) (Cbc.encrypt key iv data)
      ∧ cbc.ChecksLengths key iv data (Cbc.decrypt? key iv data) (Cbc.decrypt key iv data)) ∧
    (∀ aad,
      gcm.ChecksLengths key iv data (Gcm.encrypt? key iv data aad) (Gcm.encrypt key iv data aad)
        ∧ gcm.ChecksLengths key iv data (Gcm.decrypt? key iv data aad)
          (Gcm.decrypt key iv data aad)) := by
  refine ⟨checked_eq_row ecb key iv data (.inl rfl), checked_eq_row cbc key iv data (.inl rfl),
    fun aad => checked_eq_row gcm key iv data (.inr rfl),
    fun mode hmode aad => refuses_aad hmode key iv data aad, ?_, ?_, fun aad => ?_⟩
  · exact ⟨checksLengths_of_encryptRow ecb none (Ecb.encrypt?_eq key data),
      checksLengths_of_decryptRow ecb none (Ecb.decrypt?_eq key data)⟩
  · exact ⟨checksLengths_of_encryptRow cbc none (Cbc.encrypt?_eq key iv data),
      checksLengths_of_decryptRow cbc none (Cbc.decrypt?_eq key iv data)⟩
  · exact ⟨checksLengths_of_encryptRow gcm aad (Gcm.encrypt?_eq key iv data aad),
      checksLengths_of_decryptRow gcm aad (Gcm.decrypt?_eq key iv data aad)⟩

/-- Under CBC a key of three bytes is blamed for its length, with an IV that
is good; an IV of twelve bytes is blamed before it; and a letter that is
enciphered was enciphered under a key and an IV of sixteen bytes. -/
theorem modes_on_unchecked_inputs_stored :
    cbc.encrypt ⟨[1, 2, 3]⟩ (some ⟨List.replicate 16 0⟩) [97] none = .error (.keySize 3)
    ∧ cbc.Blames ⟨[1, 2, 3]⟩ (some ⟨List.replicate 16 0⟩) (.keySize 3)
    ∧ cbc.Blames ⟨[1, 2, 3]⟩ (some ⟨List.replicate 12 0⟩) (.ivSize 16 12)
    ∧ cbc.encrypt ⟨[1, 2, 3]⟩ none [97] (some []) = .error (.unexpectedAad cbc)
    ∧ (Key.mk (List.replicate 16 1)).bytes.length = Key.size := by
  obtain ⟨-, hcbc, -, -, -, hshort, -⟩ :=
    modes_on_unchecked_inputs ⟨[1, 2, 3]⟩ (some ⟨List.replicate 16 0⟩) [97]
  obtain ⟨-, -, -, -, -, hnonce, -⟩ :=
    modes_on_unchecked_inputs ⟨[1, 2, 3]⟩ (some ⟨List.replicate 12 0⟩) [97]
  obtain ⟨-, -, -, haad, -⟩ := modes_on_unchecked_inputs ⟨[1, 2, 3]⟩ none [97]
  obtain ⟨-, -, -, -, -, hgood, -⟩ :=
    modes_on_unchecked_inputs ⟨List.replicate 16 1⟩ (some ⟨List.replicate 16 0⟩) [97]
  refine ⟨hcbc.left.trans rfl, hshort.left.blames _ rfl, hnonce.left.blames _ rfl,
    (haad cbc (by decide) []).left, ?_⟩
  have hletter : ∃ out, Cbc.encrypt ⟨List.replicate 16 1⟩ (some ⟨List.replicate 16 0⟩) [97]
      = .ok out := ⟨_, Cbc.encrypt_eq rfl (by decide) (by decide)⟩
  obtain ⟨out, hout⟩ := hletter
  exact (hgood.left.admits (by decide) out hout).left

end Mode
end ColumnMasking.Sm4
