/-
ColumnMasking.Proofs.Sm4.ModeTheorems — what enciphering and deciphering
give in each mode.

A call with a key of sixteen bytes and an IV that the mode admits fails
for want of neither. `Ecb.encrypt_eq`, `Cbc.encrypt_eq` and
`Gcm.encrypt_eq_ok_iff` say what enciphering gives then, and the three
`decrypt_eq_ok_iff` say which texts deciphering gives: those whose
enciphered form is the ciphertext.

The block modes rest on `removePadding_of_aligned_eq_ok_iff`, where the
transformation of blocks is the block cipher on its own (ECB) or chained
(CBC, `Cbc.unchain_chain` and `Cbc.chain_unchain`). In GCM the body is
covered and uncovered by the same key stream and the tag is a function of
the body, so a ciphertext is accepted for no other reason than that it is
the sealed form of its text (`Gcm.unsealed?_eq_some_iff`).
-/
import ColumnMasking.Sm4.Cipher
import ColumnMasking.Proofs.Sm4.BlockTexts

namespace ColumnMasking.Sm4

/-! ## 1. Keys, IVs and padding -/

/-- The round keys of a key. -/
def Key.rounds (key : Key) : List Word :=
  roundKeys (Block.ofBytes key.bytes)

/-- A key of the right size has its round keys. -/
theorem Key.schedule_eq {key : Key} (h : key.bytes.length = size) :
    key.schedule = .ok key.rounds := by
  rw [schedule, if_pos h, rounds]

/-- An IV of an admitted length is taken as it is. -/
theorem Iv.require_eq (mode : Mode) {iv : Iv} {lengths : List Nat}
    (h : iv.bytes.length ∈ lengths) : Iv.require mode (some iv) lengths = .ok iv.bytes := by
  simp only [Iv.require, if_pos h]

/-- Only a key of the right size has round keys. -/
theorem Key.length_of_schedule {key : Key} {ks : List Word} (h : key.schedule = .ok ks) :
    key.bytes.length = size := by
  rw [schedule] at h
  split at h
  · assumption
  · cases h

/-- Any other key is refused for its size. -/
theorem Key.schedule_eq_error_iff {key : Key} {error : Error} :
    key.schedule = .error error
      ↔ key.bytes.length ≠ size ∧ error = .keySize key.bytes.length := by
  rw [schedule]
  split
  · rename_i hsize
    simp [hsize]
  · rename_i hsize
    simp [hsize, eq_comm]

/-- Only an IV of an admitted length is taken, and it is taken as it is. -/
theorem Iv.exists_of_require {mode : Mode} {iv : Option Iv} {lengths : List Nat} {bs : Bytes}
    (h : Iv.require mode iv lengths = .ok bs) :
    ∃ v, iv = some v ∧ v.bytes = bs ∧ v.bytes.length ∈ lengths := by
  cases iv with
  | none => cases h
  | some v =>
    simp only [Iv.require] at h
    split at h
    · rename_i hlength
      exact ⟨v, rfl, Except.ok.inj h, hlength⟩
    · cases h

/-- An IV is refused for being absent or for its length. -/
theorem Iv.require_eq_error {mode : Mode} {iv : Option Iv} {lengths : List Nat} {error : Error}
    (h : Iv.require mode iv lengths = .error error) :
    iv = none ∧ error = .missingIv mode
      ∨ ∃ v, iv = some v ∧ v.bytes.length ∉ lengths
        ∧ error = .ivSize (lengths.getLastD blockLength) v.bytes.length := by
  cases iv with
  | none => exact .inl ⟨rfl, (Except.error.inj h).symm⟩
  | some v =>
    simp only [Iv.require] at h
    split at h
    · cases h
    · rename_i hlength
      exact .inr ⟨v, rfl, hlength, (Except.error.inj h).symm⟩

/-- A text of whole blocks passes. -/
theorem checkAligned_eq {text : Bytes} (h : text.length % blockLength = 0) :
    checkAligned text = .ok () := by
  rw [checkAligned, if_pos h]

/-- Any other text is refused. -/
theorem checkAligned_eq_error {text : Bytes} (h : ¬ text.length % blockLength = 0) :
    checkAligned text = .error (.unaligned text.length) := by
  rw [checkAligned, if_neg h]

/-- The text without its padding is what the padding comes off. -/
theorem removePadding_eq_ok_iff {padded text : Bytes} :
    removePadding padded = .ok text ↔ Padding.unpad? padded = some text := by
  rw [removePadding]
  cases Padding.unpad? padded <;> simp

/-- A written list of blocks is a whole number of blocks. -/
theorem length_flatMap_toBytes_mod (bs : List Block) :
    (bs.flatMap Block.toBytes).length % blockLength = 0 := by
  rw [length_flatMap_toBytes, blockLength]
  omega

/-- Where `forward` and `back` undo each other, a ciphertext is checked,
sent back and freed of its padding to the text of which it is the padded
form sent forward. -/
theorem removePadding_of_aligned_eq_ok_iff (forward back : List Block → List Block)
    (hback : ∀ bs, back (forward bs) = bs) (hforward : ∀ bs, forward (back bs) = bs)
    (ciphertext text : Bytes) :
    (checkAligned ciphertext >>= fun _ =>
        removePadding ((back (blocksOf ciphertext)).flatMap Block.toBytes)) = .ok text
      ↔ ciphertext = (forward (blocksOf (Padding.pad text))).flatMap Block.toBytes := by
  by_cases haligned : ciphertext.length % blockLength = 0
  · rw [checkAligned_eq haligned]
    exact removePadding_eq_ok_iff.trans
      (unpad?_eq_some_iff_of_inverse forward back hback hforward haligned text)
  · rw [checkAligned_eq_error haligned]
    constructor
    · intro h
      cases h
    · intro h
      rw [h] at haligned
      exact absurd (length_flatMap_toBytes_mod _) haligned

/-! ## 2. ECB -/

namespace Ecb

/-- The ciphertext of a text under round keys. -/
def enciphered (ks : List Word) (text : Bytes) : Bytes :=
  ((blocksOf (Padding.pad text)).map (Sm4.encrypt ks)).flatMap Block.toBytes

/-- Transforming a text blockwise is transforming its blocks. -/
theorem mapBlocks_eq (f : Block → Block) (text : Bytes) :
    mapBlocks f text = ((blocksOf text).map f).flatMap Block.toBytes := by
  simp only [mapBlocks, blocksOf, List.map_map, List.flatMap_map, Function.comp_def]

/-- What enciphering gives. -/
theorem encrypt_eq {key : Key} (hkey : key.bytes.length = Key.size) {text : Bytes}
    (htext : text ≠ []) : encrypt key text = .ok (enciphered key.rounds text) := by
  rw [encrypt, if_neg htext, Key.schedule_eq hkey, enciphered, ← mapBlocks_eq]
  rfl

/-- The texts that deciphering gives. -/
theorem decrypt_eq_ok_iff {key : Key} (hkey : key.bytes.length = Key.size) {ciphertext : Bytes}
    (hne : ciphertext ≠ []) (text : Bytes) :
    decrypt key ciphertext = .ok text ↔ ciphertext = enciphered key.rounds text := by
  rw [decrypt, if_neg hne, Key.schedule_eq hkey]
  simp only [mapBlocks_eq]
  exact removePadding_of_aligned_eq_ok_iff (List.map (Sm4.encrypt key.rounds))
    (List.map (Sm4.decrypt key.rounds))
    (fun bs => by simp [Function.comp_def, decrypt_encrypt])
    (fun bs => by simp [Function.comp_def, encrypt_decrypt]) ciphertext text

end Ecb

/-! ## 3. CBC -/

namespace Cbc

/-- Unchaining undoes chaining. -/
theorem unchain_chain (ks : List Word) : ∀ (previous : Block) (bs : List Block),
    unchain ks previous (chain ks previous bs) = bs
  | _, [] => rfl
  | previous, b :: bs => by
    have ih := unchain_chain ks (Sm4.encrypt ks (b.xor previous)) bs
    simp only [chain, unchain, decrypt_encrypt, Block.xor_xor, ih]

/-- Chaining undoes unchaining. -/
theorem chain_unchain (ks : List Word) : ∀ (previous : Block) (cs : List Block),
    chain ks previous (unchain ks previous cs) = cs
  | _, [] => rfl
  | previous, c :: cs => by
    have ih := chain_unchain ks c cs
    simp only [chain, unchain, Block.xor_xor, encrypt_decrypt, ih]

/-- The ciphertext of a text under round keys and an IV. -/
def enciphered (ks : List Word) (iv text : Bytes) : Bytes :=
  (chain ks (Block.ofBytes iv) (blocksOf (Padding.pad text))).flatMap Block.toBytes

/-- What enciphering gives. -/
theorem encrypt_eq {key : Key} (hkey : key.bytes.length = Key.size) {iv : Iv}
    (hiv : iv.bytes.length ∈ [blockLength]) {text : Bytes} (htext : text ≠ []) :
    encrypt key (some iv) text = .ok (enciphered key.rounds iv.bytes text) := by
  rw [encrypt, Iv.require_eq .cbc hiv, Key.schedule_eq hkey]
  exact if_neg htext

/-- The texts that deciphering gives. -/
theorem decrypt_eq_ok_iff {key : Key} (hkey : key.bytes.length = Key.size) {iv : Iv}
    (hiv : iv.bytes.length ∈ [blockLength]) {ciphertext : Bytes} (hne : ciphertext ≠ [])
    (text : Bytes) : decrypt key (some iv) ciphertext = .ok text
      ↔ ciphertext = enciphered key.rounds iv.bytes text := by
  rw [decrypt, Iv.require_eq .cbc hiv, Key.schedule_eq hkey]
  simp only [bind, Except.bind, if_neg hne]
  exact removePadding_of_aligned_eq_ok_iff (chain key.rounds (Block.ofBytes iv.bytes))
    (unchain key.rounds (Block.ofBytes iv.bytes)) (unchain_chain _ _) (chain_unchain _ _)
    ciphertext text

end Cbc

/-! ## 4. GCM -/

namespace Gcm

/-- A sealed text is a tag longer. -/
theorem length_sealed (ks : List Word) (nonce aad text : Bytes) :
    (sealed ks nonce aad text).length = text.length + tagLength := by
  simp only [sealed, List.length_append, length_cover, length_tag]

/-- The body of a sealed text. -/
theorem take_sealed (ks : List Word) (nonce aad text : Bytes) :
    (sealed ks nonce aad text).take text.length = cover ks (firstCounter ks nonce) text := by
  simp only [sealed]
  rw [List.take_append_of_le_length (Nat.le_of_eq (length_cover ..).symm)]
  exact List.take_of_length_le (Nat.le_of_eq (length_cover ..))

/-- The tag of a sealed text. -/
theorem drop_sealed (ks : List Word) (nonce aad text : Bytes) :
    (sealed ks nonce aad text).drop text.length
      = tag ks (firstCounter ks nonce) aad (cover ks (firstCounter ks nonce) text) := by
  simp only [sealed]
  exact List.drop_left' (length_cover ..)

/-- What stands behind the body of a sealed text is the tag of the body. -/
theorem eq_tag_of_sealed {ks : List Word} {nonce aad text body final : Bytes}
    (hlength : final.length = tagLength) (h : body ++ final = sealed ks nonce aad text) :
    final = tag ks (firstCounter ks nonce) aad body := by
  simp only [sealed] at h
  obtain ⟨hbody, hfinal⟩ := List.append_inj' h (by rw [hlength, length_tag])
  rw [hfinal, hbody]

/-- A ciphertext is accepted exactly when it is the sealed form of the
text that it gives. -/
theorem unsealed?_eq_some_iff (ks : List Word) (nonce aad : Bytes) {ciphertext : Bytes}
    (hlength : tagLength ≤ ciphertext.length) (text : Bytes) :
    unsealed? ks nonce aad ciphertext = some text ↔ ciphertext = sealed ks nonce aad text := by
  constructor
  · intro h
    simp only [unsealed?] at h
    split at h
    · rename_i htag
      have hbody := Option.some.inj h
      simp only [sealed]
      rw [← hbody, cover_cover, ← htag, List.take_append_drop]
    · simp at h
  · rintro rfl
    have hcut : (sealed ks nonce aad text).length - tagLength = text.length := by
      rw [length_sealed]
      omega
    simp only [unsealed?, hcut, take_sealed, drop_sealed, cover_cover, if_true]

/-- When enciphering succeeds, and with what. -/
theorem encrypt_eq_ok_iff {key : Key} (hkey : key.bytes.length = Key.size) {nonce : Iv}
    (hnonce : nonce.bytes.length ∈ Iv.nonceLengths) {text : Bytes} (htext : text ≠ [])
    (aad : Option Bytes) (ciphertext : Bytes) :
    encrypt key (some nonce) text aad = .ok ciphertext
      ↔ ciphertext = sealed key.rounds nonce.bytes (aad.getD []) text
        ∧ text.length ≤ maxLength ∧ (aad.getD []).length ≤ maxLength := by
  rw [encrypt, Iv.require_eq .gcm hnonce, Key.schedule_eq hkey]
  simp only [bind, Except.bind, if_neg htext]
  by_cases hlimit : maxLength < text.length ∨ maxLength < (aad.getD []).length
  · rw [if_pos hlimit]
    constructor
    · intro h
      simp [throw, throwThe, MonadExceptOf.throw] at h
    · rintro ⟨-, htextLimit, haadLimit⟩
      omega
  · rw [if_neg hlimit]
    have hwithin : text.length ≤ maxLength ∧ (aad.getD []).length ≤ maxLength := by omega
    constructor
    · intro h
      exact ⟨(Except.ok.inj h).symm, hwithin⟩
    · rintro ⟨rfl, -⟩
      rfl

/-- Deciphering a ciphertext that holds a tag, spelled out. -/
theorem decrypt_eq {key : Key} (hkey : key.bytes.length = Key.size) {nonce : Iv}
    (hnonce : nonce.bytes.length ∈ Iv.nonceLengths) {ciphertext : Bytes}
    (hlength : tagLength ≤ ciphertext.length) (aad : Option Bytes) :
    decrypt key (some nonce) ciphertext aad
      = if maxLength + tagLength < ciphertext.length - tagLength
            ∨ maxLength < (aad.getD []).length then .error .tagMismatch
        else match unsealed? key.rounds nonce.bytes (aad.getD []) ciphertext with
          | some text => .ok text
          | none => .error .tagMismatch := by
  have hne : ciphertext ≠ [] := by
    rintro rfl
    simp [tagLength] at hlength
  rw [decrypt, Iv.require_eq .gcm hnonce, Key.schedule_eq hkey]
  simp only [bind, Except.bind, if_neg hne, if_neg (Nat.not_lt.mpr hlength)]
  rfl

/-- A ciphertext that holds no tag is refused for that. -/
theorem decrypt_of_short {nonce : Iv} (hnonce : nonce.bytes.length ∈ Iv.nonceLengths)
    {ciphertext : Bytes} (hne : ciphertext ≠ []) (hshort : ciphertext.length < tagLength)
    (key : Key) (aad : Option Bytes) :
    decrypt key (some nonce) ciphertext aad = .error .shorterThanTag := by
  rw [decrypt, Iv.require_eq .gcm hnonce]
  simp only [bind, Except.bind, if_neg hne, if_pos hshort]
  rfl

/-- The texts that deciphering gives. -/
theorem decrypt_eq_ok_iff {key : Key} (hkey : key.bytes.length = Key.size) {nonce : Iv}
    (hnonce : nonce.bytes.length ∈ Iv.nonceLengths) {ciphertext : Bytes} (hne : ciphertext ≠ [])
    (aad : Option Bytes) (text : Bytes) :
    decrypt key (some nonce) ciphertext aad = .ok text
      ↔ ciphertext = sealed key.rounds nonce.bytes (aad.getD []) text
        ∧ text.length ≤ maxLength + tagLength ∧ (aad.getD []).length ≤ maxLength := by
  by_cases hlength : tagLength ≤ ciphertext.length
  · rw [decrypt_eq hkey hnonce hlength]
    split
    · rename_i hlimit
      constructor
      · intro h
        simp at h
      · rintro ⟨rfl, htextLimit, haadLimit⟩
        rw [length_sealed] at hlimit
        omega
    · rename_i hlimit
      have hiff := unsealed?_eq_some_iff key.rounds nonce.bytes (aad.getD []) hlength text
      constructor
      · intro h
        have hunsealed : unsealed? key.rounds nonce.bytes (aad.getD []) ciphertext = some text := by
          split at h
          · rename_i found hfound
            rw [hfound, Except.ok.inj h]
          · simp at h
        have hsealed := hiff.mp hunsealed
        have hcount := length_sealed key.rounds nonce.bytes (aad.getD []) text
        rw [← hsealed] at hcount
        exact ⟨hsealed, by omega, by omega⟩
      · rintro ⟨hsealed, -⟩
        rw [hiff.mpr hsealed]
  · -- shorter than a tag: refused, and no sealed text is that short
    have hshort : ciphertext.length < tagLength := Nat.lt_of_not_le hlength
    constructor
    · intro h
      rw [decrypt_of_short hnonce hne hshort] at h
      cases h
    · rintro ⟨rfl, -⟩
      rw [length_sealed] at hshort
      omega

/-- A ciphertext that holds a tag is either accepted or refused for its
tag. -/
theorem decrypt_eq_error {key : Key} (hkey : key.bytes.length = Key.size) {nonce : Iv}
    (hnonce : nonce.bytes.length ∈ Iv.nonceLengths) {ciphertext : Bytes}
    (hlength : tagLength ≤ ciphertext.length) (aad : Option Bytes)
    (hrefused : ∀ text, decrypt key (some nonce) ciphertext aad ≠ .ok text) :
    decrypt key (some nonce) ciphertext aad = .error .tagMismatch := by
  rw [decrypt_eq hkey hnonce hlength] at hrefused ⊢
  split at hrefused
  · rename_i hlimit
    rw [if_pos hlimit]
  · rename_i hlimit
    rw [if_neg hlimit]
    split at hrefused
    · rename_i text htext
      exact absurd rfl (hrefused text)
    · rfl

end Gcm
end ColumnMasking.Sm4
