/-
ColumnMasking.Proofs.Engine.WrongIv — CBC under another IV than the one that
a text was enciphered under.

An IV is added to the first block of a padded text and to no other, so what
two IVs make of the same ciphertext differs in the first block alone, by the
exclusive or of the IVs. A text of a whole block or more therefore comes out
with that block changed (`enciphered_append`). In a shorter text the padding
changes too, and may be refused or come off at another length; but whatever
comes out is not the text (`iv_eq_of_enciphered`).

At the level of texts there are bytes that several byte strings are read as:
those that are replaced. A text without a replacement character is read from
its own bytes alone (`Utf8.decodeLossy_eq_iff`), and so is not what the wrong
IV gives: `wrongIv_never_restores`. The empty text is left out, as it is its
own ciphertext under every IV.
-/
import ColumnMasking.Proofs.Engine.Sm4Inputs
import ColumnMasking.Proofs.Sm4.XoredBlocks
import ColumnMasking.Proofs.Text.Utf8Readings

namespace ColumnMasking

/-! ## 1. Where texts differ -/

/-- Adding two byte strings changes a third one exactly where they differ. -/
theorem Bytes.getElem?_xor_xor_eq_iff {as bs cs : Bytes} (hb : bs.length = as.length)
    (hc : cs.length = as.length) (i : Nat) :
    (xor as (xor bs cs))[i]? = as[i]? ↔ bs[i]? = cs[i]? := by
  by_cases hi : i < as.length
  · have hib : i < bs.length := by omega
    have hic : i < cs.length := by omega
    simp only [getElem?_xor, List.getElem?_eq_getElem hi, List.getElem?_eq_getElem hib,
      List.getElem?_eq_getElem hic, Option.bind_some, Option.map_some, Option.some.injEq]
    have hzero := UInt8.xor_right_inj (a := bs[i] ^^^ cs[i]) (b := 0) as[i]
    rwa [UInt8.xor_zero, UInt8.xor_eq_zero_iff] at hzero
  · have hib : bs.length ≤ i := by omega
    have hic : cs.length ≤ i := by omega
    simp [getElem?_xor, List.getElem?_eq_none hib, List.getElem?_eq_none hic]
    omega

namespace Sm4

/-- Padding looks at what is behind the whole blocks. -/
theorem Padding.pad_append {front : Bytes} (h : front.length = blockLength) (rest : Bytes) :
    pad (front ++ rest) = front ++ pad rest := by
  have hfill : fill (front ++ rest).length = fill rest.length := by
    simp only [fill, List.length_append, h, blockLength]
    omega
  rw [pad, hfill, pad, List.append_assoc]

namespace Cbc

/-! ## 2. Chains under two IVs -/

/-- Two chains agree when they encipher the same block first and the same
blocks after it. -/
theorem chain_cons_inj {ks : List Word} {iv iv' b b' : Block} {bs bs' : List Block} :
    chain ks iv (b :: bs) = chain ks iv' (b' :: bs') ↔ b.xor iv = b'.xor iv' ∧ bs = bs' := by
  constructor
  · intro h
    obtain ⟨hfirst, hrest⟩ := List.cons.inj h
    refine ⟨encrypt_inj.mp hfirst, ?_⟩
    rw [← unchain_chain ks _ bs, hrest, hfirst, unchain_chain]
  · rintro ⟨hfirst, rfl⟩
    rw [chain, chain, hfirst]

/-- Texts are enciphered alike when their chains are alike. -/
theorem enciphered_inj {ks : List Word} {iv iv' text text' : Bytes} :
    enciphered ks iv text = enciphered ks iv' text'
      ↔ chain ks (Block.ofBytes iv) (blocksOf (Padding.pad text))
        = chain ks (Block.ofBytes iv') (blocksOf (Padding.pad text')) := by
  constructor
  · intro h
    rw [← blocksOf_flatMap_toBytes (chain ks (Block.ofBytes iv) _),
      ← blocksOf_flatMap_toBytes (chain ks (Block.ofBytes iv') _)]
    exact congrArg blocksOf h
  · exact congrArg (List.flatMap Block.toBytes)

section

variable {ks : List Word} {iv iv' : Bytes}

/-- A text has one ciphertext for each IV. -/
theorem iv_eq_of_enciphered (hiv : iv.length = blockLength) (hiv' : iv'.length = blockLength)
    {text : Bytes} (h : enciphered ks iv text = enciphered ks iv' text) : iv = iv' := by
  rw [enciphered_inj] at h
  cases hblocks : blocksOf (Padding.pad text) with
  | nil =>
    have hcount := length_blocksOf_pad text
    simp [hblocks] at hcount
  | cons b bs =>
    rw [hblocks, chain_cons_inj, Block.xor_right_inj, Block.ofBytes_inj hiv hiv'] at h
    exact h.left

/-- The ciphertext of a text that starts with a whole block is, under
another IV, that of the text with both IVs added to the block. -/
theorem enciphered_append (hiv : iv.length = blockLength) (hiv' : iv'.length = blockLength)
    {front : Bytes} (hfront : front.length = blockLength) (rest : Bytes) :
    enciphered ks iv (front ++ rest)
      = enciphered ks iv' (Bytes.xor front (Bytes.xor iv iv') ++ rest) := by
  have hivs : (Bytes.xor iv iv').length = blockLength := by
    rw [Bytes.length_xor, hiv, hiv', Nat.min_self]
  have hchanged : (Bytes.xor front (Bytes.xor iv iv')).length = blockLength := by
    rw [Bytes.length_xor, hfront, hivs, Nat.min_self]
  rw [enciphered_inj, Padding.pad_append hfront, Padding.pad_append hchanged,
    blocksOf_append _ hfront, blocksOf_append _ hchanged, chain_cons_inj]
  refine ⟨?_, rfl⟩
  rw [Block.ofBytes_xor hfront hivs, Block.ofBytes_xor hiv hiv', Block.xor_assoc, Block.xor_xor]

end

/-! ## 3. Byte strings -/

/-- Deciphering under another IV does not give the text; a text of a whole
block or more comes out changed where the IVs differ. -/
theorem decrypt_other_iv {key : Key} {iv iv' : Iv} {text : Bytes}
    (hkey : key.bytes.length = 16) (hiv : iv.bytes.length = 16) (hiv' : iv'.bytes.length = 16)
    (hother : iv' ≠ iv) (htext : text ≠ []) :
    ∃ ciphertext, encrypt key (some iv) text = .ok ciphertext
      ∧ decrypt key (some iv') ciphertext ≠ .ok text
      ∧ (16 ≤ text.length → ∃ changed, decrypt key (some iv') ciphertext = .ok changed
        ∧ changed.length = text.length
        ∧ ∀ i : Nat, changed[i]? = text[i]? ↔ iv.bytes[i]? = iv'.bytes[i]?) := by
  have hadmitted : iv'.bytes.length ∈ [blockLength] := List.mem_singleton.mpr hiv'
  have hne : enciphered key.rounds iv.bytes text ≠ [] :=
    Mode.enciphered_ne_nil .cbc key (some iv) text none
  have hdecrypt := decrypt_eq_ok_iff hkey hadmitted hne
  refine ⟨_, encrypt_eq hkey (List.mem_singleton.mpr hiv) htext, ?_, ?_⟩
  · intro h
    have hbytes := iv_eq_of_enciphered hiv hiv' ((hdecrypt text).mp h)
    cases iv
    cases iv'
    exact hother (congrArg Iv.mk hbytes.symm)
  · intro hlong
    have hfront : (text.take 16).length = blockLength := by
      rw [List.length_take, Nat.min_eq_left hlong, blockLength]
    have hivs : (Bytes.xor iv.bytes iv'.bytes).length = 16 := by
      rw [Bytes.length_xor, hiv, hiv', Nat.min_self]
    have hchanged : (Bytes.xor (text.take 16) (Bytes.xor iv.bytes iv'.bytes)).length = 16 := by
      rw [Bytes.length_xor, hfront, hivs, blockLength, Nat.min_self]
    have hcut := List.take_append_drop 16 text
    refine ⟨Bytes.xor (text.take 16) (Bytes.xor iv.bytes iv'.bytes) ++ text.drop 16,
      (hdecrypt _).mpr ?_, ?_, ?_⟩
    · rw [← enciphered_append hiv hiv' hfront, hcut]
    · rw [List.length_append, hchanged, List.length_drop]
      omega
    · intro i
      by_cases hi : i < 16
      · have hfirst : (text.take 16)[i]? = text[i]? := List.getElem?_take_of_lt hi
        rw [List.getElem?_append_left (by rw [hchanged]; exact hi), ← hfirst]
        exact Bytes.getElem?_xor_xor_eq_iff (hiv.trans hfront.symm) (hiv'.trans hfront.symm) i
      · have hlast : iv.bytes[i]? = iv'.bytes[i]? := by
          rw [List.getElem?_eq_none (by omega), List.getElem?_eq_none (by omega)]
        rw [List.getElem?_append_right (by omega), hchanged, List.getElem?_drop]
        simp only [hlast, iff_true]
        congr 1
        omega

end Cbc

/-- What is enciphered under an IV and deciphered to the same text is
deciphered under that IV. -/
theorem Mode.iv_eq_of_decrypt {key : Key} {iv iv' : Option Iv} {text ciphertext : Bytes}
    {aad aad' : Option Bytes} (hiv' : cbc.AdmitsIv iv') (htext : text ≠ [])
    (hencrypt : cbc.encrypt key iv text aad = .ok ciphertext)
    (hdecrypt : cbc.decrypt key iv' ciphertext aad' = .ok text) : iv' = iv := by
  obtain ⟨-, -, hrow⟩ := bind_eq_ok_iff.mp hencrypt
  obtain ⟨-, -, hrow'⟩ := bind_eq_ok_iff.mp hdecrypt
  obtain ⟨hkey, hiv⟩ := admitted_of_encryptRow htext hrow
  obtain ⟨hciphertext, -⟩ := (encryptRow_eq_ok_iff hkey hiv htext aad _).mp hrow
  have hne : ciphertext ≠ [] := by
    rw [hciphertext]
    exact enciphered_ne_nil cbc key iv text aad
  obtain ⟨hciphertext', -⟩ := (decryptRow_eq_ok_iff hkey hiv' hne aad' _).mp hrow'
  obtain ⟨v, rfl, hv⟩ := hiv
  obtain ⟨v', rfl, hv'⟩ := hiv'
  have hbytes : v'.bytes = v.bytes := Cbc.iv_eq_of_enciphered (List.mem_singleton.mp hv')
    (List.mem_singleton.mp hv) (hciphertext'.symm.trans hciphertext)
  exact congrArg (fun bytes => some (Iv.mk bytes)) hbytes

end Sm4

/-! ## 4. Texts -/

namespace Engine

variable {engine : Engine} {encoding : Encoding} {key text ciphertext : String}
  {iv iv' aad aad' : Option String}

/-- A text without a replacement character comes out of CBC under no other IV
than the one that it was enciphered under. -/
theorem sm4Decrypt_ne_of_other_iv (htext : text ≠ "") (hread : Utf8.replacement ∉ text.toList)
    (hother : (engine.sm4Iv .cbc key iv' encoding).result
      ≠ (engine.sm4Iv .cbc key iv encoding).result)
    (hciphertext : (engine.sm4Encrypt key text .cbc iv aad encoding).result = .ok ciphertext) :
    (engine.sm4Decrypt key ciphertext .cbc iv' aad' encoding).result ≠ .ok text := by
  intro hplaintext
  have hbytes : Utf8.encode text ≠ [] := fun hnil => htext (Utf8.encode_eq_nil_iff.mp hnil)
  rw [result_sm4Encrypt, if_neg htext] at hciphertext
  obtain ⟨⟨k, v⟩, hinputs, hciphertext⟩ := bind_eq_ok_iff.mp hciphertext
  obtain ⟨bytes, hencrypt, rfl⟩ := map_eq_ok_iff.mp hciphertext
  rw [result_sm4Decrypt] at hplaintext
  split at hplaintext
  · exact htext (Except.ok.inj hplaintext).symm
  obtain ⟨⟨k', v'⟩, hinputs', hplaintext⟩ := bind_eq_ok_iff.mp hplaintext
  rw [Encoding.decode_encode] at hplaintext
  obtain ⟨plain, hdecrypt, hplain⟩ := map_eq_ok_iff.mp hplaintext
  -- what was deciphered are the bytes of the text
  rw [Utf8.decodeLossy_eq_iff hread] at hplain
  subst hplain
  have hiv' := (admitted_of_sm4Inputs hinputs').right
  obtain ⟨hkey, hresolved⟩ := sm4Inputs_eq_ok_iff.mp hinputs
  obtain ⟨hkey', hresolved'⟩ := sm4Inputs_eq_ok_iff.mp hinputs'
  -- both calls have one key, so the IVs would be one
  obtain rfl := Except.ok.inj (hkey'.symm.trans hkey)
  have hsame := Sm4.Mode.iv_eq_of_decrypt hiv' hbytes (mapError_eq_ok_iff.mp hencrypt)
    (mapError_eq_ok_iff.mp hdecrypt)
  rw [hresolved, hresolved', hsame] at hother
  exact hother rfl

/-- CBC under the wrong IV never gives the text. Of byte strings of a block
or more it gives as many bytes, changed exactly where the IVs differ. A text
without a replacement character is not given by any IV argument that is not
resolved to the IV that the text was enciphered under. -/
theorem wrongIv_never_restores :
    (∀ (key : Sm4.Key) (iv iv' : Sm4.Iv) (text : Bytes), key.bytes.length = 16 →
      iv.bytes.length = 16 → iv'.bytes.length = 16 → iv' ≠ iv → text ≠ [] →
      ∃ ciphertext, Sm4.Cbc.encrypt key (some iv) text = .ok ciphertext
        ∧ Sm4.Cbc.decrypt key (some iv') ciphertext ≠ .ok text
        ∧ (16 ≤ text.length → ∃ changed, Sm4.Cbc.decrypt key (some iv') ciphertext = .ok changed
          ∧ changed.length = text.length
          ∧ ∀ i : Nat, changed[i]? = text[i]? ↔ iv.bytes[i]? = iv'.bytes[i]?)) ∧
    (∀ (engine : Engine) (key text ciphertext : String) (iv iv' aad aad' : Option String)
      (encoding : Encoding), text ≠ "" → '\uFFFD' ∉ text.toList →
      (engine.sm4Iv .cbc key iv' encoding).result
        ≠ (engine.sm4Iv .cbc key iv encoding).result →
      (engine.sm4Encrypt key text .cbc iv aad encoding).result = .ok ciphertext →
      (engine.sm4Decrypt key ciphertext .cbc iv' aad' encoding).result ≠ .ok text) :=
  ⟨fun _ _ _ _ => Sm4.Cbc.decrypt_other_iv, fun _ _ _ _ _ _ _ _ _ => sm4Decrypt_ne_of_other_iv⟩

/-- A text of less than a block under an IV written backwards, and sixteen
zeros under IVs that differ in the last byte. -/
theorem wrongIv_never_restores_backwards :
    (Engine.default.sm4Decrypt "0123456789abcdef" "WrhVUEAnFClpiqiTMfeMLQ==" .cbc
        (some "ponmlkjihgfedcba") none .base64).result ≠ .ok "é1380013800" ∧
    ∃ ciphertext changed,
      Sm4.Cbc.encrypt ⟨List.replicate 16 1⟩ (some ⟨List.replicate 16 2⟩) (List.replicate 16 0)
        = .ok ciphertext
      ∧ Sm4.Cbc.decrypt ⟨List.replicate 16 1⟩ (some ⟨List.replicate 15 2 ++ [3]⟩) ciphertext
        = .ok changed
      ∧ changed[14]? = some 0 ∧ changed[15]? ≠ some 0 := by
  constructor
  · exact wrongIv_never_restores.right _ _ _ _ (some "abcdefghijklmnop") _ none _ _ (by decide)
      (by decide) (by decide +kernel) (by decide +kernel)
  · obtain ⟨ciphertext, hciphertext, -, hlong⟩ := wrongIv_never_restores.left
      ⟨List.replicate 16 1⟩ ⟨List.replicate 16 2⟩ ⟨List.replicate 15 2 ++ [3]⟩
      (List.replicate 16 0) (by decide) (by decide) (by decide) (by decide) (by decide)
    obtain ⟨changed, hchanged, -, hdiffers⟩ := hlong (by decide)
    refine ⟨ciphertext, changed, hciphertext, hchanged, (hdiffers 14).mpr (by decide), ?_⟩
    exact fun h => absurd ((hdiffers 15).mp h) (by decide)

end Engine
end ColumnMasking
