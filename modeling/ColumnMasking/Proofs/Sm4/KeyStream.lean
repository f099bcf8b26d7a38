/-
ColumnMasking.Proofs.Sm4.KeyStream — the body of a GCM ciphertext is the text
under a key stream that the key and the nonce fix.

`streamByte` is the byte of the key stream at a position: the counter of its
block is enciphered, and no text is looked at. The key stream that covers a
text is made of these bytes, however long the text is and wherever its last
block ends (`getElem?_cover`). So two ciphertexts under one key and one nonce
give away the exclusive or of their texts, and the additional data changes
the tag alone (`body_under_keyStream`).
-/
import Mathlib.Logic.Function.Iterate
import ColumnMasking.Proofs.Sm4.ModeTheorems
import ColumnMasking.Proofs.Sm4.XoredBlocks

namespace ColumnMasking.Sm4.Gcm

/-! ## 1. The key stream by its bytes -/

/-- The byte of the key stream at a position. -/
def streamByte (ks : List Word) (counter : Block) (i : Nat) : UInt8 :=
  (Sm4.encrypt ks (increment^[i / 16 + 1] counter)).toBytes.getD (i % 16) 0

/-- After the first block the key stream goes on from the next counter. -/
theorem streamByte_add (ks : List Word) (counter : Block) (i : Nat) :
    streamByte ks counter (i + 16) = streamByte ks (increment counter) i := by
  have hblock : (i + 16) / 16 + 1 = i / 16 + 1 + 1 := by omega
  have hplace : (i + 16) % 16 = i % 16 := by omega
  rw [streamByte, hblock, hplace, Function.iterate_succ_apply, streamByte]

/-- The blocks of key stream have its bytes. -/
theorem getElem?_streamBlocks (ks : List Word) : ∀ (count : Nat) (counter : Block) (i : Nat),
    i < 16 * count → (streamBlocks ks counter count)[i]? = some (streamByte ks counter i)
  | 0, _, i, hi => by omega
  | count + 1, counter, i, hi => by
    rw [streamBlocks]
    by_cases hfirst : i < 16
    · have hblock : i / 16 = 0 := by omega
      have hplace : i % 16 = i := by omega
      rw [List.getElem?_append_left (by simpa using hfirst), streamByte, hblock, hplace]
      simp [List.getD_eq_getElem?_getD, hfirst]
    · obtain ⟨j, rfl⟩ : ∃ j, i = j + 16 := ⟨i - 16, by omega⟩
      have ih := getElem?_streamBlocks ks count (increment counter) j (by omega)
      rw [List.getElem?_append_right (by simp), Block.length_toBytes, Nat.add_sub_cancel, ih,
        streamByte_add]

/-- A text is covered with the key stream byte by byte. -/
theorem getElem?_cover (ks : List Word) (counter : Block) (text : Bytes) (i : Nat) :
    (cover ks counter text)[i]? = text[i]?.map (· ^^^ streamByte ks counter i) := by
  by_cases hi : i < text.length
  · have hstream : (stream ks counter text.length)[i]? = some (streamByte ks counter i) :=
      getElem?_streamBlocks ks _ counter i (by omega)
    rw [cover, Bytes.getElem?_xor, hstream, List.getElem?_eq_getElem hi]
    rfl
  · rw [List.getElem?_eq_none (by rw [length_cover]; omega), List.getElem?_eq_none (by omega)]
    rfl

/-- The exclusive or of two covered texts is that of the texts. -/
theorem xor_cover_cover (ks : List Word) (counter : Block) (text text' : Bytes) :
    Bytes.xor (cover ks counter text) (cover ks counter text') = Bytes.xor text text' := by
  refine List.ext_getElem? fun i => ?_
  simp only [Bytes.getElem?_xor, getElem?_cover]
  cases text[i]? with
  | none => rfl
  | some a =>
    cases text'[i]? with
    | none => rfl
    | some b =>
      have hcancel : (a ^^^ streamByte ks counter i) ^^^ (b ^^^ streamByte ks counter i)
          = a ^^^ b := by
        rw [UInt8.xor_comm b, ← UInt8.xor_assoc, UInt8.xor_assoc a, UInt8.xor_self,
          UInt8.xor_zero]
      simp [hcancel]

/-! ## 2. Ciphertexts -/

section Sealed

variable (ks : List Word) (nonce aad aad' : Bytes)

/-- Before the tag a sealed text has a byte of key stream on every byte. -/
theorem getElem?_sealed {text : Bytes} {i : Nat} (hi : i < text.length) :
    (sealed ks nonce aad text)[i]?
      = text[i]?.map (· ^^^ streamByte ks (firstCounter ks nonce) i) := by
  rw [← getElem?_cover, ← take_sealed ks nonce aad text, List.getElem?_take_of_lt hi]

/-- The bodies of two sealed texts differ as the texts do. -/
theorem take_xor_sealed (text text' : Bytes) :
    (Bytes.xor (sealed ks nonce aad text) (sealed ks nonce aad' text')).take
        (min text.length text'.length) = Bytes.xor text text' := by
  have hbody : ∀ aad text, ∀ count ≤ text.length, (sealed ks nonce aad text).take count
      = (cover ks (firstCounter ks nonce) text).take count := fun aad text count hcount => by
    rw [← take_sealed ks nonce aad text, List.take_take, Nat.min_eq_left hcount]
  have hlength : (Bytes.xor text text').length ≤ min text.length text'.length :=
    Nat.le_of_eq (Bytes.length_xor text text')
  rw [Bytes.xor, List.take_zipWith, hbody aad text _ (Nat.min_le_left ..),
    hbody aad' text' _ (Nat.min_le_right ..), ← List.take_zipWith]
  exact (congrArg _ (xor_cover_cover ..)).trans (List.take_of_length_le hlength)

end Sealed

/-- The body of a ciphertext is the text under a key stream that the key and
the nonce fix. A text within the limit is refused for additional data over
the limit alone; its ciphertext is a tag longer. Over the shorter of two
texts the ciphertexts differ as the texts do, whatever the additional data,
which no byte before the tag depends on; to leave it out is to leave it
empty. -/
theorem body_under_keyStream (key : Key) (nonce : Iv) (hkey : key.bytes.length = 16)
    (hnonce : nonce.bytes.length = 12 ∨ nonce.bytes.length = 16) :
    (∀ (text : Bytes) (aad : Option Bytes), text ≠ [] → text.length ≤ 2 ^ 36 →
      ((∃ ciphertext, encrypt key (some nonce) text aad = .ok ciphertext)
        ↔ (aad.getD []).length ≤ 2 ^ 36)) ∧
    (∃ stream : Nat → UInt8, ∀ (text : Bytes) (aad : Option Bytes) (ciphertext : Bytes),
      text ≠ [] → encrypt key (some nonce) text aad = .ok ciphertext →
      ciphertext.length = text.length + 16
        ∧ ∀ i < text.length, ciphertext[i]? = text[i]?.map (· ^^^ stream i)) ∧
    (∀ (text text' : Bytes) (aad aad' : Option Bytes) (ciphertext ciphertext' : Bytes),
      text ≠ [] → text' ≠ [] → encrypt key (some nonce) text aad = .ok ciphertext →
      encrypt key (some nonce) text' aad' = .ok ciphertext' →
      (Bytes.xor ciphertext ciphertext').take (min text.length text'.length)
        = Bytes.xor text text') ∧
    (∀ (text : Bytes) (aad aad' : Option Bytes) (ciphertext ciphertext' : Bytes),
      encrypt key (some nonce) text aad = .ok ciphertext →
      encrypt key (some nonce) text aad' = .ok ciphertext' →
      ciphertext.take text.length = ciphertext'.take text.length) ∧
    ∀ text : Bytes, encrypt key (some nonce) text none = encrypt key (some nonce) text (some []) := by
  have hlengths : nonce.bytes.length ∈ Iv.nonceLengths := by
    simpa [Iv.nonceLengths, KeyMaterial.nonceLength, blockLength] using hnonce
  have hmost : maxLength = 2 ^ 36 := rfl
  have hiff := fun {text : Bytes} (htext : text ≠ []) => encrypt_eq_ok_iff hkey hlengths htext
  refine ⟨?limits, ⟨streamByte key.rounds (firstCounter key.rounds nonce.bytes), ?bytes⟩, ?texts,
    ?aads, fun _ => rfl⟩
  case limits =>
    intro text aad htext hlength
    rw [← hmost] at hlength ⊢
    constructor
    · rintro ⟨ciphertext, h⟩
      exact ((hiff htext aad ciphertext).mp h).right.right
    · exact fun haad => ⟨_, (hiff htext aad _).mpr ⟨rfl, hlength, haad⟩⟩
  case bytes =>
    intro text aad ciphertext htext h
    obtain ⟨rfl, -⟩ := (hiff htext aad ciphertext).mp h
    exact ⟨length_sealed .., fun i hi => getElem?_sealed _ _ _ hi⟩
  case texts =>
    intro text text' aad aad' ciphertext ciphertext' htext htext' h h'
    obtain ⟨rfl, -⟩ := (hiff htext aad ciphertext).mp h
    obtain ⟨rfl, -⟩ := (hiff htext' aad' ciphertext').mp h'
    exact take_xor_sealed ..
  case aads =>
    intro text aad aad' ciphertext ciphertext' h h'
    by_cases htext : text = []
    · simp [htext]
    · obtain ⟨rfl, -⟩ := (hiff htext aad ciphertext).mp h
      obtain ⟨rfl, -⟩ := (hiff htext aad' ciphertext').mp h'
      rw [take_sealed, take_sealed]

/-- Two texts under a nonce of sixteen bytes, without and with additional
data. -/
theorem body_under_keyStream_letters : ∃ ciphertext ciphertext',
    encrypt ⟨List.replicate 16 1⟩ (some ⟨List.replicate 16 2⟩) [97] none = .ok ciphertext
      ∧ encrypt ⟨List.replicate 16 1⟩ (some ⟨List.replicate 16 2⟩) [98, 97] (some [99])
        = .ok ciphertext'
      ∧ (Bytes.xor ciphertext ciphertext').take 1 = [3] := by
  obtain ⟨hlimits, -, htexts, -⟩ := body_under_keyStream
    ⟨List.replicate 16 1⟩ ⟨List.replicate 16 2⟩ (by decide) (by decide)
  obtain ⟨ciphertext, h⟩ := (hlimits [97] none (by decide) (by decide)).mpr (by decide)
  obtain ⟨ciphertext', h'⟩ := (hlimits [98, 97] (some [99]) (by decide) (by decide)).mpr (by decide)
  exact ⟨ciphertext, ciphertext', h, h', htexts _ _ _ _ _ _ (by decide) (by decide) h h'⟩

end ColumnMasking.Sm4.Gcm
