/-
ColumnMasking.Proofs.Sm4.BlockTexts — texts of whole blocks are the same
thing as lists of blocks, and padded texts are exactly the texts of whole
blocks that the padding comes off.

`blocksOf_flatMap_toBytes` and `flatMap_toBytes_blocksOf` are the two
directions of the first statement (texts of whole blocks have an induction
of their own, `wholeBlocks_induction`), `Padding.unpad?_eq_some_iff` is the
second. Together they give `unpad?_eq_some_iff_of_inverse`: a
transformation of block lists that has an inverse leads from padded texts
to all texts of whole blocks and back. ECB and CBC differ in nothing but
that transformation.
-/
import ColumnMasking.Sm4.Cbc
import ColumnMasking.Proofs.NumberBytes

namespace ColumnMasking.Sm4

/-! ## 1. A single block -/

namespace Block

/-- A block is read back from its bytes. -/
@[simp] theorem ofBytes_toBytes (b : Block) : ofBytes b.toBytes = b := by
  have hdrop : ∀ (w : Word) {k : Nat}, 4 ≤ k → w.toBytes.drop k = [] := fun w k hk =>
    List.drop_eq_nil_of_le (by rw [Word.length_toBytes]; exact hk)
  have htake : ∀ w : Word, w.toBytes.take 4 = w.toBytes := fun w =>
    List.take_of_length_le (Nat.le_of_eq (Word.length_toBytes w))
  cases b with
  | mk w0 w1 w2 w3 =>
    simp [ofBytes, toBytes, List.drop_append, htake, hdrop w0 (k := 8) (by omega),
      hdrop w0 (k := 12) (by omega), hdrop w1 (k := 8) (by omega)]

/-- Sixteen bytes are written back from their block. -/
theorem toBytes_ofBytes {bs : Bytes} (h : bs.length = blockLength) :
    (ofBytes bs).toBytes = bs := by
  have hlen : bs.length = 16 := h
  have h0 : (bs.take 4).length = 4 := by simp [hlen]
  have h1 : ((bs.drop 4).take 4).length = 4 := by simp [hlen]
  have h2 : ((bs.drop 8).take 4).length = 4 := by simp [hlen]
  have h3 : ((bs.drop 12).take 4).length = 4 := by simp [hlen]
  simp only [ofBytes, toBytes, Word.toBytes_ofBytes h0, Word.toBytes_ofBytes h1,
    Word.toBytes_ofBytes h2, Word.toBytes_ofBytes h3]
  have hlast : (bs.drop 12).take 4 = bs.drop 12 := List.take_of_length_le (by simp [hlen])
  have hcut : ∀ k, (bs.drop k).take 4 ++ bs.drop (k + 4) = bs.drop k := fun k => by
    rw [← List.drop_drop, List.take_append_drop]
  rw [hlast, List.append_assoc, List.append_assoc, hcut 8, hcut 4, List.take_append_drop]

/-- Adding the same block twice changes nothing. -/
@[simp] theorem xor_xor (a b : Block) : (a.xor b).xor b = a := by
  cases a with
  | mk a0 a1 a2 a3 =>
    cases b with
    | mk b0 b1 b2 b3 => simp only [Block.xor, UInt32.xor_assoc, UInt32.xor_self, UInt32.xor_zero]

end Block

/-- Under one key different blocks are enciphered differently. -/
theorem encrypt_inj {ks : List Word} {b b' : Block} : encrypt ks b = encrypt ks b' ↔ b = b' := by
  constructor
  · intro h
    rw [← decrypt_encrypt ks b, h, decrypt_encrypt]
  · exact congrArg (encrypt ks)

/-! ## 2. Lists of blocks -/

/-- A list of blocks is written as a whole number of blocks. -/
theorem length_flatMap_toBytes (bs : List Block) :
    (bs.flatMap Block.toBytes).length = 16 * bs.length := by
  induction bs with
  | nil => rfl
  | cons b bs ih =>
    rw [List.flatMap_cons, List.length_append, ih, Block.length_toBytes, List.length_cons]
    omega

/-- The blocks of a text that starts with a block. -/
theorem blocksOf_append {front : Bytes} (rest : Bytes) (h : front.length = blockLength) :
    blocksOf (front ++ rest) = Block.ofBytes front :: blocksOf rest := by
  rw [blocksOf, Bytes.chunks_append rest (by decide) h, List.map_cons, blocksOf]

/-- The empty text has no blocks. -/
@[simp] theorem blocksOf_nil : blocksOf [] = [] := by
  rw [blocksOf, Bytes.chunks_nil, List.map_nil]

/-- A list of blocks is read back from its bytes. -/
theorem blocksOf_flatMap_toBytes (bs : List Block) : blocksOf (bs.flatMap Block.toBytes) = bs := by
  induction bs with
  | nil => simp
  | cons b bs ih =>
    rw [List.flatMap_cons, blocksOf_append _ (Block.length_toBytes b), ih, Block.ofBytes_toBytes]

/-- What holds of the empty text, and of a text that gets a block in front,
holds of every text of whole blocks. -/
theorem wholeBlocks_induction {motive : Bytes → Prop} (nil : motive [])
    (append : ∀ front rest, front.length = blockLength → motive rest → motive (front ++ rest)) :
    ∀ (count : Nat) {text : Bytes}, text.length = 16 * count → motive text
  | 0, text, h => by
    obtain rfl := List.eq_nil_of_length_eq_zero h
    exact nil
  | count + 1, text, h => by
    have hfront : (text.take 16).length = blockLength := by
      rw [List.length_take, blockLength]
      omega
    have hrest : (text.drop 16).length = 16 * count := by
      rw [List.length_drop, h]
      omega
    rw [← List.take_append_drop 16 text]
    exact append _ _ hfront (wholeBlocks_induction nil append count hrest)

/-- A text of whole blocks is written back from its blocks. -/
theorem flatMap_toBytes_blocksOf (count : Nat) {text : Bytes} (h : text.length = 16 * count) :
    (blocksOf text).flatMap Block.toBytes = text := by
  refine wholeBlocks_induction (motive := fun text => (blocksOf text).flatMap Block.toBytes = text)
    ?nil ?append count h
  case nil => simp
  case append =>
    intro front rest hfront ih
    rw [blocksOf_append _ hfront, List.flatMap_cons, ih, Block.toBytes_ofBytes hfront]

/-! ## 3. Padding -/

namespace Padding

/-- What comes off is padding: the text and its padding make up the whole. -/
theorem eq_append_of_unpad? {padded text : Bytes} (h : unpad? padded = some text) :
    ∃ count, 0 < count ∧ count ≤ blockLength
      ∧ padded = text ++ List.replicate count (UInt8.ofNat count) := by
  unfold unpad? at h
  split at h
  · simp at h
  · rename_i last hlast
    simp only at h
    split at h
    · rename_i hform
      obtain ⟨hpos, hle, hpadded⟩ := hform
      simp only [Option.some.injEq] at h
      refine ⟨last.toNat, hpos, hle, ?_⟩
      rw [UInt8.ofNat_toNat, ← h]
      exact hpadded
    · simp at h

/-- Of a text of whole blocks the padding comes off exactly when it is
the padding of what is left. -/
theorem unpad?_eq_some_iff {padded text : Bytes} (h : padded.length % blockLength = 0) :
    unpad? padded = some text ↔ padded = pad text := by
  constructor
  · intro hunpad
    obtain ⟨count, hpos, hle, rfl⟩ := eq_append_of_unpad? hunpad
    -- the count is the one that fills up the last block
    have hfill : fill text.length = count := by
      simp only [List.length_append, List.length_replicate, blockLength] at h hle
      simp only [fill, blockLength]
      omega
    rw [pad, hfill]
  · rintro rfl
    exact unpad?_pad text

end Padding

/-! ## 4. Transformations of block lists -/

/-- A padded text is a whole number of blocks. -/
theorem flatMap_toBytes_blocksOf_pad (text : Bytes) :
    (blocksOf (Padding.pad text)).flatMap Block.toBytes = Padding.pad text :=
  flatMap_toBytes_blocksOf _ (Padding.length_pad text)

/-- Where `forward` and `back` undo each other, the padding comes off a
text sent back exactly when the text is a padded one sent forward. -/
theorem unpad?_eq_some_iff_of_inverse (forward back : List Block → List Block)
    (hback : ∀ bs, back (forward bs) = bs) (hforward : ∀ bs, forward (back bs) = bs)
    {ciphertext : Bytes} (haligned : ciphertext.length % blockLength = 0) (text : Bytes) :
    Padding.unpad? ((back (blocksOf ciphertext)).flatMap Block.toBytes) = some text
      ↔ ciphertext = (forward (blocksOf (Padding.pad text))).flatMap Block.toBytes := by
  have hlength : ((back (blocksOf ciphertext)).flatMap Block.toBytes).length % blockLength = 0 := by
    rw [length_flatMap_toBytes, blockLength]
    omega
  have hcount : ciphertext.length = 16 * (ciphertext.length / 16) := by
    rw [blockLength] at haligned
    omega
  rw [Padding.unpad?_eq_some_iff hlength]
  constructor
  · intro h
    rw [← h, blocksOf_flatMap_toBytes, hforward, flatMap_toBytes_blocksOf _ hcount]
  · rintro rfl
    rw [blocksOf_flatMap_toBytes, hback, flatMap_toBytes_blocksOf_pad]

end ColumnMasking.Sm4
