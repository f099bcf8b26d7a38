/-
ColumnMasking.Proofs.Sm4.BlockPositions — what ECB and CBC do to the block at
a position.

Both modes go through the blocks of the padded text in order, so a block of
ciphertext is the enciphered form of the block at its position: of that block
alone in ECB (`Ecb.blockAt_enciphered`), of that block added to the block of
ciphertext before it in CBC (`Cbc.blockAt_enciphered`). The recursion of CBC
runs on the block enciphered last, which a position does not show;
`Cbc.chain_eq_zipWith` says it with the chain itself, set off by one. A block
of CBC is therefore the first block that ECB makes of one block of text, and
`blocks_of_ciphertexts` compares the modes block by block.
-/
import ColumnMasking.Proofs.Sm4.AcceptedCiphertexts
import ColumnMasking.Proofs.Sm4.XoredBlocks

namespace ColumnMasking.Sm4

/-! ## 1. Positions -/

/-- The block of a text at a position. -/
def blockAt (i : Nat) (text : Bytes) : Bytes :=
  (text.drop (16 * i)).take 16

section Front

variable {front : Bytes} (h : front.length = 16) (rest : Bytes)

include h

theorem blockAt_zero_append : blockAt 0 (front ++ rest) = front :=
  List.take_left' h

theorem blockAt_succ_append (i : Nat) : blockAt (i + 1) (front ++ rest) = blockAt i rest := by
  have hfront : front.length ≤ 16 * (i + 1) := by omega
  rw [blockAt, List.drop_append, List.drop_eq_nil_of_le hfront, List.nil_append, blockAt]
  congr 2
  omega

/-- Sixteen bytes are their own first block. -/
theorem blockAt_zero : blockAt 0 front = front :=
  List.take_of_length_le (Nat.le_of_eq h)

end Front

/-- A block has sixteen bytes. -/
theorem length_blockAt {text : Bytes} {i : Nat} (h : 16 * (i + 1) ≤ text.length) :
    (blockAt i text).length = 16 := by
  rw [blockAt, List.length_take, List.length_drop]
  omega

/-- The blocks of a list stand at their positions. -/
theorem blockAt_flatMap_toBytes {bs : List Block} {i : Nat} {b : Block} (h : bs[i]? = some b) :
    blockAt i (bs.flatMap Block.toBytes) = b.toBytes := by
  induction bs generalizing i with
  | nil => simp at h
  | cons first bs ih =>
    rw [List.flatMap_cons]
    cases i with
    | zero =>
      obtain rfl : first = b := by simpa using h
      exact blockAt_zero_append (Block.length_toBytes first) _
    | succ i =>
      rw [blockAt_succ_append (Block.length_toBytes first)]
      exact ih (by simpa using h)

/-- Padding stands behind the whole blocks. -/
theorem blockAt_pad {text : Bytes} {i : Nat} (h : 16 * (i + 1) ≤ text.length) :
    blockAt i (Padding.pad text) = blockAt i text := by
  have hlong : 16 ≤ (text.drop (16 * i)).length := by
    rw [List.length_drop]
    omega
  rw [blockAt, Padding.pad, List.drop_append_of_le_length (by omega),
    List.take_append_of_le_length hlong, blockAt]

/-- The padded text has a block at each position up to that of the padding. -/
theorem length_blockAt_pad {text : Bytes} {i : Nat} (h : i ≤ text.length / 16) :
    (blockAt i (Padding.pad text)).length = 16 :=
  length_blockAt (by rw [Padding.length_pad]; omega)

/-- The blocks of a padded text stand at their positions. -/
theorem getElem?_blocksOf_pad {text : Bytes} {i : Nat} (h : i ≤ text.length / 16) :
    ∃ b, (blocksOf (Padding.pad text))[i]? = some b
      ∧ blockAt i (Padding.pad text) = b.toBytes := by
  have hi : i < (blocksOf (Padding.pad text)).length := by
    rw [length_blocksOf_pad]
    omega
  have hb := List.getElem?_eq_getElem hi
  have hat := blockAt_flatMap_toBytes hb
  rw [flatMap_toBytes_blocksOf_pad] at hat
  exact ⟨_, hb, hat⟩

/-! ## 2. ECB -/

/-- The block of ciphertext at a position is that of the text, enciphered. -/
theorem Ecb.blockAt_enciphered (ks : List Word) {text : Bytes} {i : Nat}
    (h : i ≤ text.length / 16) : blockAt i (enciphered ks text)
      = (Sm4.encrypt ks (Block.ofBytes (blockAt i (Padding.pad text)))).toBytes := by
  obtain ⟨b, hb, hat⟩ := getElem?_blocksOf_pad h
  rw [hat, Block.ofBytes_toBytes, enciphered]
  exact blockAt_flatMap_toBytes (by rw [List.getElem?_map, hb, Option.map_some])

/-- Of sixteen bytes the first block of ciphertext is their block,
enciphered. -/
theorem Ecb.blockAt_zero_enciphered (ks : List Word) {text : Bytes} (h : text.length = 16) :
    blockAt 0 (enciphered ks text) = (Sm4.encrypt ks (Block.ofBytes text)).toBytes := by
  rw [blockAt_enciphered ks (Nat.zero_le _), blockAt_pad (by omega), blockAt_zero h]

/-- Blocks are enciphered alike when they are alike. -/
theorem Ecb.blockAt_enciphered_inj (ks : List Word) {text text' : Bytes} {i j : Nat}
    (h : 16 * (i + 1) ≤ text.length) (h' : 16 * (j + 1) ≤ text'.length) :
    blockAt i (enciphered ks text) = blockAt j (enciphered ks text')
      ↔ blockAt i text = blockAt j text' := by
  rw [blockAt_enciphered ks (by omega), blockAt_enciphered ks (by omega), blockAt_pad h,
    blockAt_pad h', Block.toBytes_inj, encrypt_inj,
    Block.ofBytes_inj (length_blockAt h) (length_blockAt h')]

/-! ## 3. CBC -/

namespace Cbc

/-- Each block of a chain is that of the text, added to the one before it in
the chain and enciphered. -/
theorem chain_eq_zipWith (ks : List Word) : ∀ (previous : Block) (bs : List Block),
    chain ks previous bs
      = List.zipWith (fun b c => Sm4.encrypt ks (b.xor c)) bs (previous :: chain ks previous bs)
  | _, [] => rfl
  | previous, b :: bs =>
    congrArg (Sm4.encrypt ks (b.xor previous) :: ·)
      (chain_eq_zipWith ks (Sm4.encrypt ks (b.xor previous)) bs)

/-- What is enciphered at a position: the block of the padded text, added to
the block of ciphertext before it, or to the IV. -/
def inputAt (i : Nat) (iv text ciphertext : Bytes) : Bytes :=
  Bytes.xor (blockAt i (Padding.pad text)) (if i = 0 then iv else blockAt (i - 1) ciphertext)

section

variable {ks : List Word} {iv text : Bytes} {i : Nat}

/-- What is enciphered at a position is a block. -/
theorem length_inputAt (hiv : iv.length = 16) (h : i ≤ text.length / 16) :
    (inputAt i iv text (enciphered ks iv text)).length = 16 := by
  rw [inputAt, Bytes.length_xor, length_blockAt_pad h]
  split
  · rw [hiv, Nat.min_self]
  · rw [length_blockAt (by rw [length_enciphered]; omega), Nat.min_self]

/-- The block of ciphertext at a position is what is enciphered there. -/
theorem blockAt_enciphered (hiv : iv.length = 16) (h : i ≤ text.length / 16) :
    blockAt i (enciphered ks iv text) = (Sm4.encrypt ks (Block.ofBytes
      (inputAt i iv text (enciphered ks iv text)))).toBytes := by
  obtain ⟨b, hb, hat⟩ := getElem?_blocksOf_pad h
  -- the block before it, with the IV before all of them
  have hbefore : ∃ c, (Block.ofBytes iv ::
        chain ks (Block.ofBytes iv) (blocksOf (Padding.pad text)))[i]? = some c
      ∧ (if i = 0 then iv else blockAt (i - 1) (enciphered ks iv text)) = c.toBytes := by
    cases i with
    | zero => exact ⟨_, rfl, (Block.toBytes_ofBytes hiv).symm⟩
    | succ i =>
      have hi : i < (chain ks (Block.ofBytes iv) (blocksOf (Padding.pad text))).length := by
        rw [length_chain, length_blocksOf_pad]
        omega
      exact ⟨_, List.getElem?_eq_getElem hi,
        blockAt_flatMap_toBytes (List.getElem?_eq_getElem hi)⟩
  obtain ⟨c, hc, hbytes⟩ := hbefore
  rw [inputAt, hat, hbytes, ← Block.toBytes_xor, Block.ofBytes_toBytes]
  refine blockAt_flatMap_toBytes ?_
  rw [chain_eq_zipWith, List.getElem?_zipWith, hb, hc]

/-- A block of CBC is the first block that ECB makes of what is enciphered at
its position. -/
theorem blockAt_enciphered_eq_ecb (hiv : iv.length = 16) (h : i ≤ text.length / 16) :
    blockAt i (enciphered ks iv text)
      = blockAt 0 (Ecb.enciphered ks (inputAt i iv text (enciphered ks iv text))) := by
  rw [blockAt_enciphered hiv h, Ecb.blockAt_zero_enciphered ks (length_inputAt hiv h)]

/-- The first block under the zero IV is that of ECB. -/
theorem blockAt_zero_enciphered_zeros :
    blockAt 0 (enciphered ks (List.replicate 16 0) text) = blockAt 0 (Ecb.enciphered ks text) := by
  have hblock : (blockAt 0 (Padding.pad text)).length = 16 := length_blockAt_pad (Nat.zero_le _)
  have hinput : inputAt 0 (List.replicate 16 0) text
      (enciphered ks (List.replicate 16 0) text) = blockAt 0 (Padding.pad text) := by
    rw [inputAt, if_pos rfl, ← hblock, Bytes.xor_zeros]
  rw [blockAt_enciphered List.length_replicate (Nat.zero_le _), hinput,
    Ecb.blockAt_enciphered ks (Nat.zero_le _)]

end

end Cbc

/-! ## 4. Ciphertexts -/

/-- Both modes give as many blocks as the padded text has. Under ECB, which
looks at no IV and at no additional data, whole blocks at any two positions of
any two texts give the same block exactly when they are the same. Under CBC a
block is the first one that ECB makes of the block of the padded text at its
position, added to the block of ciphertext before it; the first one is added
to the IV, which makes no difference when it is zero. -/
theorem blocks_of_ciphertexts (key : Key) (hkey : key.bytes.length = 16) :
    (∀ (text : Bytes) (iv : Option Iv) (aad : Option Bytes), text ≠ [] →
      ∃ ciphertext, Mode.ecb.encryptRow key iv text aad = .ok ciphertext
        ∧ ciphertext.length = 16 * (text.length / 16 + 1)) ∧
    (∀ (text : Bytes) (iv : Iv) (aad : Option Bytes), text ≠ [] → iv.bytes.length = 16 →
      ∃ ciphertext, Mode.cbc.encryptRow key (some iv) text aad = .ok ciphertext
        ∧ ciphertext.length = 16 * (text.length / 16 + 1)) ∧
    (∀ (text : Bytes) (iv iv' : Option Iv) (aad aad' : Option Bytes),
      Mode.ecb.encryptRow key iv text aad = Mode.ecb.encryptRow key iv' text aad') ∧
    (∀ (text text' ciphertext ciphertext' : Bytes) (iv iv' : Option Iv) (aad aad' : Option Bytes)
      (i j : Nat), Mode.ecb.encryptRow key iv text aad = .ok ciphertext →
      Mode.ecb.encryptRow key iv' text' aad' = .ok ciphertext' →
      16 * (i + 1) ≤ text.length → 16 * (j + 1) ≤ text'.length →
      (blockAt i ciphertext = blockAt j ciphertext' ↔ blockAt i text = blockAt j text')) ∧
    (∀ (text ciphertext : Bytes) (iv : Iv) (aad : Option Bytes), text ≠ [] →
      iv.bytes.length = 16 → Mode.cbc.encryptRow key (some iv) text aad = .ok ciphertext →
      ∀ i ≤ text.length / 16, ∃ first,
        Mode.ecb.encryptRow key none (Cbc.inputAt i iv.bytes text ciphertext) none = .ok first
        ∧ blockAt i ciphertext = blockAt 0 first) ∧
    ∀ (text ciphertext ciphertext' : Bytes) (iv : Option Iv) (aad aad' : Option Bytes),
      text ≠ [] → Mode.cbc.encryptRow key (some ⟨List.replicate 16 0⟩) text aad = .ok ciphertext →
      Mode.ecb.encryptRow key iv text aad' = .ok ciphertext' →
      blockAt 0 ciphertext = blockAt 0 ciphertext' := by
  have hecb : ∀ {text : Bytes} {iv : Option Iv} {aad : Option Bytes}, text ≠ [] →
      Mode.ecb.encryptRow key iv text aad = .ok (Ecb.enciphered key.rounds text) :=
    fun htext => Ecb.encrypt_eq hkey htext
  have hcbc : ∀ {text : Bytes} {iv : Iv} {aad : Option Bytes}, iv.bytes.length = 16 →
      text ≠ [] → Mode.cbc.encryptRow key (some iv) text aad
        = .ok (Cbc.enciphered key.rounds iv.bytes text) :=
    fun hiv htext => Cbc.encrypt_eq hkey (List.mem_singleton.mpr hiv) htext
  refine ⟨?ecbLength, ?cbcLength, fun _ _ _ _ _ => rfl, ?equalBlocks, ?chained, ?zeroIv⟩
  case ecbLength =>
    exact fun text iv aad htext => ⟨_, hecb htext, Mode.length_enciphered .ecb key iv text aad⟩
  case cbcLength =>
    exact fun text iv aad htext hiv => ⟨_, hcbc hiv htext, Cbc.length_enciphered ..⟩
  case equalBlocks =>
    intro text text' ciphertext ciphertext' iv iv' aad aad' i j h h' hi hj
    have htext : text ≠ [] := List.ne_nil_of_length_pos (by omega)
    have htext' : text' ≠ [] := List.ne_nil_of_length_pos (by omega)
    rw [hecb htext, Except.ok.injEq] at h
    rw [hecb htext', Except.ok.injEq] at h'
    rw [← h, ← h', Ecb.blockAt_enciphered_inj key.rounds hi hj]
  case chained =>
    intro text ciphertext iv aad htext hiv h i hi
    rw [hcbc hiv htext, Except.ok.injEq] at h
    subst h
    have hinput : (Cbc.inputAt i iv.bytes text
        (Cbc.enciphered key.rounds iv.bytes text)).length = 16 := Cbc.length_inputAt hiv hi
    have hne := List.ne_nil_of_length_eq_add_one hinput
    exact ⟨_, hecb hne, Cbc.blockAt_enciphered_eq_ecb hiv hi⟩
  case zeroIv =>
    intro text ciphertext ciphertext' iv aad aad' htext h h'
    rw [hcbc List.length_replicate htext, Except.ok.injEq] at h
    rw [hecb htext, Except.ok.injEq] at h'
    rw [← h, ← h', Cbc.blockAt_zero_enciphered_zeros]

/-- Two equal blocks of text, and the zero IV. -/
theorem blocks_of_ciphertexts_zeros : ∃ ciphertext chained,
    Mode.ecb.encryptRow ⟨List.replicate 16 1⟩ none (List.replicate 32 0) none = .ok ciphertext
      ∧ Mode.cbc.encryptRow ⟨List.replicate 16 1⟩ (some ⟨List.replicate 16 0⟩)
        (List.replicate 32 0) none = .ok chained
      ∧ ciphertext.length = 48
      ∧ blockAt 0 ciphertext = blockAt 1 ciphertext
      ∧ blockAt 0 chained = blockAt 0 ciphertext := by
  obtain ⟨hecb, hcbc, -, hequal, -, hzeroIv⟩ :=
    blocks_of_ciphertexts ⟨List.replicate 16 1⟩ (by decide)
  obtain ⟨ciphertext, h, hlength⟩ := hecb (List.replicate 32 0) none none (by decide)
  obtain ⟨chained, hchained, -⟩ :=
    hcbc (List.replicate 32 0) ⟨List.replicate 16 0⟩ none (by decide) (by decide)
  refine ⟨ciphertext, chained, h, hchained, hlength, ?_, ?_⟩
  · exact (hequal _ _ _ _ none none none none 0 1 h h (by decide) (by decide)).mpr (by decide)
  · exact hzeroIv _ _ _ none none none (by decide) hchained h

end ColumnMasking.Sm4
