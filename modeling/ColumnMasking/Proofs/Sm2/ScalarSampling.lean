/-
ColumnMasking.Proofs.Sm2.ScalarSampling — which scalar is drawn from a stream,
and what is left of the stream.

A stream is cut into blocks of 32 bytes. The scalar drawn is spelled by the
first block that spells one, and nothing behind that block is taken
(`Scalar.draw_of_first`). Where no block spells a scalar all of them are
taken, and none is drawn (`Scalar.draw_of_none`). One of the two holds of
every stream (`Entropy.exists_first_or_none`).

A draw looks at one block at a time, so all is proved along the stream: the
first block is the last one that is looked at, or the search goes on with the
stream behind it, where every block has moved forward by one.
-/
import ColumnMasking.Proofs.Sm2.KeyForms

namespace ColumnMasking

/-! ## 1. Blocks of a stream -/

namespace Entropy

variable {e : Entropy} {i : Nat}

/-- The block after `i` others, cut short where the stream ends. -/
def block (e : Entropy) (i : Nat) : Bytes := (e.bytes.drop (32 * i)).take 32

/-- The stream after `i` blocks. -/
def afterBlocks (e : Entropy) (i : Nat) : Entropy := ⟨e.bytes.drop (32 * i)⟩

/-- The stream holds all of the block after `i` others. -/
def HasBlock (e : Entropy) (i : Nat) : Prop := 32 * (i + 1) ≤ e.bytes.length

/-- The block after `i` others spells a scalar. -/
def ScalarBlock (e : Entropy) (i : Nat) : Prop :=
  1 ≤ Bytes.toNat (e.block i) ∧ Bytes.toNat (e.block i) ≤ Sm2.order - 1

instance (e : Entropy) (i : Nat) : Decidable (e.HasBlock i) :=
  inferInstanceAs (Decidable (_ ≤ _))

instance (e : Entropy) (i : Nat) : Decidable (e.ScalarBlock i) :=
  inferInstanceAs (Decidable (_ ∧ _))

/-- The block after `i` others is the first one that spells a scalar. -/
structure FirstScalar (e : Entropy) (i : Nat) : Prop where
  hasBlock : e.HasBlock i
  scalarBlock : e.ScalarBlock i
  before : ∀ j < i, ¬ e.ScalarBlock j

theorem length_block (h : e.HasBlock i) : (e.block i).length = 32 := by
  rw [block, List.length_take, List.length_drop]
  unfold HasBlock at h
  omega

/-- Behind the first block every other one has moved forward. -/
@[simp] theorem block_afterBlocks_one : (e.afterBlocks 1).block i = e.block (i + 1) := by
  rw [block, afterBlocks, block, List.drop_drop, Nat.mul_one, Nat.mul_add, Nat.mul_one,
    Nat.add_comm]

@[simp] theorem hasBlock_afterBlocks_one : (e.afterBlocks 1).HasBlock i ↔ e.HasBlock (i + 1) := by
  rw [HasBlock, HasBlock, afterBlocks, List.length_drop]
  omega

@[simp] theorem scalarBlock_afterBlocks_one :
    (e.afterBlocks 1).ScalarBlock i ↔ e.ScalarBlock (i + 1) := by
  rw [ScalarBlock, ScalarBlock, block_afterBlocks_one]

@[simp] theorem afterBlocks_afterBlocks_one :
    (e.afterBlocks 1).afterBlocks i = e.afterBlocks (i + 1) := by
  rw [afterBlocks, afterBlocks, afterBlocks, List.drop_drop, Nat.mul_one, Nat.mul_add,
    Nat.mul_one, Nat.add_comm]

/-- A stream has a first block that spells a scalar, or none of its blocks
does. -/
theorem exists_first_or_none (e : Entropy) :
    (∃ i, e.FirstScalar i) ∨ ∀ i, e.HasBlock i → ¬ e.ScalarBlock i := by
  by_cases hsome : ∃ i, e.HasBlock i ∧ e.ScalarBlock i
  · obtain ⟨i, ⟨hhas, hscalar⟩, hleast⟩ := Nat.findX hsome
    refine .inl ⟨i, hhas, hscalar, ?_⟩
    intro j hj hbefore
    have hshorter : e.HasBlock j := by
      unfold HasBlock at hhas ⊢
      omega
    exact hleast j hj ⟨hshorter, hbefore⟩
  · exact .inr fun i hhas hscalar => hsome ⟨i, hhas, hscalar⟩

end Entropy

/-! ## 2. One draw -/

namespace Sm2.Scalar

variable {e : Entropy} {i : Nat}

/-- A block that the stream holds is drawn and left behind. -/
theorem draw?_of_hasBlock (h : e.HasBlock 0) :
    e.draw? KeyMaterial.coordinateLength = some (e.block 0, e.afterBlocks 1) :=
  if_pos h

/-- The scalar that a block spells. -/
theorem exists_ofBytes?_iff (h : e.HasBlock i) :
    (∃ d, ofBytes? (e.block i) = some d) ↔ e.ScalarBlock i := by
  have hpos : 0 < order := by decide
  have hlength : (e.block i).length = KeyMaterial.coordinateLength := Entropy.length_block h
  rw [ofBytes?, if_pos hlength, exists_ofNat?_iff, Entropy.ScalarBlock]
  omega

/-- A first block that spells a scalar ends the search. -/
theorem draw_of_scalarBlock (hhas : e.HasBlock 0) {d : Scalar}
    (hd : ofBytes? (e.block 0) = some d) : draw e = (some d, e.afterBlocks 1) := by
  rw [draw]
  split
  · rename_i hnone
    rw [draw?_of_hasBlock hhas] at hnone
    simp at hnone
  · rename_i block rest hdrawn
    rw [draw?_of_hasBlock hhas] at hdrawn
    obtain ⟨rfl, rfl⟩ := Prod.mk.inj (Option.some.inj hdrawn)
    rw [hd]

/-- A first block that spells none is passed over. -/
theorem draw_of_not_scalarBlock (hhas : e.HasBlock 0) (hnot : ¬ e.ScalarBlock 0) :
    draw e = draw (e.afterBlocks 1) := by
  have hnone : ofBytes? (e.block 0) = none := by
    rw [Option.eq_none_iff_forall_ne_some]
    intro d hd
    exact hnot ((exists_ofBytes?_iff hhas).mp ⟨d, hd⟩)
  rw [draw]
  split
  · rename_i hempty
    rw [draw?_of_hasBlock hhas] at hempty
    simp at hempty
  · rename_i block rest hdrawn
    rw [draw?_of_hasBlock hhas] at hdrawn
    obtain ⟨rfl, rfl⟩ := Prod.mk.inj (Option.some.inj hdrawn)
    rw [hnone]

/-- Where no block is left there is no scalar. -/
theorem draw_of_not_hasBlock (h : ¬ e.HasBlock 0) : draw e = (none, e) := by
  have hnone : e.draw? KeyMaterial.coordinateLength = none := if_neg h
  rw [draw]
  split
  · rfl
  · rename_i block rest hdrawn
    rw [hnone] at hdrawn
    simp at hdrawn

/-! ## 3. The whole search -/

/-- The scalar drawn is the one that the first such block spells, and all that
is taken are the blocks up to it. -/
theorem draw_of_first (h : e.FirstScalar i) :
    ∃ d, ofBytes? (e.block i) = some d ∧ draw e = (some d, e.afterBlocks (i + 1)) := by
  induction i generalizing e with
  | zero =>
    obtain ⟨d, hd⟩ := (exists_ofBytes?_iff h.hasBlock).mpr h.scalarBlock
    exact ⟨d, hd, draw_of_scalarBlock h.hasBlock hd⟩
  | succ i ih =>
    have hhas : e.HasBlock 0 := by
      have hlong := h.hasBlock
      unfold Entropy.HasBlock at hlong ⊢
      omega
    have hmoved : (e.afterBlocks 1).FirstScalar i :=
      { hasBlock := Entropy.hasBlock_afterBlocks_one.mpr h.hasBlock
        scalarBlock := Entropy.scalarBlock_afterBlocks_one.mpr h.scalarBlock
        before := fun j hj hscalar =>
          h.before (j + 1) (Nat.succ_lt_succ hj) (Entropy.scalarBlock_afterBlocks_one.mp hscalar) }
    obtain ⟨d, hd, hdrawn⟩ := ih hmoved
    rw [Entropy.block_afterBlocks_one] at hd
    rw [Entropy.afterBlocks_afterBlocks_one] at hdrawn
    exact ⟨d, hd, (draw_of_not_scalarBlock hhas (h.before 0 i.succ_pos)).trans hdrawn⟩

/-- Where no block spells a scalar all blocks are taken. -/
theorem draw_of_none (h : ∀ i, e.HasBlock i → ¬ e.ScalarBlock i) :
    draw e = (none, e.afterBlocks (e.bytes.length / 32)) := by
  generalize hcount : e.bytes.length / 32 = count
  induction count generalizing e with
  | zero =>
    have hempty : ¬ e.HasBlock 0 := by
      unfold Entropy.HasBlock
      omega
    exact draw_of_not_hasBlock hempty
  | succ count ih =>
    have hhas : e.HasBlock 0 := by
      unfold Entropy.HasBlock
      omega
    have hrest : (e.afterBlocks 1).bytes.length / 32 = count := by
      rw [Entropy.afterBlocks, List.length_drop]
      omega
    have hmoved : ∀ i, (e.afterBlocks 1).HasBlock i → ¬ (e.afterBlocks 1).ScalarBlock i := by
      intro i
      rw [Entropy.hasBlock_afterBlocks_one, Entropy.scalarBlock_afterBlocks_one]
      exact h (i + 1)
    rw [draw_of_not_scalarBlock hhas (h 0 hhas), ih hmoved hrest,
      Entropy.afterBlocks_afterBlocks_one]

end Sm2.Scalar
end ColumnMasking
