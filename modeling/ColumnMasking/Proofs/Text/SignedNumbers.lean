/-
ColumnMasking.Proofs.Text.SignedNumbers — which characters spell a whole number
of 32 bits.

`Spells` says what a number looks like: digits, of which there has to be one, and
a sign before them that may be left out. The number is that of the digits to the
base ten, so that it is a number of any size and zeros in front do not change it.
`int32?_eq_some_iff` says that the reader takes these and no others, and of these
the ones that 32 bits with a sign can hold. A number that is too large is refused
for what it is, not for the digits that it has.
-/
import Mathlib.Data.List.Induction
import Mathlib.Data.Nat.Digits.Lemmas
import ColumnMasking.Text.Integer

namespace ColumnMasking.Integer

/-- The number of decimal digits, the last one of which counts ones. -/
def number (digits : List Char) : Nat :=
  Nat.ofDigits 10 (digits.reverse.map fun c => c.toNat - '0'.toNat)

/-- The characters are digits, with a sign before them or without one, and the
number is the one that they spell. -/
inductive Spells : List Char → Int → Prop
  | plain {digits : List Char} (hne : digits ≠ []) (hdigits : ∀ c ∈ digits, c.isDigit = true) :
      Spells digits (number digits)
  | plus {digits : List Char} (hne : digits ≠ []) (hdigits : ∀ c ∈ digits, c.isDigit = true) :
      Spells ('+' :: digits) (number digits)
  | minus {digits : List Char} (hne : digits ≠ []) (hdigits : ∀ c ∈ digits, c.isDigit = true) :
      Spells ('-' :: digits) (-number digits)

/-! ## 1. Digits -/

/-- Adding up digits from the front gives their number. -/
theorem foldl_eq_number (digits : List Char) :
    digits.foldl (fun n c => 10 * n + (c.toNat - 0x30)) 0 = number digits := by
  induction digits using List.reverseRecOn with
  | nil => rfl
  | append_singleton digits c ih =>
    rw [List.foldl_concat, ih, number, number, List.reverse_concat, List.map_cons,
      Nat.ofDigits_cons, Nat.add_comm]
    rfl

theorem natural?_eq_some_iff {digits : List Char} {n : Nat} :
    natural? digits = some n
      ↔ (digits ≠ [] ∧ ∀ c ∈ digits, c.isDigit = true) ∧ n = number digits := by
  simp only [natural?, foldl_eq_number, List.all_eq_true]
  by_cases h : digits ≠ [] ∧ ∀ c ∈ digits, c.isDigit = true
  · rw [if_pos h, and_iff_right h, Option.some.injEq, eq_comm]
  · rw [if_neg h]
    exact ⟨nofun, fun hn => absurd hn.left h⟩

/-- A zero in front counts for nothing. -/
theorem number_zero_cons (digits : List Char) : number ('0' :: digits) = number digits := by
  rw [number, List.reverse_cons, List.map_append, Nat.ofDigits_append]
  rfl

/-- Nor do any more of them. -/
theorem number_zeros_append (count : Nat) (digits : List Char) :
    number (List.replicate count '0' ++ digits) = number digits := by
  induction count with
  | zero => rfl
  | succ count ih => rw [List.replicate_succ, List.cons_append, number_zero_cons, ih]

/-! ## 2. Signs -/

/-- No sign is a digit. -/
theorem ne_cons_of_digits {digits : List Char} (h : ∀ c ∈ digits, c.isDigit = true) {sign : Char}
    (hsign : sign.isDigit = false) (rest : List Char) : digits ≠ sign :: rest := by
  rintro rfl
  rw [h sign List.mem_cons_self] at hsign
  cases hsign

theorem signed?_eq_some_iff {cs : List Char} {n : Int} : signed? cs = some n ↔ Spells cs n := by
  constructor
  · intro h
    unfold signed? at h
    split at h
    · obtain ⟨k, hk, rfl⟩ := Option.map_eq_some_iff.mp h
      obtain ⟨⟨hne, hdigits⟩, rfl⟩ := natural?_eq_some_iff.mp hk
      exact .plus hne hdigits
    · obtain ⟨k, hk, rfl⟩ := Option.map_eq_some_iff.mp h
      obtain ⟨⟨hne, hdigits⟩, rfl⟩ := natural?_eq_some_iff.mp hk
      exact .minus hne hdigits
    · obtain ⟨k, hk, rfl⟩ := Option.map_eq_some_iff.mp h
      obtain ⟨⟨hne, hdigits⟩, rfl⟩ := natural?_eq_some_iff.mp hk
      exact .plain hne hdigits
  · intro h
    cases h with
    | plain hne hdigits =>
      rw [signed?.eq_def]
      split
      · rename_i rest
        exact absurd rfl (ne_cons_of_digits hdigits rfl rest)
      · rename_i rest
        exact absurd rfl (ne_cons_of_digits hdigits rfl rest)
      · rw [natural?_eq_some_iff.mpr ⟨⟨hne, hdigits⟩, rfl⟩]
        rfl
    | plus hne hdigits =>
      rw [signed?, natural?_eq_some_iff.mpr ⟨⟨hne, hdigits⟩, rfl⟩]
      rfl
    | minus hne hdigits =>
      rw [signed?, natural?_eq_some_iff.mpr ⟨⟨hne, hdigits⟩, rfl⟩]
      rfl

/-- One may be written with zeros in front of it, and with a sign. -/
theorem spells_one (count : Nat) :
    Spells (List.replicate count '0' ++ ['1']) 1 ∧
    Spells ('+' :: (List.replicate count '0' ++ ['1'])) 1 := by
  have hne : List.replicate count '0' ++ ['1'] ≠ [] := by simp
  have hdigits : ∀ c ∈ List.replicate count '0' ++ ['1'], c.isDigit = true := by
    intro c hc
    rcases List.mem_append.mp hc with hc | hc
    · rw [List.eq_of_mem_replicate hc]
      rfl
    · rw [List.mem_singleton.mp hc]
      rfl
  have hnumber := number_zeros_append count ['1']
  have hplain := Spells.plain hne hdigits
  have hplus := Spells.plus hne hdigits
  rw [hnumber] at hplain hplus
  exact ⟨hplain, hplus⟩

/-! ## 3. Numbers of 32 bits -/

theorem int32?_eq_some_iff {cs : List Char} {n : Int} :
    int32? cs = some n ↔ Spells cs n ∧ -2 ^ 31 ≤ n ∧ n ≤ 2 ^ 31 - 1 := by
  unfold int32?
  cases hsigned : signed? cs with
  | none =>
    refine ⟨nofun, fun h => ?_⟩
    rw [signed?_eq_some_iff.mpr h.left] at hsigned
    cases hsigned
  | some k =>
    have hspells := signed?_eq_some_iff.mp hsigned
    constructor
    · intro h
      simp only [Option.ite_none_right_eq_some, Option.some.injEq] at h
      obtain ⟨hrange, rfl⟩ := h
      exact ⟨hspells, by omega⟩
    · rintro ⟨h, hrange⟩
      rw [signed?_eq_some_iff.mpr h] at hsigned
      obtain rfl := Option.some.inj hsigned
      exact if_pos (by omega)

end ColumnMasking.Integer
