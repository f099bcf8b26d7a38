/-
ColumnMasking.Proofs.Text.DigitNumbers — the number that hexadecimal digits
spell is the number of the bytes that are read from them.

`Hex.number` reads digits of either letter case to the base sixteen, in any
count and with any zeros in front; it knows nothing of bytes. A text of
digits alone is one that spells values (`Hex.spells_iff`), and the bytes
packed from an even count of values have the number that the digits spell
(`Hex.toNat_pack`).

Zeros in front add nothing to a number. What is left without them is as
long as the number has digits to the base 256
(`Bytes.length_dropWhile_zero`), so the length tells whether the number
fits.
-/
import Mathlib.Data.List.DropRight
import Mathlib.Data.Nat.Digits.Lemmas
import ColumnMasking.Proofs.NumberBytes
import ColumnMasking.Proofs.Text.DigitTexts

namespace ColumnMasking

/-! ## 1. Bytes without the zeros in front -/

namespace Bytes

/-- Zeros in front add nothing to the number. -/
theorem toNat_replicate_append (count : Nat) (bs : Bytes) :
    toNat (List.replicate count 0 ++ bs) = toNat bs := by
  induction count with
  | zero => rfl
  | succ count ih =>
    rw [← ih]
    rfl

/-- Nor do those that are left out. -/
theorem toNat_dropWhile_zero (bs : Bytes) : toNat (bs.dropWhile (· = 0)) = toNat bs := by
  induction bs with
  | nil => rfl
  | cons b bs ih =>
    by_cases hb : b = 0
    · rw [List.dropWhile_cons_of_pos (by simpa using hb), ih, hb]
      rfl
    · rw [List.dropWhile_cons_of_neg (by simpa using hb)]

/-- The number of bytes is that of its digits to the base 256. -/
theorem toNat_eq_ofDigits (bs : Bytes) :
    toNat bs = Nat.ofDigits 256 (bs.reverse.map UInt8.toNat) := by
  induction bs using List.reverseRecOn with
  | nil => rfl
  | append_singleton bs b ih =>
    rw [toNat_concat, ih, List.reverse_concat, List.map_cons, Nat.ofDigits_cons, Nat.add_comm]

/-- Bytes that do not start with a zero are the digits of their number. -/
theorem digits_toNat {bs : Bytes} (h : bs.head? ≠ some 0) :
    Nat.digits 256 (toNat bs) = bs.reverse.map UInt8.toNat := by
  rw [toNat_eq_ofDigits]
  refine Nat.digits_ofDigits 256 (by decide) _ ?_ ?_
  · intro d hd
    obtain ⟨b, -, rfl⟩ := List.mem_map.mp hd
    exact b.toNat_lt
  · intro hne hlast
    rw [List.getLast_map, List.getLast_reverse] at hlast
    have hnonempty : bs ≠ [] := by
      rintro rfl
      exact hne rfl
    have hzero : bs.head hnonempty = 0 := UInt8.toNat_inj.mp hlast
    exact h (by rw [List.head?_eq_some_head hnonempty, hzero])

/-- Without the zeros in front there are as many bytes as the number has
digits to the base 256. -/
theorem length_dropWhile_zero (bs : Bytes) :
    (bs.dropWhile (· = 0)).length = (Nat.digits 256 (toNat bs)).length := by
  have hhead : (bs.dropWhile (· = 0)).head? ≠ some 0 := by
    intro hzero
    have hrest := List.head?_dropWhile_not (· = 0) bs
    rw [hzero] at hrest
    simp at hrest
  rw [← toNat_dropWhile_zero, digits_toNat hhead, List.length_map, List.length_reverse]

end Bytes

/-! ## 2. Digits and their values -/

namespace Hex

/-- A hexadecimal digit of either letter case. -/
def IsDigit (c : Char) : Prop :=
  '0' ≤ c ∧ c ≤ '9' ∨ 'A' ≤ c ∧ c ≤ 'F' ∨ 'a' ≤ c ∧ c ≤ 'f'

instance : DecidablePred IsDigit := fun c =>
  inferInstanceAs (Decidable ('0' ≤ c ∧ c ≤ '9' ∨ 'A' ≤ c ∧ c ≤ 'F' ∨ 'a' ≤ c ∧ c ≤ 'f'))

/-- The value of a digit. -/
def digitValue (c : Char) : Nat :=
  if c ≤ '9' then c.toNat - '0'.toNat
  else if c ≤ 'F' then c.toNat - 'A'.toNat + 10
  else c.toNat - 'a'.toNat + 10

/-- The number that digits spell to the base sixteen, the first one most
significant. -/
def number (cs : List Char) : Nat :=
  cs.foldl (fun n c => 16 * n + digitValue c) 0

/-- The digits are the characters below 128 that are the digit of a value in
some letter case. -/
theorem toLower_eq_digit_iff_of_lt : ∀ k < 128, ∀ n < 16,
    ((Char.ofNat k).toLower = digit n
      ↔ IsDigit (Char.ofNat k) ∧ digitValue (Char.ofNat k) = n) := by
  decide

/-- A digit is below 128. -/
theorem IsDigit.lt {c : Char} (h : IsDigit c) : c.val.toNat < 128 := by
  have hlast : c ≤ 'f' := by
    rcases h with ⟨-, h⟩ | ⟨-, h⟩ | ⟨-, h⟩
    · exact Char.le_trans h (by decide)
    · exact Char.le_trans h (by decide)
    · exact h
  have hbound : c.val.toNat ≤ 102 := UInt32.le_iff_toNat_le.mp hlast
  omega

/-- A character is the digit of a value, letter case aside, when it is a
digit and has that value. -/
theorem toLower_eq_digit_iff (c : Char) {n : Nat} (hn : n < 16) :
    c.toLower = digit n ↔ IsDigit c ∧ digitValue c = n := by
  by_cases hascii : c.val.toNat < 128
  · have hchar : Char.ofNat c.val.toNat = c := Char.ofNat_toNat c
    rw [← hchar]
    exact toLower_eq_digit_iff_of_lt c.val.toNat hascii n hn
  · constructor
    · intro h
      rw [toLower_of_le (Nat.not_lt.mp hascii)] at h
      have hsmall := toNat_digit_lt n hn
      rw [← h] at hsmall
      exact absurd hsmall hascii
    · rintro ⟨hdigit, -⟩
      exact absurd hdigit.lt hascii

/-- A digit has a value below sixteen. -/
theorem IsDigit.value_lt {c : Char} (h : IsDigit c) : digitValue c < 16 := by
  have hvalue : ∀ k < 128, IsDigit (Char.ofNat k) → digitValue (Char.ofNat k) < 16 := by
    decide
  have hchar : Char.ofNat c.val.toNat = c := Char.ofNat_toNat c
  rw [← hchar] at h ⊢
  exact hvalue c.val.toNat (hchar ▸ h).lt h

/-! ## 3. Texts of digits -/

/-- Characters spell values when they are digits alone, and then their own
values. -/
theorem spells_iff {cs : List Char} {ns : List Nat} :
    Spells cs ns ↔ (∀ c ∈ cs, IsDigit c) ∧ ns = cs.map digitValue := by
  constructor
  · intro h
    induction cs generalizing ns with
    | nil =>
      have hns : ns = [] := by simpa using h.chars.symm
      simp [hns]
    | cons c cs ih =>
      cases ns with
      | nil => exact absurd h.chars (by simp)
      | cons n ns =>
        obtain ⟨hc, -⟩ := List.cons.inj h.chars
        obtain ⟨hdigit, hvalue⟩ := (toLower_eq_digit_iff c (h.small n List.mem_cons_self)).mp hc
        obtain ⟨hrest, rfl⟩ := ih (h.drop 1)
        exact ⟨List.forall_mem_cons.mpr ⟨hdigit, hrest⟩, by rw [List.map_cons, hvalue]⟩
  · rintro ⟨hdigits, rfl⟩
    constructor
    · intro n hn
      obtain ⟨c, hc, rfl⟩ := List.mem_map.mp hn
      exact (hdigits c hc).value_lt
    · rw [List.map_map]
      refine List.map_congr_left fun c hc => ?_
      exact (toLower_eq_digit_iff c (hdigits c hc).value_lt).mpr ⟨hdigits c hc, rfl⟩

/-- A text has digits alone, and at least one, when it is not empty and all
its characters are digits. -/
theorem isHex_iff {text : String} :
    isHex text = true ↔ text ≠ "" ∧ ∀ c ∈ text.toList, IsDigit c := by
  constructor
  · intro h
    obtain ⟨ns, hns⟩ := exists_spells_of_isHex h
    refine ⟨?_, (spells_iff.mp hns).left⟩
    rintro rfl
    exact absurd h (by decide)
  · rintro ⟨hne, hdigits⟩
    have hspells : Spells text.toList (text.toList.map digitValue) := spells_iff.mpr ⟨hdigits, rfl⟩
    have hvalues := (map_value?_iff _ _ hspells.small).mpr hspells.chars
    rw [isHex, Bool.and_eq_true]
    constructor
    · simpa [String.isEmpty_iff] using hne
    · rw [List.all_eq_true]
      intro b hb
      have hb' : value? b ∈ (text.toList.map digitValue).map some := by
        rw [← hvalues]
        exact List.mem_map_of_mem hb
      obtain ⟨n, -, hn⟩ := List.mem_map.mp hb'
      rw [← hn]
      rfl

/-- A written text has digits alone. -/
theorem isDigit_of_mem_encode {bs : Bytes} : ∀ c ∈ (encode bs).toList, IsDigit c :=
  (spells_iff.mp (spells_encode bs)).left

/-- There are two digits for every byte. -/
theorem length_toList_encode (bs : Bytes) : (encode bs).toList.length = 2 * bs.length := by
  rw [(spells_encode bs).length_eq, length_halves]

/-- The last digits of a written text are those of the last bytes. -/
theorem rtake_toList_encode (as : Bytes) {bs : Bytes} {count : Nat}
    (h : 2 * bs.length = count) :
    (encode (as ++ bs)).toList.rtake count = (encode bs).toList := by
  have hsplit : (encode (as ++ bs)).toList
      = (encode as).toList ++ (encode bs).toList := by
    simp only [toList_encode, List.flatMap_append, List.map_append]
  have hcount : (encode bs).toList.length = count := by
    rw [length_toList_encode, h]
  rw [List.rtake, hsplit, List.length_append, hcount, Nat.add_sub_cancel, List.drop_left]

/-! ## 4. Numbers of digits and of bytes -/

/-- Two values are read at once as the byte that they are the halves of. -/
theorem foldl_pack : ∀ (ns : List Nat) (start : Nat), (∀ n ∈ ns, n < 16) → ns.length % 2 = 0 →
    (pack ns).foldl (fun n b => 256 * n + b.toNat) start
      = ns.foldl (fun n v => 16 * n + v) start
  | [], _, _, _ => rfl
  | [_], _, _, heven => by simp at heven
  | high :: low :: ns, start, hsmall, heven => by
    have hhigh := hsmall high (by simp)
    have hlow := hsmall low (by simp)
    have hbyte : (UInt8.ofNat (16 * high + low)).toNat = 16 * high + low := by
      rw [UInt8.toNat_ofNat']
      omega
    have ih := foldl_pack ns (256 * start + (16 * high + low))
      (fun n hn => hsmall n (by simp [hn])) (by simp only [List.length_cons] at heven; omega)
    have hstep : 16 * (16 * start + high) + low = 256 * start + (16 * high + low) := by omega
    rw [pack, List.foldl_cons, hbyte, ih, List.foldl_cons, List.foldl_cons, hstep]

/-- The bytes made of an even count of values have the number that the
digits of the values spell. -/
theorem toNat_pack {cs : List Char} {ns : List Nat} (h : Spells cs ns)
    (heven : ns.length % 2 = 0) : Bytes.toNat (pack ns) = number cs := by
  obtain ⟨-, rfl⟩ := spells_iff.mp h
  rw [Bytes.toNat, foldl_pack _ 0 h.small heven, List.foldl_map]
  rfl

/-- A zero in front adds nothing to the number. -/
theorem number_zero_cons (cs : List Char) : number ('0' :: cs) = number cs := rfl

end Hex
end ColumnMasking
