/-
ColumnMasking.Proofs.Text.Utf16RoundTrip — a text and its UTF-16 units stand
for each other.

`decode?_eq_some_iff` is the main statement: units are read as a text exactly
when they are the units of that text. So a text has one list of units, and
units that no text has are refused.

The two directions come from `pieces`. Taking pieces undoes the encoding of a
character, whatever follows it (`pieces_encodeChar_append`), because neither a
unit of the first plane nor the second half of a pair can be mistaken for the
first half of one. And the pieces of any units, written out again, are those
units (`flatMap_units_pieces`), surrogates without their other half included.
-/
import ColumnMasking.Proofs.Text.Utf8Readings
import ColumnMasking.Text.Utf16

namespace ColumnMasking.Utf16

/-! ## 1. Surrogates by number -/

theorem isHigh_iff {u : UInt16} : isHigh u = true ↔ 0xD800 ≤ u.toNat ∧ u.toNat ≤ 0xDBFF := by
  simp [isHigh, UInt16.le_iff_toNat_le]

theorem isLow_iff {u : UInt16} : isLow u = true ↔ 0xDC00 ≤ u.toNat ∧ u.toNat ≤ 0xDFFF := by
  simp [isLow, UInt16.le_iff_toNat_le]

theorem toNat_ofNat_of_lt {n : Nat} (h : n < 0x10000) : (UInt16.ofNat n).toNat = n := by
  rw [UInt16.toNat_ofNat']
  omega

/-- A unit that is not the first half of a pair is a piece of its own. -/
theorem pieces_cons_of_not_high {u : UInt16} (h : isHigh u = false) (rest : List UInt16) :
    pieces (u :: rest) = single u :: pieces rest := by
  cases rest with
  | nil => simp [pieces]
  | cons v rest => simp [pieces, h]

/-- The two halves of a pair are one piece. -/
theorem pieces_pair {u v : UInt16} (hu : isHigh u = true) (hv : isLow v = true)
    (rest : List UInt16) : pieces (u :: v :: rest) = .char (pair u v) :: pieces rest := by
  simp [pieces, hu, hv]

/-! ## 2. From texts to units and back -/

/-- The units of a character are read as that character, whatever follows
them. -/
theorem pieces_encodeChar_append (c : Char) (rest : List UInt16) :
    pieces (encodeChar c ++ rest) = .char c :: pieces rest := by
  have hvalid : c.toNat < 0xD800 ∨ (0xDFFF < c.toNat ∧ c.toNat < 0x110000) := Utf8.toNat_valid c
  have hchar : Char.ofNat c.toNat = c := Char.ofNat_toNat c
  unfold encodeChar
  generalize c.toNat = n at hvalid hchar
  split
  · -- one unit, and no surrogate
    rename_i hplane
    have hunit := toNat_ofNat_of_lt hplane
    have hhigh : isHigh (UInt16.ofNat n) = false := by
      rw [Bool.eq_false_iff, ne_eq, isHigh_iff]
      omega
    have hlow : isLow (UInt16.ofNat n) = false := by
      rw [Bool.eq_false_iff, ne_eq, isLow_iff]
      omega
    rw [List.singleton_append, pieces_cons_of_not_high hhigh]
    simp [single, hhigh, hlow, hunit, hchar]
  · -- two units, a pair
    have hu := toNat_ofNat_of_lt (n := 0xD800 + (n - 0x10000) / 0x400) (by omega)
    have hv := toNat_ofNat_of_lt (n := 0xDC00 + (n - 0x10000) % 0x400) (by omega)
    have hhigh : isHigh (UInt16.ofNat (0xD800 + (n - 0x10000) / 0x400)) = true := by
      rw [isHigh_iff]
      omega
    have hlow : isLow (UInt16.ofNat (0xDC00 + (n - 0x10000) % 0x400)) = true := by
      rw [isLow_iff]
      omega
    show pieces (_ :: _ :: rest) = _
    rw [pieces_pair hhigh hlow, pair, hu, hv]
    have hsum : 0x10000 + (0xD800 + (n - 0x10000) / 0x400 - 0xD800) * 0x400
        + (0xDC00 + (n - 0x10000) % 0x400 - 0xDC00) = n := by omega
    rw [hsum, hchar]

/-- The units of characters are read as those characters. -/
theorem pieces_flatMap_encodeChar (cs : List Char) :
    pieces (cs.flatMap encodeChar) = cs.map .char := by
  induction cs with
  | nil => rfl
  | cons c cs ih => simp [List.flatMap_cons, pieces_encodeChar_append, ih]

/-- Pieces are all characters when they are the pieces of characters. -/
theorem mapM_char?_eq_some_iff {ps : List Piece} {cs : List Char} :
    ps.mapM Piece.char? = some cs ↔ ps = cs.map .char := by
  induction ps generalizing cs with
  | nil => cases cs <;> simp
  | cons p ps ih =>
    cases p with
    | surrogate u => cases cs <;> simp [Piece.char?]
    | char c => cases cs <;> simp [Piece.char?, Option.bind_eq_some_iff, ih, and_comm]

/-- The units of a text are read as that text. -/
@[simp] theorem decode?_encode (text : String) : decode? (encode text) = some text := by
  have hchars := mapM_char?_eq_some_iff.mpr (pieces_flatMap_encodeChar text.toList)
  rw [decode?, encode, hchars, Option.map_some, String.ofList_toList]

/-! ## 3. From units to texts and back -/

/-- The units that are taken for a piece. -/
def Piece.units : Piece → List UInt16
  | char c => encodeChar c
  | surrogate u => [u]

/-- A unit of its own is written out as it stands. -/
theorem units_single (u : UInt16) : (single u).units = [u] := by
  unfold single
  split
  · rfl
  · rename_i h
    have hbound := u.toNat_lt
    simp only [Bool.or_eq_true, isHigh_iff, isLow_iff] at h
    have hchar : (Char.ofNat u.toNat).toNat = u.toNat := Utf8.val_ofNat (by omega)
    show encodeChar _ = _
    rw [encodeChar, hchar, if_pos (by omega), UInt16.ofNat_toNat]

/-- The character of a pair is written out as that pair. -/
theorem encodeChar_pair {u v : UInt16} (hu : isHigh u = true) (hv : isLow v = true) :
    encodeChar (pair u v) = [u, v] := by
  rw [isHigh_iff] at hu
  rw [isLow_iff] at hv
  have hchar : (pair u v).toNat
      = 0x10000 + (u.toNat - 0xD800) * 0x400 + (v.toNat - 0xDC00) := Utf8.val_ofNat (by omega)
  have hfirst : 0xD800 + (0x10000 + (u.toNat - 0xD800) * 0x400 + (v.toNat - 0xDC00)
      - 0x10000) / 0x400 = u.toNat := by omega
  have hsecond : 0xDC00 + (0x10000 + (u.toNat - 0xD800) * 0x400 + (v.toNat - 0xDC00)
      - 0x10000) % 0x400 = v.toNat := by omega
  rw [encodeChar, hchar, if_neg (by omega)]
  simp only [hfirst, hsecond, UInt16.ofNat_toNat]

/-- The pieces of units, written out again, are those units. -/
theorem flatMap_units_pieces (units : List UInt16) :
    (pieces units).flatMap Piece.units = units := by
  fun_induction pieces units with
  | case1 => rfl
  | case2 u => simp [units_single]
  | case3 u v rest hpair ih =>
    rw [Bool.and_eq_true] at hpair
    rw [List.flatMap_cons, ih]
    simp [Piece.units, encodeChar_pair hpair.left hpair.right]
  | case4 u v rest hpair ih => rw [List.flatMap_cons, ih, units_single, List.singleton_append]

/-- Units are read as a text exactly when they are the units of that text. -/
theorem decode?_eq_some_iff {units : List UInt16} {text : String} :
    decode? units = some text ↔ units = encode text := by
  constructor
  · intro h
    obtain ⟨cs, hcs, rfl⟩ := Option.map_eq_some_iff.mp h
    have hunits := flatMap_units_pieces units
    rw [mapM_char?_eq_some_iff.mp hcs, List.flatMap_map] at hunits
    rw [← hunits, encode, String.toList_ofList]
    rfl
  · rintro rfl
    exact decode?_encode text

end ColumnMasking.Utf16
