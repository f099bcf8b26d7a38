/-
ColumnMasking.Proofs.Text.DigitTexts — texts of hexadecimal digits and the
values that they spell.

`Hex.Spells cs ns` says that the characters `cs` are the digits of the
values `ns`, letter case aside. It holds of written text (`spells_encode`)
and of every text of digits alone (`exists_spells_of_isHex`), and as it goes
character by character, it holds of a part of such a text and of a text with
a zero in front.

So the strict reading never fails on an even count of digits, wherever they
were cut from (`decode_of_spells`); the odd count and the byte that is no
digit, the two things it can complain about, are both ruled out.
-/
import ColumnMasking.Proofs.Text.CanonicalTexts

namespace ColumnMasking.Hex

/-- The characters are the digits of the values, letter case aside. -/
structure Spells (cs : List Char) (ns : List Nat) : Prop where
  small : ∀ n ∈ ns, n < 16
  chars : cs.map Char.toLower = ns.map digit

/-! ## 1. Values and bytes -/

/-- There is a byte for every two values. -/
theorem length_pack : ∀ ns : List Nat, (pack ns).length = ns.length / 2
  | [] => rfl
  | [_] => by simp [pack]
  | high :: low :: ns => by
    simp only [pack, List.length_cons, length_pack ns]
    omega

/-- An even count of values is the halves of the bytes made of them. -/
theorem flatMap_halves_pack : ∀ {ns : List Nat}, (∀ n ∈ ns, n < 16) → ns.length % 2 = 0 →
    (pack ns).flatMap halves = ns
  | [], _, _ => rfl
  | [_], _, heven => by simp at heven
  | high :: low :: ns, hsmall, heven => by
    have hrest : ∀ n ∈ ns, n < 16 := fun n hn => hsmall n (by simp [hn])
    have ih := flatMap_halves_pack hrest (by simp only [List.length_cons] at heven; omega)
    rw [pack, List.flatMap_cons, halves_ofNat (hsmall high (by simp)) (hsmall low (by simp)), ih]
    rfl

theorem toLower_digit : ∀ n < 16, (digit n).toLower = digit n := by
  decide

/-! ## 2. Texts that spell values -/

namespace Spells

variable {cs : List Char} {ns : List Nat}

theorem length_eq (h : Spells cs ns) : cs.length = ns.length := by
  simpa using congrArg List.length h.chars

/-- Digits are single bytes. -/
theorem length_encodeChars (h : Spells cs ns) : (Utf8.encodeChars cs).length = ns.length := by
  simpa using congrArg List.length ((map_value?_iff ns cs h.small).mpr h.chars)

/-- What is left of the digits spells what is left of the values. -/
theorem drop (h : Spells cs ns) (count : Nat) : Spells (cs.drop count) (ns.drop count) where
  small n hn := h.small n (List.mem_of_mem_drop hn)
  chars := by simp only [List.map_drop, h.chars]

/-- A zero in front spells the value zero in front. -/
theorem zero_cons (h : Spells cs ns) : Spells ('0' :: cs) (0 :: ns) where
  small n hn := by
    rcases List.mem_cons.mp hn with rfl | hn
    · decide
    · exact h.small n hn
  chars := by
    simp only [List.map_cons, h.chars]
    rfl

end Spells

/-- A written text spells the halves of its bytes. -/
theorem spells_encode (bs : Bytes) : Spells (encode bs).toList (bs.flatMap halves) where
  small _ hn := lt_of_mem_halves hn
  chars := by
    rw [toList_encode, List.map_map]
    refine List.map_congr_left ?_
    intro n hn
    exact toLower_digit n (lt_of_mem_halves hn)

/-- A written text is in lower case. -/
theorem toLower_encode (bs : Bytes) : (encode bs).toLower = encode bs := by
  have hspells := spells_encode bs
  exact toLower_eq_encode_iff.mpr ((map_value?_iff _ _ hspells.small).mpr hspells.chars)

/-- A written text is read strictly as the bytes that it was written for. -/
theorem decodeHexStrict_encode (bs : Bytes) :
    Encoding.decodeHexStrict (encode bs) = .ok bs :=
  Encoding.decodeHexStrict_eq_ok_iff.mpr (toLower_encode bs)

/-- Characters of which all bytes are digits spell values. -/
theorem exists_spells (cs : List Char) :
    (∀ b ∈ Utf8.encodeChars cs, (value? b).isSome = true) → ∃ ns, Spells cs ns := by
  induction cs with
  | nil =>
    intro _
    exact ⟨[], by simp, rfl⟩
  | cons c cs ih =>
    intro h
    rw [Utf8.encodeChars_cons] at h
    obtain ⟨ns, hns⟩ := ih fun b hb => h b (List.mem_append_right _ hb)
    obtain ⟨b, tail, hbytes⟩ := Utf8.utf8EncodeChar_eq_cons c
    obtain ⟨n, hn⟩ := Option.isSome_iff_exists.mp (h b (by simp [hbytes]))
    -- the first byte has a value, so the character is its digit and has no other byte
    have hfirst : (String.utf8EncodeChar c ++ []).map value? = some n :: tail.map value? := by
      simp [hbytes, hn]
    have hdigit := ((map_value?_char c (value?_lt hn) [] _).mp hfirst).left
    refine ⟨n :: ns, ?_, by simp [hdigit, hns.chars]⟩
    intro m hm
    rcases List.mem_cons.mp hm with rfl | hm
    · exact value?_lt hn
    · exact hns.small m hm

/-- A text of digits alone spells values. -/
theorem exists_spells_of_isHex {text : String} (h : isHex text = true) :
    ∃ ns, Spells text.toList ns := by
  rw [isHex, Bool.and_eq_true] at h
  exact exists_spells text.toList (List.all_eq_true.mp h.right)

/-- A text that spells an even count of values is read strictly, as the
bytes made of them. -/
theorem decode_of_spells {cs : List Char} {ns : List Nat} (h : Spells cs ns)
    (heven : ns.length % 2 = 0) : decode (String.ofList cs) = .ok (pack ns) := by
  rw [decode_eq_ok_iff, toLower_eq_encode_iff, flatMap_halves_pack h.small heven,
    Utf8.encode_ofList]
  exact (map_value?_iff ns cs h.small).mpr h.chars

end ColumnMasking.Hex
