/-
ColumnMasking.Proofs.Text.StrictReadings — the texts that the strict
readings accept, as a grammar.

`Encoding.strictReadings_accept_exactly` says of both readings what they
give and which texts they accept at all. What they give is known from the
canonical texts: the bytes of which the text is the written form, for
hexadecimal in any letter case.

Which texts these are is said without the writer. `Base64.Canonical` builds
a text from groups of four: symbols alone, and at the end perhaps three or
two symbols filled up with `=`, the last of which has no bit that belongs to
no byte. So a text with white space in it, a foreign character, a padding
that is missing, misplaced or too long, or a set bit at its end is none. A
hexadecimal text is an even count of digits. Both directions go by the
groups: each is written for some bytes (`exists_encodeChars`), and what is
written consists of them (`canonical_encodeChars`).
-/
import ColumnMasking.Proofs.Text.DigitNumbers

namespace ColumnMasking

/-- Characters are determined by their bytes. -/
theorem Utf8.encodeChars_injective : Function.Injective Utf8.encodeChars := by
  intro cs ds h
  have hread := Utf8.decode?_encodeChars cs
  rw [h, Utf8.decode?_encodeChars] at hread
  exact (Option.some.inj hread).symm

/-! ## 1. Base64 -/

namespace Base64

/-- The texts in the standard alphabet with canonical padding. -/
inductive Canonical : List Char → Prop where
  | empty : Canonical []
  /-- Two symbols for a last byte, the last four bits zero. -/
  | oneByte {v w : Nat} (hv : v < 64) (hw : w < 64) (hzero : w % 16 = 0) :
      Canonical [symbol v, symbol w, '=', '=']
  /-- Three symbols for the last two bytes, the last two bits zero. -/
  | twoBytes {v w x : Nat} (hv : v < 64) (hw : w < 64) (hx : x < 64) (hzero : x % 4 = 0) :
      Canonical [symbol v, symbol w, symbol x, '=']
  /-- Four symbols for three bytes, before any other group. -/
  | group {v w x y : Nat} {rest : List Char} (hv : v < 64) (hw : w < 64) (hx : x < 64)
      (hy : y < 64) (hrest : Canonical rest) :
      Canonical (symbol v :: symbol w :: symbol x :: symbol y :: rest)

/-- The symbols are those of the standard alphabet, in its order. -/
example : (List.range 64).map symbol
    = "ABCDEFGHIJKLMNOPQRSTUVWXYZabcdefghijklmnopqrstuvwxyz0123456789+/".toList := by
  decide

/-- What is written is canonical. -/
theorem canonical_encodeChars : ∀ bs : Bytes, Canonical (encodeChars bs)
  | [] => .empty
  | [a] => by
    have ha : a.toNat < 256 := a.toNat_lt
    exact .oneByte (by omega) (by omega) (by omega)
  | [a, b] => by
    have ha : a.toNat < 256 := a.toNat_lt
    have hb : b.toNat < 256 := b.toNat_lt
    exact .twoBytes (by omega) (by omega) (by omega) (by omega)
  | a :: b :: c :: rest => by
    have ha : a.toNat < 256 := a.toNat_lt
    have hb : b.toNat < 256 := b.toNat_lt
    have hc : c.toNat < 256 := c.toNat_lt
    exact .group (by omega) (by omega) (by omega) (by omega) (canonical_encodeChars rest)

/-- A canonical text is written for some bytes. -/
theorem exists_encodeChars {cs : List Char} (h : Canonical cs) :
    ∃ bs, encodeChars bs = cs := by
  suffices hbytes : ∃ bs, Utf8.encodeChars (encodeChars bs) = Utf8.encodeChars cs by
    obtain ⟨bs, hbs⟩ := hbytes
    exact ⟨bs, Utf8.encodeChars_injective hbs⟩
  induction h with
  | empty => exact ⟨[], rfl⟩
  | @oneByte v w hv hw hzero =>
    refine ⟨_, (encodeChars_joinTwo hv hw hzero).trans ?_⟩
    rw [encodeChars_symbol hv, encodeChars_symbol hw]
    rfl
  | @twoBytes v w x hv hw hx hzero =>
    refine ⟨_, (encodeChars_joinThree hv hw hx hzero).trans ?_⟩
    rw [encodeChars_symbol hv, encodeChars_symbol hw, encodeChars_symbol hx]
    rfl
  | @group v w x y rest hv hw hx hy hrest ih =>
    obtain ⟨bs, hbs⟩ := ih
    refine ⟨joinFour v w x y ++ bs, ?_⟩
    rw [encodeChars_joinFour hv hw hx hy, hbs, encodeChars_symbol hv, encodeChars_symbol hw,
      encodeChars_symbol hx, encodeChars_symbol hy]
    rfl

/-- The texts that are read are the canonical ones. -/
theorem exists_decode_iff {text : String} :
    (∃ bs, decode text = .ok bs) ↔ Canonical text.toList := by
  constructor
  · rintro ⟨bs, h⟩
    rw [decode_eq_ok_iff.mp h, encode, String.toList_ofList]
    exact canonical_encodeChars bs
  · intro h
    obtain ⟨bs, hbs⟩ := exists_encodeChars h
    refine ⟨bs, decode_eq_ok_iff.mpr ?_⟩
    rw [encode, hbs, String.ofList_toList]

end Base64

/-! ## 2. Hexadecimal -/

namespace Hex

/-- The texts that are read are those of an even count of digits. -/
theorem exists_decode_iff {text : String} :
    (∃ bs, decode text = .ok bs)
      ↔ text.toList.length % 2 = 0 ∧ ∀ c ∈ text.toList, IsDigit c := by
  constructor
  · rintro ⟨bs, h⟩
    have hvalues := toLower_eq_encode_iff.mp (decode_eq_ok_iff.mp h)
    have hsmall : ∀ n ∈ bs.flatMap halves, n < 16 := fun _ hn => lt_of_mem_halves hn
    have hspells : Spells text.toList (bs.flatMap halves) :=
      ⟨hsmall, (map_value?_iff _ _ hsmall).mp hvalues⟩
    refine ⟨?_, (spells_iff.mp hspells).left⟩
    rw [hspells.length_eq, length_halves]
    omega
  · rintro ⟨heven, hdigits⟩
    have hspells : Spells text.toList (text.toList.map digitValue) :=
      spells_iff.mpr ⟨hdigits, rfl⟩
    refine ⟨pack (text.toList.map digitValue), ?_⟩
    have hread := decode_of_spells hspells (by rwa [List.length_map])
    rwa [String.ofList_toList] at hread

end Hex

/-! ## 3. Both readings -/

namespace Encoding

/-- The strict readings give the bytes of which the text is the written
form, exactly or up to letter case, and nothing else. The texts that they
accept are the canonical Base64 texts and the even counts of digits. -/
theorem strictReadings_accept_exactly (text : String) :
    (∀ bs, decodeBase64 text = .ok bs ↔ text = Base64.encode bs) ∧
    ((∃ bs, decodeBase64 text = .ok bs) ↔ Base64.Canonical text.toList) ∧
    (∀ bs, decodeHexStrict text = .ok bs ↔ text.toLower = Hex.encode bs) ∧
    ((∃ bs, decodeHexStrict text = .ok bs)
      ↔ text.toList.length % 2 = 0 ∧ ∀ c ∈ text.toList, Hex.IsDigit c) := by
  simp only [decodeBase64, decodeHexStrict, mapError_eq_ok_iff]
  exact ⟨fun bs => Base64.decode_eq_ok_iff, Base64.exists_decode_iff,
    fun bs => Hex.decode_eq_ok_iff, Hex.exists_decode_iff⟩

end Encoding
end ColumnMasking
