/-
ColumnMasking.Proofs.Text.EncodingRoundTrip — bytes written in either
encoding are read back as themselves.

`Encoding.decode_encode` is the round trip, `Encoding.encode_eq_empty_iff`
says that only the empty byte string has the empty text.

Hexadecimal text goes through one list of digit values: `digits_encode`
says that the digits of a written text are the halves of its bytes, and
`pack_halves` puts them together again. Base64 text goes group by group:
a group of three bytes is four symbols (`encodeChars_group`), each symbol
has its number back (`value?_symbolByte`), and `decodeFrom_encodeChars`
is the induction over the groups, the last of which may be short.
-/
import Mathlib.Tactic.IntervalCases
import ColumnMasking.Text.Encoding
import ColumnMasking.Proofs.Text.Utf8RoundTrip

namespace ColumnMasking

/-- The bytes of a text given by its characters. -/
theorem Utf8.encode_ofList (cs : List Char) :
    Utf8.encode (String.ofList cs) = Utf8.encodeChars cs := by
  rw [Utf8.encode, String.toList_ofList]

/-! ## 1. Hexadecimal -/

namespace Hex

/-- The two digit values of a byte. -/
def halves (b : UInt8) : List Nat :=
  [b.toNat / 16, b.toNat % 16]

/-- A digit that was written has its value back. -/
theorem filterMap_value?_digit {n : Nat} (h : n < 16) :
    (String.utf8EncodeChar (digit n)).filterMap value? = [n] := by
  interval_cases n <;> rfl

/-- The digits of a written text are the halves of its bytes. -/
theorem digits_encode (bs : Bytes) : digits (encode bs) = bs.flatMap halves := by
  rw [digits, encode, Utf8.encode_ofList]
  induction bs with
  | nil => rfl
  | cons b bs ih =>
    have hlt : b.toNat < 256 := b.toNat_lt
    simp only [List.flatMap_cons, encodeByte, List.cons_append, List.nil_append,
      Utf8.encodeChars_cons, List.filterMap_append, ih]
    rw [filterMap_value?_digit (by omega), filterMap_value?_digit (by omega)]
    rfl

/-- Halves are put together to the bytes that they came from. -/
theorem pack_halves : ∀ bs : Bytes, pack (bs.flatMap halves) = bs
  | [] => rfl
  | b :: bs => by
    have hsum : 16 * (b.toNat / 16) + b.toNat % 16 = b.toNat := Nat.div_add_mod ..
    simp only [List.flatMap_cons, halves, List.cons_append, List.nil_append, pack, hsum,
      UInt8.ofNat_toNat]
    exact congrArg (b :: ·) (pack_halves bs)

/-- There are two digits a byte. -/
theorem length_halves (bs : Bytes) : (bs.flatMap halves).length = 2 * bs.length := by
  induction bs with
  | nil => rfl
  | cons b bs ih =>
    simp only [List.flatMap_cons, halves, List.length_append, ih, List.length_cons,
      List.length_nil]
    omega

/-- The lenient reading gives written bytes back. -/
theorem decodeLenient_encode (bs : Bytes) : decodeLenient (encode bs) = bs := by
  have heven : ¬ (bs.flatMap halves).length % 2 = 1 := by
    rw [length_halves]
    omega
  rw [decodeLenient, digits_encode]
  simp only [if_neg heven]
  exact pack_halves bs

end Hex

/-! ## 2. Base64 -/

namespace Base64

/-- The byte of a symbol. -/
def symbolByte (n : Nat) : UInt8 :=
  UInt8.ofNat (symbol n).toNat

/-- A symbol is a single byte of text. -/
theorem utf8EncodeChar_symbol {n : Nat} (h : n < 64) :
    String.utf8EncodeChar (symbol n) = [symbolByte n] := by
  interval_cases n <;> rfl

/-- A symbol has its number back. -/
theorem value?_symbolByte {n : Nat} (h : n < 64) : value? (symbolByte n) = some n := by
  interval_cases n <;> rfl

/-- No symbol is the padding. -/
theorem symbolByte_ne_pad {n : Nat} (h : n < 64) : symbolByte n ≠ pad := by
  interval_cases n <;> decide

/-- A symbol at any offset has its number back. -/
theorem valueAt_symbolByte (offset : Nat) {n : Nat} (h : n < 64) :
    valueAt offset (symbolByte n) = .ok n := by
  rw [valueAt, value?_symbolByte h]

/-- A byte is the last eight bits of a number. -/
theorem ofNat_eq_of_mod {n : Nat} {b : UInt8} (h : n % 256 = b.toNat) : UInt8.ofNat n = b := by
  rw [← UInt8.toNat_inj, UInt8.toNat_ofNat']
  exact h

/-- Four numbers of six bits are the three bytes that they were cut
from. -/
theorem joinFour_group (a b c : UInt8) {n : Nat}
    (hn : n = (a.toNat * 256 + b.toNat) * 256 + c.toNat) :
    joinFour (n / 262144) (n / 4096 % 64) (n / 64 % 64) (n % 64) = [a, b, c] := by
  have ha : a.toNat < 256 := a.toNat_lt
  have hb : b.toNat < 256 := b.toNat_lt
  have hc : c.toNat < 256 := c.toNat_lt
  have hsum : ((n / 262144 * 64 + n / 4096 % 64) * 64 + n / 64 % 64) * 64 + n % 64 = n := by
    omega
  rw [joinFour, hsum]
  simp only [List.cons.injEq, and_true]
  exact ⟨ofNat_eq_of_mod (by omega), ofNat_eq_of_mod (by omega), ofNat_eq_of_mod (by omega)⟩

/-- The bytes of a text of symbols. -/
theorem encodeChars_symbol {n : Nat} (h : n < 64) (cs : List Char) :
    Utf8.encodeChars (symbol n :: cs) = symbolByte n :: Utf8.encodeChars cs := by
  rw [Utf8.encodeChars_cons, utf8EncodeChar_symbol h]
  rfl

/-- The bytes of the written form of a last group of one byte. -/
theorem encodeChars_one (a : UInt8) {n : Nat} (hn : n = a.toNat * 16) :
    Utf8.encodeChars (encodeChars [a])
      = [symbolByte (n / 64), symbolByte (n % 64), pad, pad] := by
  have ha : a.toNat < 256 := a.toNat_lt
  simp only [encodeChars, ← hn]
  rw [encodeChars_symbol (by omega), encodeChars_symbol (by omega)]
  rfl

/-- The bytes of the written form of a last group of two bytes. -/
theorem encodeChars_two (a b : UInt8) {n : Nat} (hn : n = (a.toNat * 256 + b.toNat) * 4) :
    Utf8.encodeChars (encodeChars [a, b])
      = [symbolByte (n / 4096), symbolByte (n / 64 % 64), symbolByte (n % 64), pad] := by
  have ha : a.toNat < 256 := a.toNat_lt
  have hb : b.toNat < 256 := b.toNat_lt
  simp only [encodeChars, ← hn]
  rw [encodeChars_symbol (by omega), encodeChars_symbol (by omega), encodeChars_symbol (by omega)]
  rfl

/-- The bytes of the written form of a group of three bytes. -/
theorem encodeChars_group (a b c : UInt8) (rest : Bytes) {n : Nat}
    (hn : n = (a.toNat * 256 + b.toNat) * 256 + c.toNat) :
    Utf8.encodeChars (encodeChars (a :: b :: c :: rest))
      = symbolByte (n / 262144) :: symbolByte (n / 4096 % 64) :: symbolByte (n / 64 % 64)
        :: symbolByte (n % 64) :: Utf8.encodeChars (encodeChars rest) := by
  have ha : a.toNat < 256 := a.toNat_lt
  have hb : b.toNat < 256 := b.toNat_lt
  have hc : c.toNat < 256 := c.toNat_lt
  simp only [encodeChars, ← hn]
  rw [encodeChars_symbol (by omega), encodeChars_symbol (by omega),
    encodeChars_symbol (by omega), encodeChars_symbol (by omega)]

/-- Four bytes of text for every three bytes, the last group filled up. -/
theorem length_encodeChars (bs : Bytes) :
    (Utf8.encodeChars (encodeChars bs)).length = 4 * ((bs.length + 2) / 3) := by
  induction bs using encodeChars.induct with
  | case1 => rfl
  | case2 a => simp [encodeChars_one a rfl]
  | case3 a b => simp [encodeChars_two a b rfl]
  | case4 a b c rest ih =>
    rw [encodeChars_group a b c rest rfl]
    simp only [List.length_cons, ih]
    omega

/-- The written form of a byte string with a first byte has a first
byte. -/
theorem encodeChars_cons_ne_nil (b : UInt8) (rest : Bytes) :
    Utf8.encodeChars (encodeChars (b :: rest)) ≠ [] := by
  refine List.ne_nil_of_length_pos ?_
  rw [length_encodeChars, List.length_cons]
  omega

/-- Symbols have their numbers back. -/
theorem valuesFrom_map_symbolByte : ∀ (vs : List Nat) (offset : Nat), (∀ v ∈ vs, v < 64) →
    valuesFrom offset (vs.map symbolByte) = .ok vs
  | [], _, _ => rfl
  | v :: vs, offset, h => by
    have ih := valuesFrom_map_symbolByte vs (offset + 1) fun w hw => h w (by simp [hw])
    rw [List.map_cons, valuesFrom, valueAt_symbolByte offset (h v (by simp)), ih]
    rfl

/-- A last group of at least two symbols that is filled up with padding
is read as the numbers of its symbols. -/
theorem decodeLast_symbols (offset : Nat) (vs : List Nat) (h : ∀ v ∈ vs, v < 64)
    (htwo : 2 ≤ vs.length) (hfour : vs.length ≤ 4) :
    decodeLast offset (vs.map symbolByte ++ List.replicate (4 - vs.length) pad)
      = joinLast offset (vs.map symbolByte) vs := by
  have hsymbols : ∀ b ∈ vs.map symbolByte, decide (b ≠ pad) = true := by
    intro b hb
    obtain ⟨v, hv, rfl⟩ := List.mem_map.mp hb
    exact decide_eq_true (symbolByte_ne_pad (h v hv))
  have htake : (vs.map symbolByte ++ List.replicate (4 - vs.length) pad).takeWhile (· ≠ pad)
      = vs.map symbolByte := by
    rw [List.takeWhile_append_of_pos hsymbols, List.takeWhile_replicate]
    simp
  have hdrop : (vs.map symbolByte ++ List.replicate (4 - vs.length) pad).dropWhile (· ≠ pad)
      = List.replicate (4 - vs.length) pad := by
    rw [List.dropWhile_append_of_pos hsymbols, List.dropWhile_replicate]
    simp
  have hbad : ¬ (List.replicate (4 - vs.length) pad ≠ [] ∧ (vs.length < 2
      ∨ (List.replicate (4 - vs.length) pad).any (· ≠ pad) = true)) := by
    rintro ⟨-, hshort | hany⟩
    · omega
    · simp at hany
  have hfull : ¬ (vs.length + (4 - vs.length)) % 4 ≠ 0 := by omega
  have hshort : ¬ vs.length < 2 := by omega
  unfold decodeLast
  simp only [htake, hdrop, List.length_map, List.length_replicate,
    valuesFrom_map_symbolByte vs offset h, if_neg hbad, if_neg hfull, if_neg hshort]
  rfl

/-- A last group of four symbols has no padding. -/
theorem decodeLast_four (offset : Nat) {v w x y : Nat} (hv : v < 64) (hw : w < 64)
    (hx : x < 64) (hy : y < 64) :
    decodeLast offset [symbolByte v, symbolByte w, symbolByte x, symbolByte y]
      = .ok (joinFour v w x y) := by
  have h := decodeLast_symbols offset [v, w, x, y] (by simp [hv, hw, hx, hy])
    (by simp) (by simp)
  simpa [joinLast] using h

/-- A last group of one byte. -/
theorem decodeFrom_one (offset : Nat) (a : UInt8) :
    decodeFrom offset (Utf8.encodeChars (encodeChars [a])) = .ok [a] := by
  have ha : a.toNat < 256 := a.toNat_lt
  generalize hn : a.toNat * 16 = n
  have h := decodeLast_symbols offset [n / 64, n % 64] (by simp; omega) (by simp)
    (by simp)
  have hzero : n % 64 % 16 = 0 := by omega
  have hbyte : UInt8.ofNat (n / 64 * 4 + n % 64 / 16) = a := ofNat_eq_of_mod (by omega)
  rw [encodeChars_one a hn.symm]
  simpa [joinLast, hzero, hbyte, decodeFrom] using h

/-- A last group of two bytes. -/
theorem decodeFrom_two (offset : Nat) (a b : UInt8) :
    decodeFrom offset (Utf8.encodeChars (encodeChars [a, b])) = .ok [a, b] := by
  have ha : a.toNat < 256 := a.toNat_lt
  have hb : b.toNat < 256 := b.toNat_lt
  generalize hn : (a.toNat * 256 + b.toNat) * 4 = n
  have h := decodeLast_symbols offset [n / 4096, n / 64 % 64, n % 64]
    (by simp; omega) (by simp) (by simp)
  have hzero : n % 64 % 4 = 0 := by omega
  have hhigh : UInt8.ofNat (((n / 4096 * 64 + n / 64 % 64) * 16 + n % 64 / 4) / 256) = a :=
    ofNat_eq_of_mod (by omega)
  have hlow : UInt8.ofNat ((n / 4096 * 64 + n / 64 % 64) * 16 + n % 64 / 4) = b :=
    ofNat_eq_of_mod (by omega)
  rw [encodeChars_two a b hn.symm]
  simpa [joinLast, hzero, hhigh, hlow, decodeFrom] using h

/-- A group that is not the last one is read on its own. -/
theorem decodeFrom_group (offset : Nat) {v w x y : Nat} (hv : v < 64) (hw : w < 64)
    (hx : x < 64) (hy : y < 64) {rest : Bytes} (hrest : rest ≠ []) :
    decodeFrom offset (symbolByte v :: symbolByte w :: symbolByte x :: symbolByte y :: rest)
      = (decodeFrom (offset + 4) rest).map (joinFour v w x y ++ ·) := by
  obtain ⟨e, tail, rfl⟩ := List.exists_cons_of_ne_nil hrest
  rw [decodeFrom, valueAt_symbolByte _ hv, valueAt_symbolByte _ hw, valueAt_symbolByte _ hx,
    valueAt_symbolByte _ hy]
  rfl

/-- What was written is read back, group after group. -/
theorem decodeFrom_encodeChars : ∀ (offset : Nat) (bs : Bytes), bs ≠ [] →
    decodeFrom offset (Utf8.encodeChars (encodeChars bs)) = .ok bs
  | _, [], h => absurd rfl h
  | offset, [a], _ => decodeFrom_one offset a
  | offset, [a, b], _ => decodeFrom_two offset a b
  | offset, a :: b :: c :: rest, _ => by
    have ha : a.toNat < 256 := a.toNat_lt
    have hb : b.toNat < 256 := b.toNat_lt
    have hc : c.toNat < 256 := c.toNat_lt
    generalize hn : (a.toNat * 256 + b.toNat) * 256 + c.toNat = n
    have hjoin := joinFour_group a b c hn.symm
    rw [encodeChars_group a b c rest hn.symm]
    match rest with
    | [] =>
      rw [show Utf8.encodeChars (encodeChars []) = [] from rfl, decodeFrom,
        decodeLast_four offset (by omega) (by omega) (by omega) (by omega), hjoin]
      simp
    | d :: rest =>
      rw [decodeFrom_group offset (by omega) (by omega) (by omega) (by omega)
        (encodeChars_cons_ne_nil d rest),
        decodeFrom_encodeChars (offset + 4) (d :: rest) (List.cons_ne_nil d rest), hjoin]
      rfl

/-- What was written is read back. -/
theorem decode_encode (bs : Bytes) : decode (encode bs) = .ok bs := by
  rw [decode, encode, Utf8.encode_ofList]
  match bs with
  | [] => rfl
  | b :: rest =>
    have hlength := length_encodeChars (b :: rest)
    have hstray : strayLast? (Utf8.encodeChars (encodeChars (b :: rest))) = none := by
      rw [strayLast?]
      split
      · rw [if_neg (by omega)]
      · rfl
    simp only [if_neg (encodeChars_cons_ne_nil b rest), hstray]
    exact decodeFrom_encodeChars 0 (b :: rest) (List.cons_ne_nil b rest)

end Base64

/-! ## 3. Either encoding -/

namespace Encoding

/-- The text of bytes is read back as the bytes. -/
theorem decode_encode (encoding : Encoding) (bs : Bytes) :
    encoding.decode (encoding.encode bs) = .ok bs := by
  cases encoding with
  | hex =>
    have hempty : ¬ (bs = [] ∧ Hex.encode bs ≠ "") := by
      rintro ⟨rfl, h⟩
      exact h rfl
    simp only [decode, encode, Hex.decodeLenient_encode, if_neg hempty]
  | base64 => simp only [decode, encode, decodeBase64, Base64.decode_encode, Except.mapError]

/-- Nothing is read from the empty text. -/
theorem decode_empty (encoding : Encoding) : encoding.decode "" = .ok [] := by
  cases encoding <;> rfl

/-- Only the empty byte string has the empty text. -/
theorem encode_eq_empty_iff (encoding : Encoding) {bs : Bytes} :
    encoding.encode bs = "" ↔ bs = [] := by
  constructor
  · intro h
    have hread := decode_encode encoding bs
    rw [h, decode_empty] at hread
    exact (Except.ok.inj hread).symm
  · rintro rfl
    cases encoding <;> rfl

end Encoding
end ColumnMasking
