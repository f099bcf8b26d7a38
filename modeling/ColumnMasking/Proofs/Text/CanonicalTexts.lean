/-
ColumnMasking.Proofs.Text.CanonicalTexts — which texts the strict readings
accept.

Every byte string has one Base64 text, and that is the one text that is
read as it (`Base64.decode_eq_ok_iff`). It has one hexadecimal text up to
letter case (`Hex.decode_eq_ok_iff`).

For hexadecimal text this goes through the values of its bytes: they are
the halves of what was read (`decodePairs_eq_ok_iff`), and a character
whose bytes have the value of a digit is that digit in some letter case
(`map_value?_char`). For Base64 it goes through the groups: a symbol is
determined by its number (`eq_symbolByte`), a group of four by its three
bytes (`encodeChars_joinFour`), and the last group by its one, two or three
bytes, because the bits that belong to no byte are zero
(`encodeChars_joinTwo`, `encodeChars_joinThree`).
-/
import ColumnMasking.Proofs.CallResults
import ColumnMasking.Proofs.Text.EncodingRoundTrip

namespace ColumnMasking

/-- A text is determined by its bytes. -/
theorem Utf8.encode_injective : Function.Injective Utf8.encode :=
  Function.LeftInverse.injective Utf8.decodeLossy_encode

/-! ## 1. Hexadecimal -/

namespace Hex

/-- A value of a digit is below sixteen. -/
theorem value?_lt {b : UInt8} {n : Nat} (h : value? b = some n) : n < 16 := by
  unfold value? at h
  simp only [UInt8.le_iff_toNat_le, UInt8.reduceToNat] at h
  split at h
  · obtain rfl := Option.some.inj h
    omega
  split at h
  · obtain rfl := Option.some.inj h
    omega
  split at h
  · obtain rfl := Option.some.inj h
    omega
  · simp at h

set_option maxRecDepth 8000 in
/-- The bytes that have a value are those below 128 that are the digits of
that value. -/
theorem value?_eq_some_iff : ∀ k < 256, ∀ n < 16,
    value? (UInt8.ofNat k) = some n ↔ k < 128 ∧ (Char.ofNat k).toLower = digit n := by
  decide

/-- Bytes from 128 on have no value. -/
theorem value?_of_le {k : Nat} (hlow : 128 ≤ k) (hhigh : k < 256) :
    value? (UInt8.ofNat k) = none := by
  rw [Option.eq_none_iff_forall_ne_some]
  intro n hn
  have hsmall := ((value?_eq_some_iff k hhigh n (value?_lt hn)).mp hn).left
  omega

/-- Digits are below 128. -/
theorem toNat_digit_lt : ∀ n < 16, (digit n).toNat < 128 := by
  decide

/-- A character from 128 on has no other letter case. -/
theorem toLower_of_le {c : Char} (h : 128 ≤ c.val.toNat) : c.toLower = c := by
  unfold Char.toLower
  rw [dif_neg]
  rintro ⟨-, hupper⟩
  have : c.val.toNat ≤ 90 := UInt32.le_iff_toNat_le.mp hupper
  omega

/-- A character from 128 on starts with a byte from 128 on. -/
theorem exists_lead {c : Char} (h : 128 ≤ c.val.toNat) :
    ∃ k tail, 128 ≤ k ∧ k < 256 ∧ String.utf8EncodeChar c = UInt8.ofNat k :: tail := by
  obtain ⟨b, tail, hbytes⟩ := Utf8.utf8EncodeChar_eq_cons c
  have hb : b ∈ String.utf8EncodeChar c := by
    rw [hbytes]
    exact List.mem_cons_self
  obtain ⟨k, hlow, hhigh, rfl⟩ := Utf8.le_of_mem_utf8EncodeChar h hb
  exact ⟨k, tail, hlow, hhigh, hbytes⟩

/-- A text starts with a digit of a value when its bytes start with that
value. -/
theorem map_value?_char (c : Char) {n : Nat} (hn : n < 16) (rest : Bytes)
    (vs : List (Option Nat)) :
    (String.utf8EncodeChar c ++ rest).map value? = some n :: vs
      ↔ c.toLower = digit n ∧ rest.map value? = vs := by
  by_cases hascii : c.val.toNat < 128
  · have hbytes := Utf8.utf8EncodeChar_of_lt hascii
    have hchar : Char.ofNat c.val.toNat = c := Char.ofNat_toNat c
    have hvalue := value?_eq_some_iff c.val.toNat (by omega) n hn
    rw [hchar] at hvalue
    simp only [hbytes, List.cons_append, List.nil_append, List.map_cons, List.cons.injEq, hvalue,
      hascii, true_and]
  · obtain ⟨k, tail, hlow, hhigh, hbytes⟩ := exists_lead (Nat.not_lt.mp hascii)
    constructor
    · intro h
      simp [hbytes, value?_of_le hlow hhigh] at h
    · rintro ⟨hlower, -⟩
      rw [toLower_of_le (Nat.not_lt.mp hascii)] at hlower
      have := toNat_digit_lt n hn
      rw [← hlower] at this
      exact absurd this hascii

/-- Bytes have the values of digits when the characters are those digits,
letter case aside. -/
theorem map_value?_iff : ∀ (ns : List Nat) (cs : List Char), (∀ n ∈ ns, n < 16) →
    ((Utf8.encodeChars cs).map value? = ns.map some ↔ cs.map Char.toLower = ns.map digit)
  | [], [], _ => by simp [Utf8.encodeChars_nil]
  | [], c :: cs, _ => by
    obtain ⟨b, tail, hbytes⟩ := Utf8.utf8EncodeChar_eq_cons c
    simp [Utf8.encodeChars_cons, hbytes]
  | n :: ns, [], _ => by simp [Utf8.encodeChars_nil]
  | n :: ns, c :: cs, h => by
    have ih := map_value?_iff ns cs fun m hm => h m (by simp [hm])
    rw [Utf8.encodeChars_cons, List.map_cons, map_value?_char c (h n (by simp)), ih]
    simp only [List.map_cons, List.cons.injEq]

/-- Halves of bytes are below sixteen. -/
theorem lt_of_mem_halves {bs : Bytes} {n : Nat} (h : n ∈ bs.flatMap halves) : n < 16 := by
  obtain ⟨b, -, hn⟩ := List.mem_flatMap.mp h
  have hb : b.toNat < 256 := b.toNat_lt
  simp only [halves, List.mem_cons, List.not_mem_nil, or_false] at hn
  omega

/-- The characters of a written text are the digits of the halves. -/
theorem toList_encode (bs : Bytes) : (encode bs).toList = (bs.flatMap halves).map digit := by
  rw [encode, String.toList_ofList, List.map_flatMap]
  rfl

/-- The halves of two digits put together are the digits. -/
theorem halves_ofNat {high low : Nat} (hhigh : high < 16) (hlow : low < 16) :
    halves (UInt8.ofNat (16 * high + low)) = [high, low] := by
  have hbyte : (UInt8.ofNat (16 * high + low)).toNat = 16 * high + low := by
    rw [UInt8.toNat_ofNat']
    omega
  have hfirst : (16 * high + low) / 16 = high := by omega
  have hsecond : (16 * high + low) % 16 = low := by omega
  rw [halves, hbyte, hfirst, hsecond]

/-- A digit is read as its value. -/
theorem digitAt_eq_ok_iff {offset n : Nat} {b : UInt8} :
    digitAt offset b = .ok n ↔ value? b = some n := by
  unfold digitAt
  cases value? b with
  | none => simp
  | some v => simp

/-- Pairs of digits are read as the bytes whose halves have their values. -/
theorem decodePairs_eq_ok_iff : ∀ (offset : Nat) (raw bs : Bytes),
    decodePairs offset raw = .ok bs ↔ raw.map value? = (bs.flatMap halves).map some
  | _, [], bs => by
    cases bs with
    | nil => simp [decodePairs]
    | cons b bs => simp [decodePairs, halves]
  | _, [x], bs => by
    cases bs with
    | nil => simp [decodePairs]
    | cons b bs => simp [decodePairs, halves]
  | offset, x :: y :: raw, bs => by
    rw [decodePairs]
    simp only [bind_eq_ok_iff, digitAt_eq_ok_iff, decodePairs_eq_ok_iff (offset + 2) raw]
    constructor
    · rintro ⟨high, hhigh, low, hlow, tail, htail, hbs⟩
      obtain rfl := Except.ok.inj hbs
      rw [List.flatMap_cons, halves_ofNat (value?_lt hhigh) (value?_lt hlow)]
      simp [hhigh, hlow, htail]
    · intro h
      cases bs with
      | nil => simp at h
      | cons b bs =>
        simp only [List.flatMap_cons, halves, List.cons_append, List.nil_append, List.map_cons,
          List.cons.injEq] at h
        obtain ⟨hhigh, hlow, htail⟩ := h
        refine ⟨_, hhigh, _, hlow, bs, htail, ?_⟩
        rw [Nat.div_add_mod, UInt8.ofNat_toNat]
        rfl

/-- A text is the written text of the bytes, in any letter case, when its
bytes have the values of the halves. -/
theorem toLower_eq_encode_iff {text : String} {bs : Bytes} :
    text.toLower = encode bs
      ↔ (Utf8.encode text).map value? = (bs.flatMap halves).map some := by
  have hlower : text.toLower.toList = text.toList.map Char.toLower := String.toList_map
  rw [Utf8.encode, map_value?_iff _ _ fun n hn => lt_of_mem_halves hn, ← toList_encode,
    ← String.toList_inj, hlower]

/-- The written text of bytes is twice as long. -/
theorem length_of_toLower {text : String} {bs : Bytes} (h : text.toLower = encode bs) :
    (Utf8.encode text).length = 2 * bs.length := by
  have hlength := congrArg List.length (toLower_eq_encode_iff.mp h)
  rwa [List.length_map, List.length_map, length_halves] at hlength

/-- The strict reading accepts the written text of the bytes, in any letter
case, and nothing else. -/
theorem decode_eq_ok_iff {text : String} {bs : Bytes} :
    decode text = .ok bs ↔ text.toLower = encode bs := by
  simp only [decode]
  split
  · rename_i hodd
    constructor
    · intro h
      simp at h
    · intro h
      rw [length_of_toLower h] at hodd
      omega
  · rw [decodePairs_eq_ok_iff, toLower_eq_encode_iff]

end Hex

/-! ## 2. Base64 -/

namespace Base64

set_option maxRecDepth 4000 in
/-- A symbol is the one of its number. -/
theorem eq_symbolByte {b : UInt8} {n : Nat} (h : value? b = some n) :
    n < 64 ∧ b = symbolByte n := by
  have htable : ∀ k < 256, (value? (UInt8.ofNat k)).all
      (fun n => n < 64 && UInt8.ofNat k = symbolByte n) = true := by
    decide
  have hb := htable b.toNat b.toNat_lt
  rw [UInt8.ofNat_toNat, h] at hb
  simpa using hb

/-- A symbol at any offset is read as its number. -/
theorem valueAt_eq_ok_iff {offset n : Nat} {b : UInt8} :
    valueAt offset b = .ok n ↔ value? b = some n := by
  unfold valueAt
  cases value? b with
  | none => simp
  | some v => simp

/-- Symbols that are read are those of their numbers. -/
theorem eq_map_symbolByte : ∀ {offset : Nat} {raw : Bytes} {vs : List Nat},
    valuesFrom offset raw = .ok vs → (∀ v ∈ vs, v < 64) ∧ raw = vs.map symbolByte
  | _, [], vs, h => by
    obtain rfl := Except.ok.inj h
    simp
  | offset, b :: raw, vs, h => by
    obtain ⟨v, hv, h⟩ := bind_eq_ok_iff.mp h
    obtain ⟨tail, htail, h⟩ := bind_eq_ok_iff.mp h
    obtain rfl := Except.ok.inj h
    obtain ⟨hlt, rfl⟩ := eq_symbolByte (valueAt_eq_ok_iff.mp hv)
    obtain ⟨hall, rfl⟩ := eq_map_symbolByte htail
    refine ⟨?_, rfl⟩
    intro u hu
    rcases List.mem_cons.mp hu with rfl | hu
    · exact hlt
    · exact hall u hu

/-- A byte that a number fits in has that number. -/
theorem toNat_ofNat_of_lt {n : Nat} (h : n < 256) : (UInt8.ofNat n).toNat = n := by
  rw [UInt8.toNat_ofNat', Nat.mod_eq_of_lt h]

/-- The written form of the three bytes of four symbols. -/
theorem encodeChars_joinFour {v w x y : Nat} (hv : v < 64) (hw : w < 64) (hx : x < 64)
    (hy : y < 64) (rest : Bytes) :
    Utf8.encodeChars (encodeChars (joinFour v w x y ++ rest))
      = [v, w, x, y].map symbolByte ++ Utf8.encodeChars (encodeChars rest) := by
  generalize hn : ((v * 64 + w) * 64 + x) * 64 + y = n
  have hbytes : (UInt8.ofNat (n / 65536)).toNat * 256 * 256 + (UInt8.ofNat (n / 256)).toNat * 256
      + (UInt8.ofNat n).toNat = n := by
    simp only [UInt8.toNat_ofNat']
    omega
  have hgroup := encodeChars_group (UInt8.ofNat (n / 65536)) (UInt8.ofNat (n / 256))
    (UInt8.ofNat n) rest (n := n) (by omega)
  have h1 : n / 262144 = v := by omega
  have h2 : n / 4096 % 64 = w := by omega
  have h3 : n / 64 % 64 = x := by omega
  have h4 : n % 64 = y := by omega
  rw [h1, h2, h3, h4] at hgroup
  simpa [joinFour, hn] using hgroup

/-- The written form of the byte of two symbols, where the bits that belong
to no byte are zero. -/
theorem encodeChars_joinTwo {v w : Nat} (hv : v < 64) (hw : w < 64) (hzero : w % 16 = 0) :
    Utf8.encodeChars (encodeChars [UInt8.ofNat (v * 4 + w / 16)])
      = [v, w].map symbolByte ++ [pad, pad] := by
  have hbyte : v * 64 + w = (UInt8.ofNat (v * 4 + w / 16)).toNat * 16 := by
    rw [toNat_ofNat_of_lt (by omega)]
    omega
  have h1 : (v * 64 + w) / 64 = v := by omega
  have h2 : (v * 64 + w) % 64 = w := by omega
  rw [encodeChars_one _ hbyte, h1, h2]
  rfl

/-- The written form of the two bytes of three symbols, where the bits that
belong to no byte are zero. -/
theorem encodeChars_joinThree {v w x : Nat} (hv : v < 64) (hw : w < 64) (hx : x < 64)
    (hzero : x % 4 = 0) :
    Utf8.encodeChars (encodeChars [UInt8.ofNat (((v * 64 + w) * 16 + x / 4) / 256),
        UInt8.ofNat ((v * 64 + w) * 16 + x / 4)])
      = [v, w, x].map symbolByte ++ [pad] := by
  have hbytes : (v * 64 + w) * 64 + x
      = ((UInt8.ofNat (((v * 64 + w) * 16 + x / 4) / 256)).toNat * 256
        + (UInt8.ofNat ((v * 64 + w) * 16 + x / 4)).toNat) * 4 := by
    simp only [UInt8.toNat_ofNat']
    omega
  have h1 : ((v * 64 + w) * 64 + x) / 4096 = v := by omega
  have h2 : ((v * 64 + w) * 64 + x) / 64 % 64 = w := by omega
  have h3 : ((v * 64 + w) * 64 + x) % 64 = x := by omega
  rw [encodeChars_two _ _ hbytes, h1, h2, h3]
  rfl

/-- The written form of what a last group of symbols is read as: the
symbols, filled up with padding. -/
theorem encodeChars_of_joinLast {offset : Nat} {symbols bs : Bytes} {vs : List Nat}
    (hvs : ∀ v ∈ vs, v < 64) (h : joinLast offset symbols vs = .ok bs) :
    Utf8.encodeChars (encodeChars bs)
      = vs.map symbolByte ++ List.replicate (4 - vs.length) pad := by
  unfold joinLast at h
  split at h
  · -- one byte
    rename_i v w
    simp only [List.mem_cons, List.not_mem_nil, or_false, forall_eq_or_imp, forall_eq] at hvs
    obtain ⟨hv, hw⟩ := hvs
    split at h
    · rename_i hzero
      obtain rfl := Except.ok.inj h
      exact encodeChars_joinTwo hv hw hzero
    · simp at h
  · -- two bytes
    rename_i v w x
    simp only [List.mem_cons, List.not_mem_nil, or_false, forall_eq_or_imp, forall_eq] at hvs
    obtain ⟨hv, hw, hx⟩ := hvs
    split at h
    · rename_i hzero
      obtain rfl := Except.ok.inj h
      exact encodeChars_joinThree hv hw hx hzero
    · simp at h
  · -- three bytes
    rename_i v w x y
    simp only [List.mem_cons, List.not_mem_nil, or_false, forall_eq_or_imp, forall_eq] at hvs
    obtain ⟨hv, hw, hx, hy⟩ := hvs
    obtain rfl := Except.ok.inj h
    have hgroup := encodeChars_joinFour hv hw hx hy []
    rw [List.append_nil] at hgroup
    exact hgroup
  · simp at h

/-- A last group that is read is the written form of its bytes. -/
theorem encodeChars_of_decodeLast {offset : Nat} {group bs : Bytes} (hfour : group.length ≤ 4)
    (h : decodeLast offset group = .ok bs) : Utf8.encodeChars (encodeChars bs) = group := by
  unfold decodeLast at h
  obtain ⟨vs, hvs, h⟩ := bind_eq_ok_iff.mp h
  obtain ⟨hall, hsymbols⟩ := eq_map_symbolByte hvs
  have hsplit := group.takeWhile_append_dropWhile (p := (· ≠ pad))
  generalize group.takeWhile (· ≠ pad) = symbols at *
  generalize group.dropWhile (· ≠ pad) = padding at *
  simp only at h
  split at h
  · exact absurd h nofun
  split at h
  · exact absurd h nofun
  split at h
  · exact absurd h nofun
  rename_i hpadding htwo hfull
  have hcount : symbols.length = vs.length := by
    rw [hsymbols, List.length_map]
  have hpads : padding = List.replicate padding.length pad := by
    refine List.eq_replicate_iff.mpr ⟨rfl, ?_⟩
    intro b hb
    by_contra hne
    refine hpadding ⟨List.ne_nil_of_mem hb, .inr (List.any_eq_true.mpr ⟨b, hb, ?_⟩)⟩
    exact decide_eq_true hne
  have hlength : padding.length = 4 - vs.length := by
    rw [← hsplit, List.length_append] at hfour
    omega
  rw [encodeChars_of_joinLast hall h, ← hsymbols, ← hlength, ← hpads, hsplit]

/-- Groups that are read are the written form of their bytes. -/
theorem encodeChars_of_decodeFrom : ∀ {offset : Nat} {raw bs : Bytes},
    decodeFrom offset raw = .ok bs → Utf8.encodeChars (encodeChars bs) = raw
  | offset, a :: b :: c :: d :: e :: rest, bs, h => by
    rw [decodeFrom] at h
    obtain ⟨v, hv, h⟩ := bind_eq_ok_iff.mp h
    obtain ⟨w, hw, h⟩ := bind_eq_ok_iff.mp h
    obtain ⟨x, hx, h⟩ := bind_eq_ok_iff.mp h
    obtain ⟨y, hy, h⟩ := bind_eq_ok_iff.mp h
    obtain ⟨tail, htail, h⟩ := bind_eq_ok_iff.mp h
    obtain rfl := Except.ok.inj h
    obtain ⟨hv64, rfl⟩ := eq_symbolByte (valueAt_eq_ok_iff.mp hv)
    obtain ⟨hw64, rfl⟩ := eq_symbolByte (valueAt_eq_ok_iff.mp hw)
    obtain ⟨hx64, rfl⟩ := eq_symbolByte (valueAt_eq_ok_iff.mp hx)
    obtain ⟨hy64, rfl⟩ := eq_symbolByte (valueAt_eq_ok_iff.mp hy)
    rw [encodeChars_joinFour hv64 hw64 hx64 hy64, encodeChars_of_decodeFrom htail]
    rfl
  | _, [], _, h => encodeChars_of_decodeLast (by simp) h
  | _, [_], _, h => encodeChars_of_decodeLast (by simp) h
  | _, [_, _], _, h => encodeChars_of_decodeLast (by simp) h
  | _, [_, _, _], _, h => encodeChars_of_decodeLast (by simp) h
  | _, [_, _, _, _], _, h => encodeChars_of_decodeLast (by simp) h

/-- The reading accepts the written text of the bytes and nothing else. -/
theorem decode_eq_ok_iff {text : String} {bs : Bytes} :
    decode text = .ok bs ↔ text = encode bs := by
  constructor
  · intro h
    refine Utf8.encode_injective ?_
    rw [encode, Utf8.encode_ofList]
    simp only [decode] at h
    split at h
    · rename_i hnil
      obtain rfl := Except.ok.inj h
      exact hnil
    · split at h
      · simp at h
      · exact (encodeChars_of_decodeFrom h).symm
  · rintro rfl
    exact decode_encode bs

end Base64

/-! ## 3. The strict readings of an encoding -/

namespace Encoding

variable {text : String} {bs : Bytes}

/-- Read strictly, a hexadecimal text is the written text of the bytes, in
any letter case. -/
theorem decodeHexStrict_eq_ok_iff : decodeHexStrict text = .ok bs ↔ text.toLower = Hex.encode bs :=
  mapError_eq_ok_iff.trans Hex.decode_eq_ok_iff

/-- A Base64 text that is read is the written text of the bytes. -/
theorem decodeBase64_eq_ok_iff : decodeBase64 text = .ok bs ↔ text = Base64.encode bs :=
  mapError_eq_ok_iff.trans Base64.decode_eq_ok_iff

end Encoding
end ColumnMasking
