/-
ColumnMasking.Proofs.Text.LenientReading — the lenient reading gives the
digits of a text, in order, and nothing else.

The digits of a text are its characters from `0` to `9`, `A` to `F` and `a`
to `f` (`digitChars`). The reading looks at bytes, not at characters; that
is the same, as all bytes of a character from 128 on are from 128 on too and
have no value (`digits_eq`). So the reading is the strict one of these
digits, with a zero in front where their count is odd
(`decode_evened_digitChars`).

The bytes can also be made by writing: into a buffer of zeros, one digit
after the other, each into the half of a byte that its position says.
`shiftIn?` is one such write and gives nothing where the buffer has no such
byte. `fill?_digitChars` says that no write misses the buffer and that the
bytes of the reading are left in it. The invariant holds after every pair of
writes: the bytes before the position are finished, those from it on are
zero (`fill?_pack`). An odd count of digits starts in the second half of the
first byte and is even from there on.
-/
import ColumnMasking.Proofs.Text.DigitNumbers

namespace ColumnMasking.Hex

/-! ## 1. The digits of a text -/

/-- The digits of a text, all else left out. -/
def digitChars (text : String) : List Char :=
  text.toList.filter fun c => IsDigit c

theorem isDigit_of_mem_digitChars {text : String} : ∀ c ∈ digitChars text, IsDigit c := by
  intro c hc
  simpa using (List.mem_filter.mp hc).right

/-- Of the bytes of a character those of a digit have its value, and those
of any other character have none. -/
theorem filterMap_value?_char (c : Char) :
    (String.utf8EncodeChar c).filterMap value? = if IsDigit c then [digitValue c] else [] := by
  by_cases hascii : c.val.toNat < 128
  · have hbytes := Utf8.utf8EncodeChar_of_lt hascii
    have hchar : Char.ofNat c.val.toNat = c := Char.ofNat_toNat c
    have hvalue : ∀ n < 16, value? (UInt8.ofNat c.val.toNat) = some n
        ↔ IsDigit c ∧ digitValue c = n := by
      intro n hn
      rw [value?_eq_some_iff c.val.toNat (by omega) n hn, hchar, toLower_eq_digit_iff c hn]
      exact and_iff_right hascii
    by_cases hdigit : IsDigit c
    · have hsome := (hvalue (digitValue c) hdigit.value_lt).mpr ⟨hdigit, rfl⟩
      rw [hbytes, List.filterMap_cons_some hsome, if_pos hdigit, List.filterMap_nil]
    · have hnone : value? (UInt8.ofNat c.val.toNat) = none := by
        rw [Option.eq_none_iff_forall_ne_some]
        intro n hn
        exact hdigit ((hvalue n (value?_lt hn)).mp hn).left
      rw [hbytes, List.filterMap_cons_none hnone, if_neg hdigit, List.filterMap_nil]
  · have hnone : ∀ b ∈ String.utf8EncodeChar c, value? b = none := by
      intro b hb
      obtain ⟨k, hlow, hhigh, rfl⟩ := Utf8.le_of_mem_utf8EncodeChar (Nat.not_lt.mp hascii) hb
      exact value?_of_le hlow hhigh
    rw [List.filterMap_eq_nil_iff.mpr hnone, if_neg fun hdigit => hascii hdigit.lt]

/-- The values read are those of the digits, in order. -/
theorem digits_eq (text : String) : digits text = (digitChars text).map digitValue := by
  rw [digits, digitChars, Utf8.encode]
  induction text.toList with
  | nil => rfl
  | cons c cs ih =>
    rw [Utf8.encodeChars_cons, List.filterMap_append, filterMap_value?_char, ih]
    by_cases hdigit : IsDigit c
    · rw [if_pos hdigit, List.filter_cons_of_pos (by simpa using hdigit)]
      rfl
    · rw [if_neg hdigit, List.filter_cons_of_neg (by simpa using hdigit)]
      rfl

/-! ## 2. The strict reading of the digits -/

/-- The digits with a zero in front where their count is odd. -/
def evened (cs : List Char) : List Char :=
  if cs.length % 2 = 1 then '0' :: cs else cs

/-- An odd count is rounded up. -/
theorem length_evened (cs : List Char) : (evened cs).length = 2 * ((cs.length + 1) / 2) := by
  unfold evened
  split
  · rw [List.length_cons]
    omega
  · omega

theorem isDigit_of_mem_evened {cs : List Char} (h : ∀ c ∈ cs, IsDigit c) :
    ∀ c ∈ evened cs, IsDigit c := by
  unfold evened
  split
  · exact List.forall_mem_cons.mpr ⟨by decide, h⟩
  · exact h

/-- What is read is packed from the values of the digits, in order and none
left out. -/
theorem decodeLenient_eq_pack (text : String) :
    decodeLenient text = pack ((evened (digitChars text)).map digitValue) := by
  simp only [decodeLenient, digits_eq, List.length_map, evened]
  split
  · rfl
  · rfl

/-- Digits in an even count are read strictly as what is read leniently of
the text around them. -/
theorem decode_evened_digitChars (text : String) :
    decode (String.ofList (evened (digitChars text))) = .ok (decodeLenient text) := by
  have hspells : Spells (evened (digitChars text)) ((evened (digitChars text)).map digitValue) :=
    spells_iff.mpr ⟨isDigit_of_mem_evened isDigit_of_mem_digitChars, rfl⟩
  rw [decodeLenient_eq_pack]
  refine decode_of_spells hspells ?_
  rw [List.length_map, length_evened]
  omega

/-- There is a byte for every two digits, and one for an odd one. -/
theorem length_decodeLenient (text : String) :
    (decodeLenient text).length = ((digitChars text).length + 1) / 2 := by
  rw [decodeLenient_eq_pack, length_pack, List.length_map, length_evened]
  omega

/-- The halves of the bytes are the values of the digits. -/
theorem flatMap_halves_decodeLenient (text : String) :
    (decodeLenient text).flatMap halves = (evened (digitChars text)).map digitValue := by
  rw [decodeLenient_eq_pack]
  refine flatMap_halves_pack ?_ ?_
  · intro n hn
    obtain ⟨c, hc, rfl⟩ := List.mem_map.mp hn
    exact (isDigit_of_mem_evened isDigit_of_mem_digitChars c hc).value_lt
  · rw [List.length_map, length_evened]
    omega

/-! ## 3. Writing digit by digit -/

/-- The buffer after a value is shifted into the byte at a place, if there
is one. -/
def shiftIn? (buffer : Bytes) (place value : Nat) : Option Bytes :=
  if h : place < buffer.length then
    some (buffer.set place (buffer[place] <<< 4 ||| UInt8.ofNat value))
  else none

/-- The buffer after values are shifted in one after the other. Positions
count halves of bytes. -/
def fill? (buffer : Bytes) (position : Nat) : List Nat → Option Bytes
  | [] => some buffer
  | v :: vs =>
    (shiftIn? buffer (position / 2) v).bind fun buffer => fill? buffer (position + 1) vs

/-- A value is shifted into the byte after those in front. -/
theorem shiftIn?_append (front : Bytes) (b : UInt8) (rest : Bytes) (value : Nat) :
    shiftIn? (front ++ b :: rest) front.length value
      = some (front ++ (b <<< 4 ||| UInt8.ofNat value) :: rest) := by
  have hplace : front.length < (front ++ b :: rest).length := by simp
  rw [shiftIn?, dif_pos hplace]
  simp

/-- Shifting into a zero leaves the value alone. -/
theorem shift_zero (value : Nat) : (0 : UInt8) <<< 4 ||| UInt8.ofNat value = UInt8.ofNat value := by
  simp

/-- Shifting a second value into a byte makes the first one its upper half. -/
theorem shift_value : ∀ high < 16, ∀ low < 16,
    UInt8.ofNat high <<< 4 ||| UInt8.ofNat low = UInt8.ofNat (16 * high + low) := by
  decide

/-- An even count of values, written into as many zero bytes as it needs,
leaves its bytes there and those in front as they are. -/
theorem fill?_pack : ∀ (front : Bytes) (ns : List Nat), (∀ n ∈ ns, n < 16) → ns.length % 2 = 0 →
    fill? (front ++ List.replicate (ns.length / 2) 0) (2 * front.length) ns
      = some (front ++ pack ns)
  | front, [], _, _ => rfl
  | _, [_], _, heven => by simp at heven
  | front, high :: low :: ns, hsmall, heven => by
    have hbyte := shift_value high (hsmall high (by simp)) low (hsmall low (by simp))
    have hroom : (high :: low :: ns).length / 2 = ns.length / 2 + 1 := by
      simp only [List.length_cons]
      omega
    have hfirst : 2 * front.length / 2 = front.length := by omega
    have hsecond : (2 * front.length + 1) / 2 = front.length := by omega
    -- the pair is written, and its byte is one more in front
    have ih := fill?_pack (front ++ [UInt8.ofNat (16 * high + low)]) ns
      (fun n hn => hsmall n (by simp [hn])) (by simp only [List.length_cons] at heven; omega)
    have hnext : 2 * (front ++ [UInt8.ofNat (16 * high + low)]).length
        = 2 * front.length + 1 + 1 := by
      simp only [List.length_append, List.length_singleton]
      omega
    rw [hnext, List.append_assoc, List.append_assoc] at ih
    rw [hroom, List.replicate_succ, fill?, hfirst, shiftIn?_append, shift_zero,
      Option.bind_some, fill?, hsecond, shiftIn?_append, hbyte, Option.bind_some]
    exact ih

/-- An odd count of values, written from the second half of the first byte
on, leaves the first value there and the others in pairs after it. -/
theorem fill?_cons_pack (n : Nat) {ns : List Nat} (hsmall : ∀ m ∈ ns, m < 16)
    (heven : ns.length % 2 = 0) :
    fill? (List.replicate (ns.length / 2 + 1) 0) 1 (n :: ns)
      = some (UInt8.ofNat n :: pack ns) := by
  have hfirst : shiftIn? (0 :: List.replicate (ns.length / 2) 0) (1 / 2) n
      = some (UInt8.ofNat n :: List.replicate (ns.length / 2) 0) := by
    have hwritten := shiftIn?_append [] 0 (List.replicate (ns.length / 2) 0) n
    rwa [shift_zero] at hwritten
  rw [List.replicate_succ, fill?, hfirst, Option.bind_some]
  exact fill?_pack [UInt8.ofNat n] ns hsmall heven

/-- Values, written from the first half on or from the second one if their
count is odd, never miss a buffer of as many zero bytes as they need. -/
theorem fill?_values {ns : List Nat} (hsmall : ∀ n ∈ ns, n < 16) :
    fill? (List.replicate ((ns.length + 1) / 2) 0) (ns.length % 2) ns
      = some (pack (if ns.length % 2 = 1 then 0 :: ns else ns)) := by
  by_cases hodd : ns.length % 2 = 1
  · obtain ⟨n, tail, rfl⟩ : ∃ n tail, ns = n :: tail :=
      List.exists_cons_of_length_pos (by omega)
    obtain ⟨-, htail⟩ := List.forall_mem_cons.mp hsmall
    have heven : tail.length % 2 = 0 := by
      rw [List.length_cons] at hodd
      omega
    have hroom : ((n :: tail).length + 1) / 2 = tail.length / 2 + 1 := by
      rw [List.length_cons]
      omega
    rw [if_pos hodd, hodd, hroom, fill?_cons_pack n htail heven, pack, Nat.mul_zero, Nat.zero_add]
  · have heven : ns.length % 2 = 0 := by omega
    have hroom : (ns.length + 1) / 2 = ns.length / 2 := by omega
    rw [if_neg hodd, heven, hroom]
    exact fill?_pack [] ns hsmall heven

/-- The digits of a text, written into as many zero bytes as they need,
leave there what is read of the text. -/
theorem fill?_digitChars (text : String) :
    fill? (List.replicate (((digitChars text).length + 1) / 2) 0) ((digitChars text).length % 2)
      ((digitChars text).map digitValue) = some (decodeLenient text) := by
  have hsmall : ∀ n ∈ (digitChars text).map digitValue, n < 16 := by
    intro n hn
    obtain ⟨c, hc, rfl⟩ := List.mem_map.mp hn
    exact (isDigit_of_mem_digitChars c hc).value_lt
  have hfilled := fill?_values hsmall
  rw [List.length_map] at hfilled
  rw [hfilled, decodeLenient, digits_eq, List.length_map]

/-! ## 4. Texts of the same digits -/

/-- Both texts have the same digits in the same order, letter case aside,
and at least one. -/
structure SameDigits (text other : String) : Prop where
  nonempty : digitChars text ≠ []
  same : (digitChars text).map Char.toLower = (digitChars other).map Char.toLower

/-- Digits that differ in letter case alone have the same values. -/
theorem map_digitValue_of_toLower : ∀ {cs ds : List Char}, (∀ c ∈ cs, IsDigit c) →
    (∀ d ∈ ds, IsDigit d) → cs.map Char.toLower = ds.map Char.toLower →
    cs.map digitValue = ds.map digitValue
  | [], [], _, _, _ => rfl
  | [], _ :: _, _, _, h => by simp at h
  | _ :: _, [], _, _, h => by simp at h
  | c :: cs, d :: ds, hcs, hds, h => by
    obtain ⟨hc, hrest⟩ := List.forall_mem_cons.mp hcs
    obtain ⟨hd, hrest'⟩ := List.forall_mem_cons.mp hds
    obtain ⟨hlower, htail⟩ := List.cons.inj h
    -- the lower case of either is the digit of its value
    have hvalue : digitValue c = digitValue d := by
      have hfirst := (toLower_eq_digit_iff c hc.value_lt).mpr ⟨hc, rfl⟩
      rw [hlower] at hfirst
      exact ((toLower_eq_digit_iff d hc.value_lt).mp hfirst).right.symm
    rw [List.map_cons, List.map_cons, hvalue, map_digitValue_of_toLower hrest hrest' htail]

namespace SameDigits

variable {text other : String}

/-- The same is read of both texts, and it is not empty. -/
theorem decodeLenient_eq (h : SameDigits text other) :
    decodeLenient text = decodeLenient other ∧ decodeLenient text ≠ [] := by
  have hdigits : ∀ c ∈ digitChars text, IsDigit c := isDigit_of_mem_digitChars
  have hothers : ∀ c ∈ digitChars other, IsDigit c := isDigit_of_mem_digitChars
  have hvalues := map_digitValue_of_toLower hdigits hothers h.same
  constructor
  · simp only [decodeLenient, digits_eq, hvalues]
  · intro hnil
    have hlength := length_decodeLenient text
    have hpositive : 0 < (digitChars text).length := List.length_pos_iff.mpr h.nonempty
    rw [hnil, List.length_nil] at hlength
    omega

/-- Both texts are payloads of the same bytes under hexadecimal. -/
theorem decode_eq (h : SameDigits text other) :
    Encoding.hex.decode text = Encoding.hex.decode other := by
  obtain ⟨hread, hne⟩ := h.decodeLenient_eq
  have hne' : decodeLenient other ≠ [] := hread ▸ hne
  simp only [Encoding.decode, hread, hne', false_and, if_false]

/-- Neither text is empty. -/
theorem ne_empty (h : SameDigits text other) : text ≠ "" ∧ other ≠ "" := by
  constructor
  · rintro rfl
    exact h.nonempty rfl
  · rintro rfl
    exact h.nonempty (List.map_eq_nil_iff.mp h.same)

end SameDigits
end ColumnMasking.Hex
