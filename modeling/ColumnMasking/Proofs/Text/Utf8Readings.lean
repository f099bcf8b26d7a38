/-
ColumnMasking.Proofs.Text.Utf8Readings — the bytes that a reading consumes
are the bytes of what it gives.

A step that gives a character has taken its UTF-8 bytes off the front, and
no longer or other form of it (`eq_append_of_step`); the proof is the
converse of `step_utf8EncodeChar` and has the same cases, by the length that
the first byte announces. The strict reading therefore accepts the bytes of
texts and nothing else (`decode?_eq_some_iff`).

The lossy reading gives a character or a replacement character at each step.
Where none of what it gives is the replacement character, it has replaced
nothing, and its bytes are those of the text (`decodeLossy_eq_iff`). Where
the bytes are no text, one is there (`replacement_mem_of_decode?`).
-/
import ColumnMasking.Proofs.Text.Utf8RoundTrip

namespace ColumnMasking.Utf8

/-! ## 1. Bytes that announce or continue -/

/-- A first byte that announces others is that of a character of two, three
or four bytes. -/
theorem lead?_cases {b : UInt8} {l : Lead} (h : lead? b = some l) :
    (∃ a, 2 ≤ a ∧ a < 32 ∧ b = UInt8.ofNat (a + 0xC0) ∧ l = ⟨a, 0, 0x80, 0xBF⟩) ∨
    (∃ a < 16, b = UInt8.ofNat (a + 0xE0)
      ∧ l = ⟨a, 1, if a = 0 then 0xA0 else 0x80, if a = 13 then 0x9F else 0xBF⟩) ∨
    (∃ a < 5, b = UInt8.ofNat (a + 0xF0)
      ∧ l = ⟨a, 2, if a = 0 then 0x90 else 0x80, if a = 4 then 0x8F else 0xBF⟩) := by
  have hbyte : ∀ base, base ≤ b.toNat → b = UInt8.ofNat (b.toNat - base + base) := by
    intro base hbase
    rw [Nat.sub_add_cancel hbase, UInt8.ofNat_toNat]
  unfold lead? at h
  simp only [UInt8.le_iff_toNat_le, ← UInt8.toNat_inj, UInt8.reduceToNat] at h
  split at h
  · obtain rfl := Option.some.inj h
    exact .inl ⟨b.toNat - 0xC0, by omega, by omega, hbyte _ (by omega), rfl⟩
  split at h
  · obtain rfl := Option.some.inj h
    exact .inr (.inl ⟨0, by omega, UInt8.toNat_inj.mp (by assumption), rfl⟩)
  split at h
  · obtain rfl := Option.some.inj h
    exact .inr (.inl ⟨13, by omega, UInt8.toNat_inj.mp (by assumption), rfl⟩)
  split at h
  · obtain rfl := Option.some.inj h
    refine .inr (.inl ⟨b.toNat - 0xE0, by omega, hbyte _ (by omega), ?_⟩)
    rw [if_neg (by omega), if_neg (by omega)]
  split at h
  · obtain rfl := Option.some.inj h
    exact .inr (.inr ⟨0, by omega, UInt8.toNat_inj.mp (by assumption), rfl⟩)
  split at h
  · obtain rfl := Option.some.inj h
    refine .inr (.inr ⟨b.toNat - 0xF0, by omega, hbyte _ (by omega), ?_⟩)
    rw [if_neg (by omega), if_neg (by omega)]
  split at h
  · obtain rfl := Option.some.inj h
    exact .inr (.inr ⟨4, by omega, UInt8.toNat_inj.mp (by assumption), rfl⟩)
  · exact absurd h nofun

/-- A run that gives a character has taken a continuation byte in range. -/
theorem exists_continuation {bits more : Nat} {low high : UInt8} {bs left : Bytes} {c : Char}
    (hlow : 0x80 ≤ low.toNat) (hhigh : high.toNat ≤ 0xBF)
    (h : follow bits more low high bs = (some c, left)) :
    ∃ t rest, t < 64 ∧ low.toNat ≤ t + 0x80 ∧ t + 0x80 ≤ high.toNat
      ∧ bs = UInt8.ofNat (t + 0x80) :: rest := by
  cases bs with
  | nil => simp [follow] at h
  | cons b rest =>
    rw [follow] at h
    split at h
    · rename_i hrange
      rw [UInt8.le_iff_toNat_le, UInt8.le_iff_toNat_le] at hrange
      refine ⟨b.toNat - 0x80, rest, by omega, by omega, by omega, ?_⟩
      rw [Nat.sub_add_cancel (by omega), UInt8.ofNat_toNat]
    · simp at h

/-- The last byte of a character, read backwards. -/
theorem follow_zero_eq_some {bits : Nat} {low high : UInt8} {bs left : Bytes} {c : Char}
    (hlow : 0x80 ≤ low.toNat) (hhigh : high.toNat ≤ 0xBF)
    (h : follow bits 0 low high bs = (some c, left)) :
    ∃ t < 64, low.toNat ≤ t + 0x80 ∧ t + 0x80 ≤ high.toNat
      ∧ bs = UInt8.ofNat (t + 0x80) :: left ∧ c = Char.ofNat (bits * 64 + t) := by
  obtain ⟨t, rest, ht, hfrom, hto, rfl⟩ := exists_continuation hlow hhigh h
  rw [follow_last ht hfrom hto] at h
  obtain ⟨hc, rfl⟩ := Prod.mk.inj h
  exact ⟨t, ht, hfrom, hto, rfl, (Option.some.inj hc).symm⟩

/-- Any other byte of a character, read backwards. -/
theorem follow_succ_eq_some {bits more : Nat} {low high : UInt8} {bs left : Bytes} {c : Char}
    (hlow : 0x80 ≤ low.toNat) (hhigh : high.toNat ≤ 0xBF)
    (h : follow bits (more + 1) low high bs = (some c, left)) :
    ∃ t < 64, ∃ rest, low.toNat ≤ t + 0x80 ∧ t + 0x80 ≤ high.toNat
      ∧ bs = UInt8.ofNat (t + 0x80) :: rest
      ∧ follow (bits * 64 + t) more 0x80 0xBF rest = (some c, left) := by
  obtain ⟨t, rest, ht, hfrom, hto, rfl⟩ := exists_continuation hlow hhigh h
  rw [follow_more ht hfrom hto] at h
  exact ⟨t, ht, rest, hfrom, hto, rfl, h⟩

/-! ## 2. One character -/

/-- A number that is no surrogate and in range is the number of its
character. -/
theorem val_ofNat {n : Nat} (h : n < 0xD800 ∨ (0xDFFF < n ∧ n < 0x110000)) :
    (Char.ofNat n).val.toNat = n := by
  have hvalid : n.isValidChar := h
  rw [Char.ofNat, dif_pos hvalid]
  rfl

/-- The two bytes of a character, from the bits of its number. -/
theorem utf8EncodeChar_two {a t : Nat} (hlow : 2 ≤ a) (hhigh : a < 32) (ht : t < 64) :
    String.utf8EncodeChar (Char.ofNat (a * 64 + t))
      = [UInt8.ofNat (a + 0xC0), UInt8.ofNat (t + 0x80)] := by
  have hvalue := val_ofNat (n := a * 64 + t) (by omega)
  have hfirst : (a * 64 + t) / 64 % 0x20 = a := by omega
  have hlast : (a * 64 + t) % 0x40 = t := by omega
  simp only [String.utf8EncodeChar, hvalue, hfirst, hlast]
  rw [if_neg (by omega), if_pos (by omega)]

/-- The three bytes of a character, if two would not do and it is no
surrogate. -/
theorem utf8EncodeChar_three {a s t n : Nat} (ha : a < 16) (hs : s < 64) (ht : t < 64)
    (hn : n = (a * 64 + s) * 64 + t) (hwide : 0x800 ≤ n) (hscalar : n < 0xD800 ∨ 0xDFFF < n) :
    String.utf8EncodeChar (Char.ofNat n)
      = [UInt8.ofNat (a + 0xE0), UInt8.ofNat (s + 0x80), UInt8.ofNat (t + 0x80)] := by
  have hvalue := val_ofNat (n := n) (by omega)
  have hfirst : n / 4096 % 0x10 = a := by omega
  have hsecond : n / 64 % 0x40 = s := by omega
  have hlast : n % 0x40 = t := by omega
  simp only [String.utf8EncodeChar, hvalue, hfirst, hsecond, hlast]
  rw [if_neg (by omega), if_neg (by omega), if_pos (by omega)]

/-- The four bytes of a character, if three would not do and it is in
range. -/
theorem utf8EncodeChar_four {a r s t n : Nat} (hr : r < 64) (hs : s < 64) (ht : t < 64)
    (hn : n = ((a * 64 + r) * 64 + s) * 64 + t) (hwide : 0x10000 ≤ n) (hrange : n < 0x110000) :
    String.utf8EncodeChar (Char.ofNat n)
      = [UInt8.ofNat (a + 0xF0), UInt8.ofNat (r + 0x80), UInt8.ofNat (s + 0x80),
        UInt8.ofNat (t + 0x80)] := by
  have hvalue := val_ofNat (n := n) (by omega)
  have hfirst : n / 262144 % 0x08 = a := by omega
  have hsecond : n / 4096 % 0x40 = r := by omega
  have hthird : n / 64 % 0x40 = s := by omega
  have hlast : n % 0x40 = t := by omega
  simp only [String.utf8EncodeChar, hvalue, hfirst, hsecond, hthird, hlast]
  rw [if_neg (by omega), if_neg (by omega), if_neg (by omega)]

/-- A step that gives a character has taken its bytes off the front. -/
theorem eq_append_of_step {b : UInt8} {rest left : Bytes} {c : Char}
    (h : step b rest = (some c, left)) : b :: rest = String.utf8EncodeChar c ++ left := by
  unfold step at h
  split at h
  · -- one byte
    rename_i hsmall
    obtain ⟨hc, rfl⟩ := Prod.mk.inj h
    obtain rfl := Option.some.inj hc
    have hb : b.toNat < 0x80 := UInt8.lt_iff_toNat_lt.mp hsmall
    rw [String.utf8EncodeChar, val_ofNat (by omega), if_pos (by omega), UInt8.ofNat_toNat]
    rfl
  split at h
  · exact absurd h nofun
  rename_i l hlead
  -- the range that the first byte leaves to the second rules out what is too
  -- narrow, a surrogate or out of range
  rcases lead?_cases hlead with ⟨a, hfrom, hto, rfl, rfl⟩ | ⟨a, ha, rfl, rfl⟩ | ⟨a, ha, rfl, rfl⟩
  · -- two bytes
    have hrest : follow a 0 0x80 0xBF rest = (some c, left) := h
    obtain ⟨t, ht, -, -, rfl, rfl⟩ := follow_zero_eq_some (by decide) (by decide) hrest
    rw [utf8EncodeChar_two hfrom hto ht]
    rfl
  · -- three bytes
    simp only at h
    obtain ⟨s, hs, rest, hlow, hhigh, rfl, hfinal⟩ :=
      follow_succ_eq_some (by split <;> simp) (by split <;> simp) h
    obtain ⟨t, ht, -, -, rfl, rfl⟩ := follow_zero_eq_some (by decide) (by decide) hfinal
    have hwide : 0x800 ≤ (a * 64 + s) * 64 + t := by
      split at hlow <;> simp at hlow <;> omega
    have hscalar : (a * 64 + s) * 64 + t < 0xD800 ∨ 0xDFFF < (a * 64 + s) * 64 + t := by
      split at hhigh <;> simp at hhigh <;> omega
    rw [utf8EncodeChar_three ha hs ht rfl hwide hscalar]
    rfl
  · -- four bytes
    simp only at h
    obtain ⟨r, hr, rest, hlow, hhigh, rfl, hnext⟩ :=
      follow_succ_eq_some (by split <;> simp) (by split <;> simp) h
    obtain ⟨s, hs, rest, -, -, rfl, hfinal⟩ := follow_succ_eq_some (by decide) (by decide) hnext
    obtain ⟨t, ht, -, -, rfl, rfl⟩ := follow_zero_eq_some (by decide) (by decide) hfinal
    have hwide : 0x10000 ≤ ((a * 64 + r) * 64 + s) * 64 + t := by
      split at hlow <;> simp at hlow <;> omega
    have hrange : ((a * 64 + r) * 64 + s) * 64 + t < 0x110000 := by
      split at hhigh <;> simp at hhigh <;> omega
    rw [utf8EncodeChar_four hr hs ht rfl hwide hrange]
    rfl

/-! ## 3. Whole texts -/

/-- The strict reading accepts the bytes of texts and nothing else. -/
theorem decode?_eq_some_iff {bs : Bytes} {cs : List Char} :
    decode? bs = some cs ↔ encodeChars cs = bs := by
  constructor
  · intro h
    fun_induction decode? bs generalizing cs with
    | case1 =>
      obtain rfl := Option.some.inj h
      rfl
    | case2 => simp at h
    | case3 b rest c hc ih =>
      obtain ⟨cs', hcs', rfl⟩ := Option.map_eq_some_iff.mp h
      rw [encodeChars_cons, ih hcs']
      exact (eq_append_of_step (Prod.ext hc rfl)).symm
  · rintro rfl
    exact decode?_encodeChars cs

/-- Where the lossy reading gives no replacement character, it has replaced
nothing. -/
theorem encodeChars_decodeLossyChars {bs : Bytes} (h : replacement ∉ decodeLossyChars bs) :
    encodeChars (decodeLossyChars bs) = bs := by
  fun_induction decodeLossyChars bs with
  | case1 => rfl
  | case2 b rest ih =>
    rw [List.mem_cons, not_or] at h
    obtain ⟨hfirst, hrest⟩ := h
    cases hc : (step b rest).1 with
    | none =>
      rw [hc] at hfirst
      exact absurd rfl hfirst
    | some c =>
      rw [Option.getD_some, encodeChars_cons, ih hrest]
      exact (eq_append_of_step (Prod.ext hc rfl)).symm

/-- Bytes that are no text leave a replacement character in what is read. -/
theorem replacement_mem_of_decode? {bs : Bytes} (h : decode? bs = none) :
    replacement ∈ (decodeLossy bs).toList := by
  rw [decodeLossy, String.toList_ofList]
  by_contra hnone
  have hstrict := decode?_encodeChars (decodeLossyChars bs)
  rw [encodeChars_decodeLossyChars hnone, h] at hstrict
  simp at hstrict

/-- The lossy reading loses nothing of the bytes of a text, and of no other
bytes. -/
theorem encode_decodeLossy_iff {bs : Bytes} :
    encode (decodeLossy bs) = bs ↔ ∃ cs, decode? bs = some cs := by
  constructor
  · intro h
    exact ⟨(decodeLossy bs).toList, decode?_eq_some_iff.mpr h⟩
  · rintro ⟨cs, hcs⟩
    rw [encode, decodeLossy, String.toList_ofList, decodeLossyChars_of_decode? hcs,
      decode?_eq_some_iff.mp hcs]

/-- A text without a replacement character is the lossy reading of its own
bytes alone. -/
theorem decodeLossy_eq_iff {bs : Bytes} {text : String} (h : replacement ∉ text.toList) :
    decodeLossy bs = text ↔ bs = encode text := by
  constructor
  · rintro rfl
    rw [decodeLossy, String.toList_ofList] at h
    rw [encode, decodeLossy, String.toList_ofList, encodeChars_decodeLossyChars h]
  · rintro rfl
    exact decodeLossy_encode text

end ColumnMasking.Utf8
