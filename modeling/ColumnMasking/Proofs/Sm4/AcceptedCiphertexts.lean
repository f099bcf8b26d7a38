/-
ColumnMasking.Proofs.Sm4.AcceptedCiphertexts — deciphering accepts exactly
what enciphering produces, in every mode.

`Mode.decryptRow_accepts_exactly` is the main statement. Under
a key of sixteen bytes and an IV that the mode admits,

* a ciphertext that is not empty gives a text that is not empty exactly
  when the text gives the ciphertext;
* one ciphertext of sixteen bytes, and no other, gives the empty text;
* in GCM a genuine ciphertext changed in its last sixteen bytes alone is
  refused for its tag.

GCM limits the length of a text and of the additional data to
`Gcm.maxLength`. Beyond that limit enciphering fails, and so does
deciphering under additional data that is too long: the one ciphertext of
the empty text is then refused like any other.

The proof goes through `Mode.enciphered`, the ciphertext of a text where
nothing fails: `encryptRow_eq_ok_iff` and `decryptRow_eq_ok_iff` compare
both directions with it.
-/
import ColumnMasking.Proofs.CallResults
import ColumnMasking.Proofs.Sm4.ModeTheorems

namespace ColumnMasking.Sm4

/-! ## 1. Lengths -/

/-- A padded text has as many blocks as it needs. -/
theorem length_blocksOf_pad (text : Bytes) :
    (blocksOf (Padding.pad text)).length = text.length / 16 + 1 := by
  have h := congrArg List.length (flatMap_toBytes_blocksOf_pad text)
  rw [length_flatMap_toBytes, Padding.length_pad] at h
  omega

/-- Chaining keeps the count of blocks. -/
theorem Cbc.length_chain (ks : List Word) : ∀ (previous : Block) (bs : List Block),
    (chain ks previous bs).length = bs.length
  | _, [] => rfl
  | previous, b :: bs => by
    rw [chain, List.length_cons, length_chain ks _ bs, List.length_cons]

/-- A ciphertext has as many blocks as the padded text. -/
theorem Cbc.length_enciphered (ks : List Word) (iv text : Bytes) :
    (enciphered ks iv text).length = 16 * (text.length / 16 + 1) := by
  rw [enciphered, length_flatMap_toBytes, length_chain, length_blocksOf_pad]

namespace Mode

/-! ## 2. What a mode admits -/

/-- The IVs that a mode runs under. A mode without an IV does not look at
the one given. -/
def AdmitsIv (mode : Mode) (iv : Option Iv) : Prop :=
  match mode with
  | ecb => True
  | cbc => ∃ v, iv = some v ∧ v.bytes.length ∈ [blockLength]
  | gcm => ∃ v, iv = some v ∧ v.bytes.length ∈ Iv.nonceLengths

theorem admitsIv_of_require_cbc {iv : Option Iv} {bs : Bytes}
    (h : Iv.require .cbc iv [blockLength] = .ok bs) : cbc.AdmitsIv iv := by
  obtain ⟨v, rfl, -, hlength⟩ := Iv.exists_of_require h
  exact ⟨v, rfl, hlength⟩

theorem admitsIv_of_require_gcm {iv : Option Iv} {bs : Bytes}
    (h : Iv.require .gcm iv Iv.nonceLengths = .ok bs) : gcm.AdmitsIv iv := by
  obtain ⟨v, rfl, -, hlength⟩ := Iv.exists_of_require h
  exact ⟨v, rfl, hlength⟩

/-- The bytes are no more than a limit that GCM alone has. -/
def Within (mode : Mode) (limit : Nat) (bs : Bytes) : Prop :=
  mode = gcm → bs.length ≤ limit

/-- The ciphertext of a text where nothing fails. -/
def enciphered (mode : Mode) (key : Key) (iv : Option Iv) (text : Bytes) (aad : Option Bytes) :
    Bytes :=
  let iv := (iv.map Iv.bytes).getD []
  match mode with
  | ecb => Ecb.enciphered key.rounds text
  | cbc => Cbc.enciphered key.rounds iv text
  | gcm => Gcm.sealed key.rounds iv (aad.getD []) text

/-- Between one and sixteen bytes are added, and sixteen to the empty
text. -/
theorem length_enciphered (mode : Mode) (key : Key) (iv : Option Iv) (text : Bytes)
    (aad : Option Bytes) : (mode.enciphered key iv text aad).length
      = if mode = gcm then text.length + 16 else 16 * (text.length / 16 + 1) := by
  cases mode with
  | ecb =>
    simp only [enciphered, Ecb.enciphered, length_flatMap_toBytes, List.length_map,
      length_blocksOf_pad]
    rfl
  | cbc => exact Cbc.length_enciphered ..
  | gcm => exact Gcm.length_sealed ..

/-- No ciphertext is empty. -/
theorem enciphered_ne_nil (mode : Mode) (key : Key) (iv : Option Iv) (text : Bytes)
    (aad : Option Bytes) : mode.enciphered key iv text aad ≠ [] := by
  intro h
  have hlength := length_enciphered mode key iv text aad
  rw [h, List.length_nil] at hlength
  split at hlength <;> omega

/-! ## 3. Both directions -/

section Admitted

variable {mode : Mode} {key : Key} {iv : Option Iv}

/-- When enciphering succeeds, and with what. -/
theorem encryptRow_eq_ok_iff (hkey : key.bytes.length = Key.size) (hiv : mode.AdmitsIv iv)
    {text : Bytes} (htext : text ≠ []) (aad : Option Bytes) (ciphertext : Bytes) :
    mode.encryptRow key iv text aad = .ok ciphertext
      ↔ ciphertext = mode.enciphered key iv text aad
        ∧ mode.Within Gcm.maxLength text ∧ mode.Within Gcm.maxLength (aad.getD []) := by
  cases mode with
  | ecb =>
    simp only [encryptRow, Ecb.encrypt_eq hkey htext, enciphered, Within, Except.ok.injEq]
    simp [eq_comm]
  | cbc =>
    obtain ⟨v, rfl, hv⟩ := hiv
    simp only [encryptRow, Cbc.encrypt_eq hkey hv htext, enciphered, Within, Except.ok.injEq]
    simp [eq_comm]
  | gcm =>
    obtain ⟨v, rfl, hv⟩ := hiv
    simpa [encryptRow, enciphered, Within] using
      Gcm.encrypt_eq_ok_iff hkey hv htext aad ciphertext

/-- When deciphering succeeds, and with what. A ciphertext may be a tag
longer than the longest one that is produced. -/
theorem decryptRow_eq_ok_iff (hkey : key.bytes.length = Key.size) (hiv : mode.AdmitsIv iv)
    {ciphertext : Bytes} (hne : ciphertext ≠ []) (aad : Option Bytes) (text : Bytes) :
    mode.decryptRow key iv ciphertext aad = .ok text
      ↔ ciphertext = mode.enciphered key iv text aad
        ∧ mode.Within (Gcm.maxLength + Gcm.tagLength) text
        ∧ mode.Within Gcm.maxLength (aad.getD []) := by
  cases mode with
  | ecb => simp [decryptRow, Ecb.decrypt_eq_ok_iff hkey hne, enciphered, Within]
  | cbc =>
    obtain ⟨v, rfl, hv⟩ := hiv
    simp [decryptRow, Cbc.decrypt_eq_ok_iff hkey hv hne, enciphered, Within]
  | gcm =>
    obtain ⟨v, rfl, hv⟩ := hiv
    simpa [decryptRow, enciphered, Within] using
      Gcm.decrypt_eq_ok_iff hkey hv hne aad text

/-- Within the limits both directions agree. -/
theorem decryptRow_iff_encryptRow (hkey : key.bytes.length = Key.size) (hiv : mode.AdmitsIv iv)
    {text ciphertext : Bytes} (htext : text ≠ []) (hlimit : mode.Within Gcm.maxLength text)
    (hne : ciphertext ≠ []) (aad : Option Bytes) :
    mode.decryptRow key iv ciphertext aad = .ok text
      ↔ mode.encryptRow key iv text aad = .ok ciphertext := by
  have hbody : mode.Within (Gcm.maxLength + Gcm.tagLength) text := fun h =>
    Nat.le_add_right_of_le (hlimit h)
  rw [decryptRow_eq_ok_iff hkey hiv hne, encryptRow_eq_ok_iff hkey hiv htext]
  exact and_congr_right fun _ => ⟨fun h => ⟨hlimit, h.2⟩, fun h => ⟨hbody, h.2⟩⟩

/-- The empty text is given by the ciphertext of its padding or of its tag
alone. -/
theorem decryptRow_eq_ok_nil_iff (hkey : key.bytes.length = Key.size) (hiv : mode.AdmitsIv iv)
    {ciphertext : Bytes} (hne : ciphertext ≠ []) (aad : Option Bytes) :
    mode.decryptRow key iv ciphertext aad = .ok []
      ↔ ciphertext = mode.enciphered key iv [] aad ∧ mode.Within Gcm.maxLength (aad.getD []) := by
  rw [decryptRow_eq_ok_iff hkey hiv hne]
  have hbody : mode.Within (Gcm.maxLength + Gcm.tagLength) [] := fun _ => Nat.zero_le _
  constructor
  · rintro ⟨hciphertext, -, haad⟩
    exact ⟨hciphertext, haad⟩
  · rintro ⟨hciphertext, haad⟩
    exact ⟨hciphertext, hbody, haad⟩

end Admitted

/-- In GCM no other tag goes with the body of a ciphertext. -/
theorem decryptRow_other_tag {key : Key} {iv : Option Iv}
    (hkey : key.bytes.length = Key.size) (hiv : gcm.AdmitsIv iv) {aad : Option Bytes}
    {text body tag other : Bytes} (hgenuine : gcm.encryptRow key iv text aad = .ok (body ++ tag))
    (htag : tag.length = Gcm.tagLength) (hlength : other.length = Gcm.tagLength)
    (hother : other ≠ tag) :
    gcm.decryptRow key iv (body ++ other) aad = .error .tagMismatch := by
  have htext : text ≠ [] := by
    rintro rfl
    obtain ⟨v, rfl, hv⟩ := hiv
    simp only [encryptRow, Gcm.encrypt, Iv.require_eq .gcm hv, bind, Except.bind, if_true,
      pure, Except.pure, Except.ok.injEq] at hgenuine
    have hcount := congrArg List.length hgenuine
    rw [List.length_append, htag, List.length_nil, Gcm.tagLength] at hcount
    omega
  have hne : body ++ other ≠ [] := by
    intro h
    have hcount := congrArg List.length h
    rw [List.length_append, hlength, List.length_nil, Gcm.tagLength] at hcount
    omega
  -- were it accepted, both tags would be the tag of the body
  have hrefused : ∀ found, gcm.decryptRow key iv (body ++ other) aad ≠ .ok found := by
    intro found hfound
    have hsealed := ((encryptRow_eq_ok_iff hkey hiv htext aad _).mp hgenuine).1
    have hforged := ((decryptRow_eq_ok_iff hkey hiv hne aad found).mp hfound).1
    rw [Gcm.eq_tag_of_sealed htag hsealed, Gcm.eq_tag_of_sealed hlength hforged] at hother
    exact hother rfl
  obtain ⟨v, rfl, hv⟩ := hiv
  have hroom : Gcm.tagLength ≤ (body ++ other).length := by
    rw [List.length_append, hlength]
    omega
  exact Gcm.decrypt_eq_error hkey hv hroom aad hrefused

/-- A text that is not empty is enciphered only under a key of the right
size and an IV that the mode admits. -/
theorem admitted_of_encryptRow {mode : Mode} {key : Key} {iv : Option Iv} {text : Bytes}
    {aad : Option Bytes} {ciphertext : Bytes} (htext : text ≠ [])
    (h : mode.encryptRow key iv text aad = .ok ciphertext) :
    key.bytes.length = Key.size ∧ mode.AdmitsIv iv := by
  cases mode with
  | ecb =>
    rw [encryptRow, Ecb.encrypt, if_neg htext] at h
    obtain ⟨ks, hks, -⟩ := bind_eq_ok_iff.mp h
    exact ⟨Key.length_of_schedule hks, trivial⟩
  | cbc =>
    rw [encryptRow, Cbc.encrypt] at h
    obtain ⟨bs, hbs, h⟩ := bind_eq_ok_iff.mp h
    rw [if_neg htext] at h
    obtain ⟨ks, hks, -⟩ := bind_eq_ok_iff.mp h
    exact ⟨Key.length_of_schedule hks, admitsIv_of_require_cbc hbs⟩
  | gcm =>
    rw [encryptRow, Gcm.encrypt] at h
    obtain ⟨bs, hbs, h⟩ := bind_eq_ok_iff.mp h
    rw [if_neg htext] at h
    obtain ⟨ks, hks, -⟩ := bind_eq_ok_iff.mp h
    exact ⟨Key.length_of_schedule hks, admitsIv_of_require_gcm hbs⟩

/-- A text that is not empty is given back by its ciphertext, under the
same checks. -/
theorem decrypt_of_encrypt {mode : Mode} {key : Key} {iv : Option Iv} {text : Bytes}
    {aad : Option Bytes} {ciphertext : Bytes} (htext : text ≠ [])
    (h : mode.encrypt key iv text aad = .ok ciphertext) :
    ciphertext ≠ [] ∧ mode.decrypt key iv ciphertext aad = .ok text := by
  obtain ⟨u, hinputs, hrow⟩ := bind_eq_ok_iff.mp h
  obtain ⟨hkey, hiv⟩ := admitted_of_encryptRow htext hrow
  obtain ⟨hciphertext, hlimit, -⟩ := (encryptRow_eq_ok_iff hkey hiv htext aad _).mp hrow
  have hne : ciphertext ≠ [] := by
    rw [hciphertext]
    exact enciphered_ne_nil mode key iv text aad
  have hback := (decryptRow_iff_encryptRow hkey hiv htext hlimit hne aad).mpr hrow
  exact ⟨hne, bind_eq_ok_iff.mpr ⟨u, hinputs, hback⟩⟩

/-! ## 4. The ciphertexts that are accepted -/

/-- Deciphering accepts the ciphertexts that enciphering produces, each
for its own text, and beside them the one ciphertext of the empty text;
in GCM a changed tag is refused as such. -/
theorem decryptRow_accepts_exactly (mode : Mode) {key : Key} {iv : Option Iv}
    (hkey : key.bytes.length = Key.size) (hiv : mode.AdmitsIv iv) (aad : Option Bytes) :
    (∀ text ciphertext, text ≠ [] → mode.Within Gcm.maxLength text → ciphertext ≠ [] →
      (mode.decryptRow key iv ciphertext aad = .ok text
        ↔ mode.encryptRow key iv text aad = .ok ciphertext))
    ∧ (∃ empty : Bytes, empty.length = 16 ∧ ∀ ciphertext, ciphertext ≠ [] →
      (mode.decryptRow key iv ciphertext aad = .ok []
        ↔ ciphertext = empty ∧ mode.Within Gcm.maxLength (aad.getD [])))
    ∧ (mode = gcm → ∀ text body tag other,
      mode.encryptRow key iv text aad = .ok (body ++ tag) →
      tag.length = 16 → other.length = 16 → other ≠ tag →
      mode.decryptRow key iv (body ++ other) aad = .error .tagMismatch) := by
  refine ⟨?_, ?_, ?_⟩
  · intro text ciphertext htext hlimit hne
    exact decryptRow_iff_encryptRow hkey hiv htext hlimit hne aad
  · refine ⟨mode.enciphered key iv [] aad, ?_, ?_⟩
    · rw [length_enciphered]
      split <;> rfl
    · intro ciphertext hne
      exact decryptRow_eq_ok_nil_iff hkey hiv hne aad
  · rintro rfl text body tag other hgenuine htag hlength hother
    exact decryptRow_other_tag hkey hiv hgenuine htag hlength hother

/-- A letter sealed under a key of ones and a nonce of twos is given back,
and refused when its tag is overwritten. -/
theorem decryptRow_accepts_exactly_letter :
    gcm.decryptRow ⟨List.replicate 16 1⟩ (some ⟨List.replicate 12 2⟩)
        [15, 199, 241, 99, 15, 76, 46, 154, 177, 250, 11, 190, 192, 227, 116, 247, 178] none
      = .ok [97]
    ∧ gcm.decryptRow ⟨List.replicate 16 1⟩ (some ⟨List.replicate 12 2⟩)
        (15 :: List.replicate 16 0) none = .error .tagMismatch := by
  have hgenuine :
      gcm.encryptRow ⟨List.replicate 16 1⟩ (some ⟨List.replicate 12 2⟩) [97] none
        = .ok ([15] ++ [199, 241, 99, 15, 76, 46, 154, 177, 250, 11, 190, 192, 227, 116, 247,
            178]) := by
    decide +kernel
  have hkey : (Key.mk (List.replicate 16 1)).bytes.length = Key.size := by decide
  have hiv : gcm.AdmitsIv (some ⟨List.replicate 12 2⟩) := ⟨_, rfl, by decide⟩
  obtain ⟨hback, -, htags⟩ := decryptRow_accepts_exactly gcm hkey hiv none
  constructor
  · exact (hback _ _ (by decide) (fun _ => by decide) (by decide)).mpr hgenuine
  · exact htags rfl _ _ _ (List.replicate 16 0) hgenuine (by decide) (by decide) (by decide)

end Mode
end ColumnMasking.Sm4
