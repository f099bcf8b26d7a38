/-
ColumnMasking.Proofs.Sm2.DecryptionOutcomes — what decryption makes of any
bytes at all.

Bytes that are long enough for a point and a digest come apart into
segments, and the segments are the bytes again (`Layout.wellFormed_split`,
`Layout.join_split`). So all that is known of segments put together is known
of any ciphertext, and there is one condition for a text to come out
(`PrivateKey.decrypt_eq_ok_iff`).

The digest is not the sender's choice: the point and the masked text leave
one that is accepted (`eq_of_unmask?`).
-/
import ColumnMasking.Proofs.Sm2.SegmentTheorems

namespace ColumnMasking.Sm2

/-! ## 1. Bytes that start with a four -/

/-- A point that is read after a four is not infinity and was written in the
uncompressed form. -/
theorem Point.encode_of_decode? {p : Point} {bs : Bytes} (h : decode? bs = some p)
    (hhead : bs.head? = some 0x04) : p ≠ infinity ∧ p.encode = bs := by
  obtain ⟨rest, rfl⟩ := List.head?_eq_some_iff.mp hhead
  simp only [decode?] at h
  obtain ⟨x, hx, hrest⟩ := Option.bind_eq_some_iff.mp h
  obtain ⟨y, hy, hpoint⟩ := Option.bind_eq_some_iff.mp hrest
  split at hpoint
  · obtain rfl := Option.some.inj hpoint
    refine ⟨Point.noConfusion, ?_⟩
    rw [encode, coordinateBytes_of_coordinate? hx, coordinateBytes_of_coordinate? hy,
      List.cons_append, List.take_append_drop]
  · simp at hpoint

/-! ## 2. Taking bytes apart -/

namespace Layout

variable (layout : Layout) (ciphertext : Bytes)

/-- Whatever comes apart is put together again. -/
@[simp] theorem join_split : layout.join (layout.split ciphertext) = ciphertext := by
  cases layout <;> simp [join, split, List.append_assoc]

/-- The point is what comes first, in either order. -/
theorem point_split : (layout.split ciphertext).point = ciphertext.take pointLength := by
  cases layout <;> rfl

/-- Bytes that are long enough come apart into segments of the right
lengths. -/
theorem wellFormed_split {ciphertext : Bytes}
    (hlong : pointLength + digestLength ≤ ciphertext.length) :
    (layout.split ciphertext).WellFormed := by
  have hpoint : (ciphertext.take pointLength).length = pointLength := by
    rw [List.length_take]
    omega
  refine ⟨by rw [point_split, hpoint], ?_⟩
  cases layout with
  | c1c2c3 =>
    simp only [split, List.length_drop]
    omega
  | c1c3c2 =>
    simp only [split, List.length_take, List.length_drop]
    omega

end Layout

/-! ## 3. The digest that is accepted -/

variable {d : Scalar} {s s' : Segments} {text text' : Bytes}

/-- A text comes out of segments whose digest is that of the text under the
shared point. -/
theorem exists_shared_of_unmask? (h : unmask? d s = some text) :
    ∃ p x y, Point.decode? s.point = some p ∧ d.times p = .affine x y ∧
      text = Bytes.xor s.masked (mask x y s.masked.length) ∧
      bindingDigest x y text = s.digest := by
  obtain ⟨p, hp, hopened⟩ := Option.bind_eq_some_iff.mp h
  cases hshared : d.times p with
  | infinity => simp [hshared] at hopened
  | affine x y =>
    simp only [hshared] at hopened
    split at hopened
    · rename_i hdigest
      obtain rfl := Option.some.inj hopened
      exact ⟨p, x, y, hp, hshared, rfl, hdigest⟩
    · simp at hopened

/-- As many bytes come out as were masked. -/
theorem length_of_unmask? (h : unmask? d s = some text) : text.length = s.masked.length := by
  obtain ⟨p, x, y, -, -, rfl, -⟩ := exists_shared_of_unmask? h
  exact length_xor_mask x y s.masked

/-- Segments that a text comes out of are determined by the point and the
masked text. -/
theorem eq_of_unmask? (h : unmask? d s = some text) (h' : unmask? d s' = some text')
    (hpoint : s.point = s'.point) (hmasked : s.masked = s'.masked) : s = s' := by
  obtain ⟨p, x, y, hp, hshared, rfl, hdigest⟩ := exists_shared_of_unmask? h
  obtain ⟨p', x', y', hp', hshared', rfl, hdigest'⟩ := exists_shared_of_unmask? h'
  obtain rfl : p = p' := by
    rw [hpoint, hp'] at hp
    exact (Option.some.inj hp).symm
  obtain ⟨rfl, rfl⟩ := Point.affine.inj (hshared.symm.trans hshared')
  have hsame : s.digest = s'.digest := by rw [← hdigest, ← hdigest', hmasked]
  cases s with
  | mk point masked digest =>
    cases s' with
    | mk point' masked' digest' =>
      simp only at hpoint hmasked hsame
      rw [hpoint, hmasked, hsame]

/-! ## 4. Decryption -/

namespace PrivateKey

variable {key : PrivateKey} {layout : Layout} {ciphertext ciphertext' : Bytes}

/-- Bytes that are long enough are decrypted as the segments they come apart
into. -/
theorem decrypt_long (hkey : key.scalar = .ok d)
    (hlong : Layout.pointLength + Layout.digestLength ≤ ciphertext.length) (layout : Layout) :
    key.decrypt layout ciphertext =
      if ciphertext.head? = some 0x04 then
        match unmask? d (layout.split ciphertext) with
        | some text => .ok text
        | none => .error (.integrity layout)
      else .error .notUncompressed := by
  have hshape := layout.wellFormed_split hlong
  have hjoined := key.decrypt_join hkey hshape layout
  rwa [← hshape.head?_join layout, layout.join_split] at hjoined

/-- A text comes out exactly of bytes that are long enough, start with a
four and come apart into segments that the text comes out of. -/
theorem decrypt_eq_ok_iff (hkey : key.scalar = .ok d) (hne : ciphertext ≠ []) :
    key.decrypt layout ciphertext = .ok text ↔
      Layout.pointLength + Layout.digestLength ≤ ciphertext.length ∧
      ciphertext.head? = some 0x04 ∧ unmask? d (layout.split ciphertext) = some text := by
  by_cases hlong : Layout.pointLength + Layout.digestLength ≤ ciphertext.length
  · rw [key.decrypt_long hkey hlong]
    by_cases hhead : ciphertext.head? = some 0x04
    · cases unmask? d (layout.split ciphertext) with
      | none => simp [hhead]
      | some opened => simp [hhead, hlong]
    · simp [hhead]
  · rw [key.decrypt_short hkey hne (Nat.not_le.mp hlong)]
    simp [hlong]

/-- Bytes that no text comes out of are refused as undecipherable. -/
theorem decrypt_eq_ok_or_error (hkey : key.scalar = .ok d) (hne : ciphertext ≠ []) :
    (∃ text, key.decrypt layout ciphertext = .ok text) ∨
    (∃ error, key.decrypt layout ciphertext = .error error ∧ error.kind = .decryption) := by
  by_cases hlong : Layout.pointLength + Layout.digestLength ≤ ciphertext.length
  · have hshape := layout.wellFormed_split hlong
    obtain ⟨text, htext⟩ | hrefused := key.decrypt_join_agree hkey hshape
    · refine .inl ⟨text, ?_⟩
      rw [← htext layout, layout.join_split]
    · obtain ⟨error, herror, hkind⟩ := hrefused layout
      rw [layout.join_split] at herror
      exact .inr ⟨error, herror, hkind⟩
  · exact .inr ⟨_, key.decrypt_short hkey hne (Nat.not_le.mp hlong) layout, rfl⟩

/-- A text that comes out has 97 bytes less than the ciphertext, which starts
with a point of the curve in the uncompressed form. -/
theorem shape_of_decrypt (hkey : key.scalar = .ok d) (hne : ciphertext ≠ [])
    (h : key.decrypt layout ciphertext = .ok text) :
    ciphertext.length = 97 + text.length ∧ ciphertext.head? = some 0x04 ∧
    ∃ p : Point, Point.decode? (ciphertext.take 65) = some p ∧ p.OnCurve ∧ p ≠ .infinity ∧
      p.encode = ciphertext.take 65 := by
  obtain ⟨hlong, hhead, hopened⟩ := (key.decrypt_eq_ok_iff hkey hne).mp h
  obtain ⟨p, -, -, hp, -⟩ := exists_shared_of_unmask? hopened
  have hlength := (layout.wellFormed_split hlong).length_join layout
  rw [layout.join_split, ← length_of_unmask? hopened] at hlength
  rw [layout.point_split] at hp
  have hfirst : (ciphertext.take Layout.pointLength).head? = some 0x04 := by
    rw [List.head?_take, if_neg (by decide), hhead]
  obtain ⟨hfinite, hencoded⟩ := Point.encode_of_decode? hp hfirst
  exact ⟨hlength, hhead, p, hp, Point.onCurve_of_decode? hp, hfinite, hencoded⟩

/-- Ciphertexts that texts come out of are determined by the point and the
masked text. -/
theorem eq_of_decrypt (hkey : key.scalar = .ok d) (hne : ciphertext ≠ [])
    (hne' : ciphertext' ≠ []) (h : key.decrypt layout ciphertext = .ok text)
    (h' : key.decrypt layout ciphertext' = .ok text')
    (hpoint : (layout.split ciphertext).point = (layout.split ciphertext').point)
    (hmasked : (layout.split ciphertext).masked = (layout.split ciphertext').masked) :
    ciphertext = ciphertext' := by
  obtain ⟨-, -, hopened⟩ := (key.decrypt_eq_ok_iff hkey hne).mp h
  obtain ⟨-, -, hopened'⟩ := (key.decrypt_eq_ok_iff hkey hne').mp h'
  rw [← layout.join_split ciphertext, eq_of_unmask? hopened hopened' hpoint hmasked,
    layout.join_split]

/-- A ciphertext that a text comes out of is refused with another digest. -/
theorem decrypt_of_other_digest (hkey : key.scalar = .ok d) (hne : ciphertext ≠ [])
    (h : key.decrypt layout ciphertext = .ok text) {other : Bytes}
    (hlength : other.length = Layout.digestLength)
    (hother : other ≠ (layout.split ciphertext).digest) :
    key.decrypt layout (layout.join { layout.split ciphertext with digest := other })
      = .error (.integrity layout) := by
  obtain ⟨hlong, hhead, hopened⟩ := (key.decrypt_eq_ok_iff hkey hne).mp h
  have hshape := layout.wellFormed_split hlong
  have hfirst : (layout.split ciphertext).point.head? = some 0x04 := by
    rw [← hshape.head?_join layout, layout.join_split, hhead]
  have hrefused : unmask? d { layout.split ciphertext with digest := other } = none := by
    cases hfound : unmask? d { layout.split ciphertext with digest := other } with
    | none => rfl
    | some found =>
      exact absurd (congrArg Segments.digest (eq_of_unmask? hfound hopened rfl rfl)) hother
  have hreplaced : Segments.WellFormed { layout.split ciphertext with digest := other } :=
    ⟨hshape.left, hlength⟩
  rw [key.decrypt_join hkey hreplaced layout, if_pos hfirst, hrefused]

end PrivateKey

/-- Decryption has an answer for any bytes but none at all, a text or that
they are undecipherable, and what a text comes out of has one shape and one
digest.

Bytes too short for a point and a digest are refused as such; all others
come apart into segments of the right lengths, which are the bytes put
together. A text has 97 bytes less than what it comes out of, and that
starts with a four and a point of the curve. Two ciphertexts with the same
point and the same masked text that texts come out of are the same; so any
other digest in place of one that was accepted is refused. -/
theorem decryption_outcomes {key : PrivateKey} (hkey : key.scalar = .ok d) (layout : Layout) :
    (∀ ciphertext : Bytes, ciphertext ≠ [] →
      ((∃ text, key.decrypt layout ciphertext = .ok text) ∨
        (∃ error, key.decrypt layout ciphertext = .error error ∧ error.kind = .decryption)) ∧
      if ciphertext.length < 97 then
        key.decrypt layout ciphertext = .error (.ciphertextTooShort ciphertext.length)
      else (layout.split ciphertext).WellFormed ∧
        layout.join (layout.split ciphertext) = ciphertext) ∧
    (∀ ciphertext text : Bytes, ciphertext ≠ [] → key.decrypt layout ciphertext = .ok text →
      ciphertext.length = 97 + text.length ∧ ciphertext.head? = some 0x04 ∧
      ∃ p : Point, Point.decode? (ciphertext.take 65) = some p ∧ p.OnCurve ∧ p ≠ .infinity ∧
        p.encode = ciphertext.take 65) ∧
    (∀ ciphertext ciphertext' text text' : Bytes, ciphertext ≠ [] → ciphertext' ≠ [] →
      key.decrypt layout ciphertext = .ok text → key.decrypt layout ciphertext' = .ok text' →
      (layout.split ciphertext).point = (layout.split ciphertext').point →
      (layout.split ciphertext).masked = (layout.split ciphertext').masked →
      ciphertext = ciphertext') ∧
    (∀ ciphertext text other : Bytes, ciphertext ≠ [] →
      key.decrypt layout ciphertext = .ok text →
      other.length = 32 → other ≠ (layout.split ciphertext).digest →
      key.decrypt layout (layout.join { layout.split ciphertext with digest := other })
        = .error (.integrity layout)) := by
  refine ⟨fun ciphertext hne => ⟨key.decrypt_eq_ok_or_error hkey hne, ?_⟩, ?_, ?_, ?_⟩
  · split
    · rename_i hshort
      exact key.decrypt_short hkey hne hshort layout
    · rename_i hlong
      exact ⟨layout.wellFormed_split (Nat.not_lt.mp hlong), layout.join_split ciphertext⟩
  · intro ciphertext text hne h
    exact key.shape_of_decrypt hkey hne h
  · intro ciphertext ciphertext' text text' hne hne' h h'
    exact key.eq_of_decrypt hkey hne hne' h h'
  · intro ciphertext text other hne h hlength hother
    exact key.decrypt_of_other_digest hkey hne h hlength hother

/-- The letter A under the private key one and the ephemeral scalar one: it
comes out, the ciphertext has the shape stated, and the digest of another
letter in place of its own is refused. -/
theorem decryption_outcomes_letter :
    let key := PrivateKey.ofScalar ⟨1, by decide, by decide⟩
    let digest : Bytes :=
      [92, 231, 52, 60, 246, 164, 195, 93, 195, 162, 80, 120, 146, 139, 31, 234, 54, 96, 229,
        41, 253, 138, 55, 153, 21, 203, 60, 143, 10, 110, 26, 181]
    let ciphertext := generator.encode ++ digest ++ [134]
    key.decrypt .c1c3c2 ciphertext = .ok [0x41] ∧
    ciphertext.length = 97 + 1 ∧ ciphertext.head? = some 0x04 ∧
    key.decrypt .c1c3c2 (generator.encode ++ List.replicate 32 0 ++ [134])
      = .error (.integrity .c1c3c2) := by
  intro key digest ciphertext
  have hopened : key.decrypt .c1c3c2 ciphertext = .ok [0x41] := by decide +kernel
  obtain ⟨-, hshape, -, hrefused⟩ :=
    decryption_outcomes (PrivateKey.scalar_ofScalar ⟨1, by decide, by decide⟩) .c1c3c2
  obtain ⟨hlength, hhead, -⟩ := hshape ciphertext [0x41] (by decide) hopened
  exact ⟨hopened, hlength, hhead,
    hrefused ciphertext [0x41] (List.replicate 32 0) (by decide) hopened (by decide) (by decide)⟩

end ColumnMasking.Sm2
