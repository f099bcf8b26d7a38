/-
ColumnMasking.Proofs.Sm2.SegmentTheorems — what encryption puts into the
segments, decryption gets out of them, in either order.

The sender takes the multiple of the receiver's point by the ephemeral
scalar, the receiver the multiple of the point that was sent by the
private scalar. These are the same point, so masks and digests are the
same too (`unmask?_of_segments?`), whichever ephemeral scalar was drawn in
the end (`exists_segments?_of_drawSegments`). The order of the segments
matters to neither side but in the last step and the first one: sealing
puts the segments together (`encrypt_run`), opening takes them apart
(`decrypt_join`).
-/
import ColumnMasking.Proofs.CallResults
import ColumnMasking.Proofs.Sm2.KeyForms
import ColumnMasking.Sm2.Encryption

namespace ColumnMasking.Sm2

/-! ## 1. The shared point -/

/-- Both sides find the same point. -/
theorem times_times_comm (d k : Scalar) :
    d.times (k.times generator) = k.times (d.times generator) :=
  Point.multiple_multiple_comm onCurve_generator k.value d.value

variable {receiver : Point} {d k : Scalar} {text : Bytes} {s : Segments}

/-- The segments that a scalar gives are those under a shared point that is
not infinity. -/
theorem exists_shared_of_segments? (h : segments? receiver k text = some s) :
    ∃ x y, k.times receiver = .affine x y ∧ s =
      { point := (k.times generator).encode
        masked := Bytes.xor text (mask x y text.length)
        digest := bindingDigest x y text } := by
  unfold segments? at h
  split at h
  · simp at h
  · rename_i x y hshared
    simp only at h
    split at h
    · simp at h
    · exact ⟨x, y, hshared, (Option.some.inj h).symm⟩

/-- A text covered by its mask has its length. -/
theorem length_xor_mask (x y : Field) (text : Bytes) :
    (Bytes.xor text (mask x y text.length)).length = text.length := by
  rw [Bytes.length_xor, mask, length_derive, Nat.min_self]

/-- The segments of a text: an uncompressed point, as many masked bytes as
the text has, and a digest. -/
theorem shape_of_segments? (h : segments? receiver k text = some s) :
    s.WellFormed ∧ s.masked.length = text.length ∧ s.point.head? = some 0x04 := by
  obtain ⟨x, y, -, rfl⟩ := exists_shared_of_segments? h
  have hne := Scalar.times_generator_ne_infinity k
  exact ⟨⟨Point.length_encode hne, Sm3.length_hash _⟩, length_xor_mask x y text,
    Point.head?_encode hne⟩

/-- The receiver gets the text out of the segments. -/
theorem unmask?_of_segments? (h : segments? (d.times generator) k text = some s) :
    unmask? d s = some text := by
  obtain ⟨x, y, hshared, rfl⟩ := exists_shared_of_segments? h
  have hsent : Point.decode? (k.times generator).encode = some (k.times generator) :=
    Point.decode?_encode (Scalar.onCurve_times_generator k)
  have hfound : d.times (k.times generator) = .affine x y := by
    rw [times_times_comm, hshared]
  have huncovered : Bytes.xor (Bytes.xor text (mask x y text.length)) (mask x y text.length)
      = text := Bytes.xor_xor (by rw [mask, length_derive])
  simp only [unmask?, hsent, Option.bind_eq_bind, Option.bind_some, hfound, length_xor_mask,
    huncovered, if_true]

/-- Segments drawn are those of some ephemeral scalar. -/
theorem exists_segments?_of_drawSegments {e rest : Entropy}
    (h : drawSegments receiver text e = (some s, rest)) :
    ∃ k, segments? receiver k text = some s := by
  fun_induction drawSegments receiver text e with
  | case1 e after hdraw => simp at h
  | case2 e k after hdraw s' hs =>
    obtain ⟨hsame, -⟩ := Prod.mk.inj h
    obtain rfl := Option.some.inj hsame
    exact ⟨k, hs⟩
  | case3 e k after hdraw hs ih => exact ih h

/-! ## 2. Sealing -/

variable {key : PublicKey}

/-- A key without a point seals nothing and draws nothing. -/
theorem PublicKey.encrypt_run_of_error {error : Error} (h : key.point = .error error)
    (layout : Layout) (plaintext : Bytes) (e : Entropy) :
    (key.encrypt layout plaintext).run e = (.error error, e) := by
  simp only [encrypt, Encryptor.new, h]
  rfl

/-- Under a key with a point, the order is used to put the segments
together and for nothing else. -/
theorem PublicKey.encrypt_run {p : Point} (h : key.point = .ok p) (layout : Layout)
    (plaintext : Bytes) (e : Entropy) :
    (key.encrypt layout plaintext).run e =
      if plaintext = [] then (.ok [], e)
      else match drawSegments p plaintext e with
        | (some s, rest) => (.ok (layout.join s), rest)
        | (none, rest) => (.error (.encryption "crypto error"), rest) := by
  simp only [encrypt, Encryptor.new, h]
  rfl

/-! ## 3. Opening -/

/-- Segments of the right lengths have more bytes than a point and a
digest by what is masked. -/
theorem Segments.WellFormed.length_join (h : s.WellFormed) (layout : Layout) :
    (layout.join s).length
      = Layout.pointLength + Layout.digestLength + s.masked.length := by
  obtain ⟨hpoint, hdigest⟩ := h
  cases layout with
  | c1c2c3 =>
    simp only [Layout.join, List.length_append, hpoint, hdigest]
    omega
  | c1c3c2 => simp only [Layout.join, List.length_append, hpoint, hdigest]

/-- The point comes first in either order. -/
theorem Segments.WellFormed.head?_join (h : s.WellFormed) (layout : Layout) :
    (layout.join s).head? = s.point.head? := by
  obtain ⟨b, tail, hpoint⟩ : ∃ b tail, s.point = b :: tail := by
    refine List.exists_cons_of_length_pos ?_
    rw [h.left]
    decide
  cases layout <;> simp only [Layout.join, hpoint, List.cons_append, List.head?_cons]

/-- Under a key with a scalar, the order is used to take the segments
apart and to name it in an error. -/
theorem PrivateKey.decrypt_join {key : PrivateKey} (hkey : key.scalar = .ok d)
    (hs : s.WellFormed) (layout : Layout) :
    key.decrypt layout (layout.join s) =
      if s.point.head? = some 0x04 then
        match unmask? d s with
        | some text => .ok text
        | none => .error (.integrity layout)
      else .error .notUncompressed := by
  have hlength := hs.length_join layout
  have hlong : ¬ (layout.join s).length < Layout.pointLength + Layout.digestLength := by omega
  have hne : layout.join s ≠ [] := by
    intro hnil
    rw [hnil] at hlong
    exact hlong (by decide)
  simp only [decrypt, Decryptor.new, hkey, bind, Except.bind, pure, Except.pure,
    Decryptor.decrypt, if_neg hne, if_neg hlong, hs.head?_join, Layout.split_join layout hs]
  by_cases hhead : s.point.head? = some 0x04
  · cases unmask? d s with
    | none => simp [hhead]
    | some text => simp [hhead]
  · simp [hhead]

/-- A ciphertext that is too short for its point and its digest, and is
not empty, is refused. -/
theorem PrivateKey.decrypt_short {key : PrivateKey} (hkey : key.scalar = .ok d)
    {ciphertext : Bytes} (hne : ciphertext ≠ [])
    (hshort : ciphertext.length < Layout.pointLength + Layout.digestLength) (layout : Layout) :
    key.decrypt layout ciphertext = .error (.ciphertextTooShort ciphertext.length) := by
  simp only [decrypt, Decryptor.new, hkey, bind, Except.bind, pure, Except.pure,
    Decryptor.decrypt, if_neg hne, if_pos hshort]

/-! ## 4. The way back -/

/-- What was sealed for the point of a scalar is opened under that scalar,
and has 97 bytes more than the text, the first of them a four. -/
theorem decrypt_of_encrypt {privateKey : PrivateKey} (hprivate : privateKey.scalar = .ok d)
    (hpublic : key.point = .ok (d.times generator)) {layout : Layout} {plaintext : Bytes}
    (hplaintext : plaintext ≠ []) {e rest : Entropy} {ciphertext : Bytes}
    (h : (key.encrypt layout plaintext).run e = (.ok ciphertext, rest)) :
    privateKey.decrypt layout ciphertext = .ok plaintext ∧
    ciphertext.length = 97 + plaintext.length ∧ ciphertext.head? = some 0x04 := by
  rw [key.encrypt_run hpublic, if_neg hplaintext] at h
  cases hdrawn : drawSegments (d.times generator) plaintext e with
  | mk drawn after =>
    rw [hdrawn] at h
    obtain ⟨hresult, -⟩ := Prod.mk.inj h
    cases drawn with
    | none => exact absurd hresult nofun
    | some s =>
      obtain rfl := Except.ok.inj hresult
      obtain ⟨k, hk⟩ := exists_segments?_of_drawSegments hdrawn
      obtain ⟨hshape, hlength, hhead⟩ := shape_of_segments? hk
      refine ⟨?_, ?_, ?_⟩
      · rw [privateKey.decrypt_join hprivate hshape, if_pos hhead, unmask?_of_segments? hk]
      · rw [hshape.length_join, hlength]
        rfl
      · rw [hshape.head?_join, hhead]

/-! ## 5. The two orders -/

/-- Segments of the right lengths stand for the same text in both orders, or
are refused in both. -/
theorem PrivateKey.decrypt_join_agree {key : PrivateKey} (hkey : key.scalar = .ok d)
    (hs : s.WellFormed) :
    (∃ text, ∀ layout, key.decrypt layout (layout.join s) = .ok text) ∨
    (∀ layout, ∃ error, key.decrypt layout (layout.join s) = .error error
      ∧ error.kind = .decryption) := by
  by_cases hhead : s.point.head? = some 0x04
  · cases hopened : unmask? d s with
    | none =>
      refine .inr fun layout => ⟨.integrity layout, ?_, rfl⟩
      rw [key.decrypt_join hkey hs layout, if_pos hhead, hopened]
    | some text =>
      refine .inl ⟨text, fun layout => ?_⟩
      rw [key.decrypt_join hkey hs layout, if_pos hhead, hopened]
  · refine .inr fun layout => ⟨.notUncompressed, ?_, rfl⟩
    rw [key.decrypt_join hkey hs layout, if_neg hhead]

/-- On any random stream, both orders fail alike or give the same segments,
and leave the same stream. -/
theorem PublicKey.encrypt_run_agree (key : PublicKey) (plaintext : Bytes) (e : Entropy) :
    ∃ rest,
      (∃ error, ∀ layout, (key.encrypt layout plaintext).run e = (.error error, rest)) ∨
      (∃ s : Segments,
        (if plaintext = [] then s = ⟨[], [], []⟩
          else s.WellFormed ∧ s.masked.length = plaintext.length) ∧
        ∀ layout, (key.encrypt layout plaintext).run e = (.ok (layout.join s), rest)) := by
  cases hpoint : key.point with
  | error error =>
    exact ⟨e, .inl ⟨error, fun layout => key.encrypt_run_of_error hpoint layout plaintext e⟩⟩
  | ok p =>
    by_cases hempty : plaintext = []
    · refine ⟨e, .inr ⟨⟨[], [], []⟩, ?_, fun layout => ?_⟩⟩
      · rw [if_pos hempty]
      · have hnothing : layout.join ⟨[], [], []⟩ = [] := by cases layout <;> rfl
        rw [key.encrypt_run hpoint, if_pos hempty, hnothing]
    · cases hdrawn : drawSegments p plaintext e with
      | mk drawn rest =>
        refine ⟨rest, ?_⟩
        cases drawn with
        | none =>
          refine .inl ⟨.encryption "crypto error", fun layout => ?_⟩
          rw [key.encrypt_run hpoint, if_neg hempty, hdrawn]
        | some s =>
          obtain ⟨k, hk⟩ := exists_segments?_of_drawSegments hdrawn
          obtain ⟨hshape, hlength, -⟩ := shape_of_segments? hk
          refine .inr ⟨s, ?_, fun layout => ?_⟩
          · rw [if_neg hempty]
            exact ⟨hshape, hlength⟩
          · rw [key.encrypt_run hpoint, if_neg hempty, hdrawn]

/-- The two orders differ in the order of the segments and in nothing else.

Under a key with a scalar, segments of the right lengths stand for the same
text in both orders, or are refused as undecipherable in both; what is too
short for a point and a digest is refused in both. Under any public key and
on any random stream, both orders fail alike or give the same segments, and
leave the same stream. -/
theorem layouts_agree {privateKey : PrivateKey} (hprivate : privateKey.scalar = .ok d)
    (publicKey : PublicKey) :
    (∀ s : Segments, s.WellFormed →
      (∃ text, ∀ layout, privateKey.decrypt layout (layout.join s) = .ok text) ∨
      (∀ layout, ∃ error, privateKey.decrypt layout (layout.join s) = .error error
        ∧ error.kind = .decryption)) ∧
    (∀ ciphertext : Bytes, ciphertext ≠ [] →
      ciphertext.length < Layout.pointLength + Layout.digestLength →
      ∀ layout, ∃ error, privateKey.decrypt layout ciphertext = .error error
        ∧ error.kind = .decryption) ∧
    (∀ (plaintext : Bytes) (e : Entropy), ∃ rest,
      (∃ error, ∀ layout, (publicKey.encrypt layout plaintext).run e = (.error error, rest)) ∨
      (∃ s : Segments,
        (if plaintext = [] then s = ⟨[], [], []⟩
          else s.WellFormed ∧ s.masked.length = plaintext.length) ∧
        ∀ layout, (publicKey.encrypt layout plaintext).run e = (.ok (layout.join s), rest))) := by
  refine ⟨fun s hs => privateKey.decrypt_join_agree hprivate hs, ?_,
    publicKey.encrypt_run_agree⟩
  intro ciphertext hne hshort layout
  exact ⟨_, privateKey.decrypt_short hprivate hne hshort layout, rfl⟩

/-- The letter A under the private key one, sealed with the ephemeral scalar
one: both orders give it back, both refuse it with another digest, and sealing
gives the same segments in both and leaves the same stream. 96 bytes are too
short in both. -/
theorem layouts_agree_one :
    let privateKey := PrivateKey.ofScalar ⟨1, by decide, by decide⟩
    let publicKey := PublicKey.ofPoint generator
    let digest : Bytes :=
      [92, 231, 52, 60, 246, 164, 195, 93, 195, 162, 80, 120, 146, 139, 31, 234, 54, 96, 229,
        41, 253, 138, 55, 153, 21, 203, 60, 143, 10, 110, 26, 181]
    (privateKey.decrypt .c1c2c3 (generator.encode ++ [134] ++ digest) = .ok [0x41] ∧
      privateKey.decrypt .c1c3c2 (generator.encode ++ digest ++ [134]) = .ok [0x41]) ∧
    ((∃ error, privateKey.decrypt .c1c2c3 (generator.encode ++ [134] ++ List.replicate 32 0)
        = .error error ∧ error.kind = .decryption) ∧
      (∃ error, privateKey.decrypt .c1c3c2 (generator.encode ++ List.replicate 32 0 ++ [134])
        = .error error ∧ error.kind = .decryption)) ∧
    ((∃ error, privateKey.decrypt .c1c2c3 (List.replicate 96 0x04) = .error error
        ∧ error.kind = .decryption) ∧
      (∃ error, privateKey.decrypt .c1c3c2 (List.replicate 96 0x04) = .error error
        ∧ error.kind = .decryption)) ∧
    ((publicKey.encrypt .c1c2c3 [0x41]).run ⟨Bytes.ofNat 32 1 ++ [7]⟩
        = (.ok (generator.encode ++ [134] ++ digest), ⟨[7]⟩) ∧
      (publicKey.encrypt .c1c3c2 [0x41]).run ⟨Bytes.ofNat 32 1 ++ [7]⟩
        = (.ok (generator.encode ++ digest ++ [134]), ⟨[7]⟩)) := by
  intro privateKey publicKey digest
  let s : Segments := ⟨generator.encode, [134], digest⟩
  let other : Segments := ⟨generator.encode, [134], List.replicate 32 0⟩
  have hs : s.WellFormed := ⟨by decide, by decide⟩
  obtain ⟨hsegments, hshort, hsealed⟩ :=
    layouts_agree (PrivateKey.scalar_ofScalar ⟨1, by decide, by decide⟩) publicKey
  -- one order is computed, the other one follows
  have hopened : privateKey.decrypt .c1c2c3 (Layout.c1c2c3.join s) = .ok [0x41] := by
    decide +kernel
  have hrefused : privateKey.decrypt .c1c2c3 (Layout.c1c2c3.join other)
      = .error (.integrity .c1c2c3) := by
    decide +kernel
  have hrun : (publicKey.encrypt .c1c2c3 [0x41]).run ⟨Bytes.ofNat 32 1 ++ [7]⟩
      = (.ok (Layout.c1c2c3.join s), ⟨[7]⟩) := by
    have hpoint : publicKey.point = .ok generator := by decide +kernel
    have hdrawn : drawSegments generator [0x41] ⟨Bytes.ofNat 32 1 ++ [7]⟩
        = (some s, ⟨[7]⟩) := by
      decide +kernel
    rw [PublicKey.encrypt_run hpoint, if_neg (by decide), hdrawn]
  refine ⟨⟨hopened, ?_⟩, ⟨⟨_, hrefused, rfl⟩, ?_⟩, ⟨?_, ?_⟩, hrun, ?_⟩
  · rcases hsegments s hs with ⟨text, htext⟩ | hnone
    · obtain rfl := Except.ok.inj (hopened.symm.trans (htext .c1c2c3))
      exact htext .c1c3c2
    · obtain ⟨error, herror, -⟩ := hnone .c1c2c3
      exact absurd (hopened.symm.trans herror) nofun
  · rcases hsegments other ⟨by decide, by decide⟩ with ⟨text, htext⟩ | hnone
    · exact absurd (hrefused.symm.trans (htext .c1c2c3)) nofun
    · exact hnone .c1c3c2
  · exact hshort _ (by decide) (by decide) .c1c2c3
  · exact hshort _ (by decide) (by decide) .c1c3c2
  · obtain ⟨rest, ⟨error, herror⟩ | ⟨s', hs', hboth⟩⟩ := hsealed [0x41] ⟨Bytes.ofNat 32 1 ++ [7]⟩
    · exact absurd (hrun.symm.trans (herror .c1c2c3)) nofun
    · obtain ⟨hjoin, rfl⟩ := Prod.mk.inj (hrun.symm.trans (hboth .c1c2c3))
      rw [if_neg (by decide)] at hs'
      have hsplit := congrArg (Layout.split .c1c2c3) (Except.ok.inj hjoin)
      rw [Layout.split_join _ hs, Layout.split_join _ hs'.left] at hsplit
      rw [hboth .c1c3c2, ← hsplit]
      rfl

end ColumnMasking.Sm2
