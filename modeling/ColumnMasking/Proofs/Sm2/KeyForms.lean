/-
ColumnMasking.Proofs.Sm2.KeyForms — points, scalars and keys are read back
from their bytes.

An uncompressed point has 65 bytes, the first of them a four, and is read
back (`Point.decode?_encode`); whatever is read is a point of the curve
(`Point.onCurve_of_decode?`). So a public key made of a point has that
point (`PublicKey.point_ofPoint`), and a private key that was accepted is
that of a scalar (`PrivateKey.eq_ofScalar_of_ofMaterial`), which it gives
back (`PrivateKey.scalar_ofScalar`). A key pair is generated for the scalar
that is drawn (`KeyPair.run_generate_eq_ok_iff`).
-/
import ColumnMasking.Proofs.NumberBytes
import ColumnMasking.Proofs.Sm2.ScaledPoint
import ColumnMasking.Sm2.Key

namespace ColumnMasking.Sm2

/-! ## 1. Points -/

/-- A coordinate has 32 bytes. -/
@[simp] theorem length_coordinateBytes (x : Field) :
    (coordinateBytes x).length = KeyMaterial.coordinateLength :=
  Bytes.length_ofNat _ _

/-- Bytes of the right count spell the coordinate with their number. -/
theorem coordinate?_eq_some {bs : Bytes} {x : Field}
    (hlength : bs.length = KeyMaterial.coordinateLength) (hvalue : Bytes.toNat bs = x.val) :
    coordinate? bs = some x := by
  obtain ⟨n, hn⟩ := x
  simp only at hvalue
  subst hvalue
  exact dif_pos ⟨hlength, hn⟩

/-- A coordinate is read back from its bytes. -/
theorem coordinate?_coordinateBytes (x : Field) : coordinate? (coordinateBytes x) = some x := by
  have hfits : x.val < 256 ^ KeyMaterial.coordinateLength := Nat.lt_trans x.isLt (by decide)
  exact coordinate?_eq_some (length_coordinateBytes x) (Bytes.toNat_ofNat_of_lt hfits)

/-- Bytes that spell a coordinate are its bytes. -/
theorem coordinateBytes_of_coordinate? {bs : Bytes} {x : Field} (h : coordinate? bs = some x) :
    coordinateBytes x = bs := by
  simp only [coordinate?] at h
  split at h
  · rename_i hcoordinate
    obtain rfl := Option.some.inj h
    exact Bytes.ofNat_toNat_of_length hcoordinate.left
  · simp at h

namespace Point

variable {p : Point}

/-- An uncompressed point has 65 bytes. -/
theorem length_encode (h : p ≠ infinity) : p.encode.length = Layout.pointLength := by
  cases p with
  | infinity => exact absurd rfl h
  | affine x y =>
    simp only [encode, List.cons_append, List.length_cons, List.length_append,
      length_coordinateBytes]
    rfl

/-- The first byte of an uncompressed point is a four. -/
theorem head?_encode (h : p ≠ infinity) : p.encode.head? = some 0x04 := by
  cases p with
  | infinity => exact absurd rfl h
  | affine x y => rfl

/-- An uncompressed point is a four and 64 bytes. -/
theorem exists_coordinates (h : p ≠ .infinity) :
    ∃ bs, p.encode = 0x04 :: bs ∧ bs.length = 2 * KeyMaterial.coordinateLength := by
  obtain ⟨bs, hbs⟩ := List.head?_eq_some_iff.mp (head?_encode h)
  refine ⟨bs, hbs, ?_⟩
  have hlength := length_encode h
  rw [hbs, List.length_cons] at hlength
  exact Nat.succ.inj hlength

/-- A point of the curve is read back from its bytes. -/
theorem decode?_encode (h : p.OnCurve) : decode? p.encode = some p := by
  cases p with
  | infinity => rfl
  | affine x y =>
    have htake : (coordinateBytes x ++ coordinateBytes y).take KeyMaterial.coordinateLength
        = coordinateBytes x := List.take_left' (length_coordinateBytes x)
    have hdrop : (coordinateBytes x ++ coordinateBytes y).drop KeyMaterial.coordinateLength
        = coordinateBytes y := List.drop_left' (length_coordinateBytes x)
    simp only [encode, List.cons_append, decode?, htake, hdrop, coordinate?_coordinateBytes]
    exact if_pos h

/-- The roots over a first coordinate are second coordinates. -/
theorem onCurve_of_roots? {x y z : Field} (h : roots? x = some (y, z)) :
    (affine x y).OnCurve ∧ (affine x z).OnCurve := by
  obtain ⟨root, hroot, hpair⟩ := Option.map_eq_some_iff.mp h
  obtain ⟨rfl, rfl⟩ := Prod.mk.inj hpair
  have hsquare : root * root = cubic x := by
    simp only [squareRoot?] at hroot
    split at hroot
    · rename_i hfound
      obtain rfl := Option.some.inj hroot
      exact hfound
    · simp at hroot
  have hmirror : -root * -root = cubic x := by
    rw [← hsquare, ← toRing_inj, ← zero_sub root]
    simp only [toRing_mul, toRing_sub, toRing_zero]
    ring
  exact ⟨hsquare, hmirror⟩

/-- A choice between the roots gives a point of the curve. -/
theorem onCurve_of_map_roots? {x : Field} (choose : Field → Field → Field)
    (hchoose : ∀ y z, choose y z = y ∨ choose y z = z)
    (h : (roots? x).map (fun (y, z) => affine x (choose y z)) = some p) : p.OnCurve := by
  obtain ⟨⟨y, z⟩, hroots, rfl⟩ := Option.map_eq_some_iff.mp h
  obtain ⟨hy, hz⟩ := onCurve_of_roots? hroots
  simp only
  rcases hchoose y z with hchosen | hchosen
  · rw [hchosen]
    exact hy
  · rw [hchosen]
    exact hz

/-- The point of a parity is on the curve. -/
theorem onCurve_of_withParity? {x : Field} {parity : Nat} (h : withParity? x parity = some p) :
    p.OnCurve :=
  onCurve_of_map_roots? (fun y z => if y.val % 2 = parity then y else z)
    (fun y z => ite_eq_or_eq _ y z) h

/-- The point with the smaller second coordinate is on the curve. -/
theorem onCurve_of_withSmaller? {x : Field} (h : withSmaller? x = some p) : p.OnCurve :=
  onCurve_of_map_roots? (fun y z => if y ≤ z then y else z) (fun y z => ite_eq_or_eq _ y z) h

/-- What is read is a point of the curve. -/
theorem onCurve_of_decode? {bs : Bytes} (h : decode? bs = some p) : p.OnCurve := by
  unfold decode? at h
  split at h
  · -- infinity
    obtain rfl := Option.some.inj h
    trivial
  · -- compressed, even
    obtain ⟨x, -, hx⟩ := Option.bind_eq_some_iff.mp h
    exact onCurve_of_withParity? hx
  · -- compressed, odd
    obtain ⟨x, -, hx⟩ := Option.bind_eq_some_iff.mp h
    exact onCurve_of_withParity? hx
  · -- uncompressed
    obtain ⟨x, -, hx⟩ := Option.bind_eq_some_iff.mp h
    obtain ⟨y, -, hy⟩ := Option.bind_eq_some_iff.mp hx
    split at hy
    · rename_i hon
      obtain rfl := Option.some.inj hy
      exact hon
    · simp at hy
  · -- compact
    obtain ⟨x, -, hx⟩ := Option.bind_eq_some_iff.mp h
    exact onCurve_of_withSmaller? hx
  · simp at h

end Point

/-! ## 2. Public keys -/

namespace PublicKey

/-- The key of a point of the curve has that point, infinity apart. -/
theorem point_ofPoint {p : Point} (hcurve : p.OnCurve) (hne : p ≠ .infinity) :
    (ofPoint p).point = .ok p := by
  simp only [point, ofPoint, pointOf, Point.decode?_encode hcurve]
  cases p with
  | infinity => exact absurd rfl hne
  | affine x y => rfl

/-- The coordinates of a point of the curve are accepted for its key. -/
theorem ofMaterial_of_coordinates {p : Point} (hcurve : p.OnCurve)
    (hne : p ≠ .infinity) {m : KeyMaterial} (hrole : m.role = .sm2PublicKey)
    (hpoint : m.point? = some p.encode) : ofMaterial m = .ok (ofPoint p) := by
  have hkey : pointOf p.encode = .ok p := point_ofPoint hcurve hne
  simp only [ofMaterial, if_neg (not_not_intro hrole), hpoint, ofSec1, hkey]
  rfl

/-- The point of a key is on the curve and not infinity. -/
theorem onCurve_of_point {key : PublicKey} {p : Point} (h : key.point = .ok p) :
    p.OnCurve ∧ p ≠ .infinity := by
  simp only [point, pointOf] at h
  split at h
  · rename_i x y hread
    obtain rfl := Except.ok.inj h
    exact ⟨Point.onCurve_of_decode? hread, Point.noConfusion⟩
  · simp at h

end PublicKey

/-! ## 3. Scalars and private keys -/

namespace Scalar

/-- A scalar has 32 bytes. -/
@[simp] theorem length_toBytes (s : Scalar) : s.toBytes.length = KeyMaterial.coordinateLength :=
  Bytes.length_ofNat _ _

/-- The numbers that are scalars. -/
theorem exists_ofNat?_iff {n : Nat} : (∃ d, ofNat? n = some d) ↔ 0 < n ∧ n < order := by
  constructor
  · rintro ⟨d, hd⟩
    obtain rfl := ofNat?_eq_some hd
    exact ⟨d.pos, d.lt_order⟩
  · intro h
    exact ⟨_, dif_pos h⟩

/-- A scalar is the scalar of its number. -/
@[simp] theorem ofNat?_value (s : Scalar) : ofNat? s.value = some s :=
  dif_pos ⟨s.pos, s.lt_order⟩

/-- A scalar is read back from its bytes. -/
@[simp] theorem ofBytes?_toBytes (s : Scalar) : ofBytes? s.toBytes = some s := by
  have hfits : s.value < 256 ^ KeyMaterial.coordinateLength :=
    Nat.lt_trans s.lt_order (by decide)
  rw [ofBytes?, if_pos (length_toBytes s), toBytes, Bytes.toNat_ofNat_of_lt hfits, ofNat?_value]

/-- Bytes that spell a scalar are its bytes. -/
theorem toBytes_of_ofBytes? {bs : Bytes} {s : Scalar} (h : ofBytes? bs = some s) :
    s.toBytes = bs := by
  unfold ofBytes? at h
  split at h
  · rename_i hlength
    rw [toBytes, ofNat?_eq_some h, Bytes.ofNat_toNat_of_length hlength]
  · simp at h

end Scalar

namespace PrivateKey

/-- The key of a scalar has that scalar. -/
theorem scalar_ofScalar (d : Scalar) : (ofScalar d).scalar = .ok d := by
  have hlong : ¬ d.toBytes.length < minLength := by
    rw [Scalar.length_toBytes]
    decide
  have hmissing : KeyMaterial.coordinateLength - d.toBytes.length = 0 := by
    rw [Scalar.length_toBytes, Nat.sub_self]
  simp only [scalar, ofScalar, if_neg hlong, hmissing, List.replicate_zero, List.nil_append,
    Scalar.ofBytes?_toBytes]

/-- A key has a scalar, or is refused for its range. -/
theorem scalar_eq_ok_or_error (key : PrivateKey) :
    (∃ d, key.scalar = .ok d) ∨ key.scalar = .error .scalarRange := by
  rw [scalar]
  by_cases hshort : key.bytes.length < minLength
  · exact .inr (if_pos hshort)
  · rw [if_neg hshort]
    cases Scalar.ofBytes? (List.replicate
        (KeyMaterial.coordinateLength - key.bytes.length) 0 ++ key.bytes) with
    | none => exact .inr rfl
    | some d => exact .inl ⟨d, rfl⟩

/-- The bytes of a scalar are accepted for its key. -/
theorem ofMaterial_toBytes (d : Scalar) (source : KeyMaterial.Source) :
    ofMaterial ⟨d.toBytes, .sm2PrivateKey, source⟩ = .ok (ofScalar d) := by
  simp only [ofMaterial, Scalar.ofBytes?_toBytes]
  rfl

/-- Accepted material is the key of a scalar. -/
theorem eq_ofScalar_of_ofMaterial {m : KeyMaterial} {key : PrivateKey}
    (h : ofMaterial m = .ok key) : ∃ d, key = ofScalar d := by
  unfold ofMaterial at h
  split at h
  · simp at h
  · split at h
    · simp at h
    · rename_i d hd
      obtain rfl := Except.ok.inj h
      exact ⟨d, congrArg PrivateKey.mk (Scalar.toBytes_of_ofBytes? hd).symm⟩

end PrivateKey

/-! ## 4. Key pairs -/

/-- A key pair is generated for the scalar that is drawn. -/
theorem KeyPair.run_generate_eq_ok_iff {e rest : Entropy} {pair : KeyPair} :
    generate.run e = (.ok pair, rest) ↔ ∃ d, Scalar.draw e = (some d, rest) ∧ pair = ofScalar d := by
  simp only [generate, ExceptT.run_mk]
  constructor
  · intro h
    split at h
    · rename_i d left hdrawn
      obtain ⟨hpair, rfl⟩ := Prod.mk.inj h
      exact ⟨d, hdrawn, (Except.ok.inj hpair).symm⟩
    · exact absurd (Prod.mk.inj h).left nofun
  · rintro ⟨d, hd, rfl⟩
    rw [hd]

end ColumnMasking.Sm2
