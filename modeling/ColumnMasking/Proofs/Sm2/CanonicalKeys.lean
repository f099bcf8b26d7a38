/-
ColumnMasking.Proofs.Sm2.CanonicalKeys — public keys are kept in one form.

A point of the curve can be spelled in up to four ways (`Point.Spelled`), and
exactly these are read (`Point.decode?_eq_some_iff`). The short ways leave out
the second coordinate. It is found again, for over a first coordinate one
root is even and the other odd, and one of them is the smaller one
(`Point.withParity?_eq_some_iff`, `Point.withSmaller?_eq_some_iff`).

Whichever way a point was spelled, its key is made of the point. So every key
that is made (`PublicKey.Made`) is the uncompressed form of a point of the
curve (`PublicKey.Made.exists_coordinates`), and all other bytes are refused
(`PublicKey.ofSec1_eq_error_iff`).
-/
import ColumnMasking.Proofs.KeyShapes
import ColumnMasking.Proofs.Sm2.DecryptionOutcomes
import ColumnMasking.Proofs.Sm2.SecondCoordinates
import ColumnMasking.Sm2.Encryption

namespace ColumnMasking.Sm2

/-! ## 1. Points from first coordinates -/

/-- The number of a coordinate is read back from its bytes. -/
@[simp] theorem toNat_coordinateBytes (x : Field) : Bytes.toNat (coordinateBytes x) = x.val :=
  Bytes.toNat_ofNat_of_lt (Nat.lt_trans x.isLt (by decide))

theorem coordinateBytes_injective : Function.Injective coordinateBytes := by
  intro x y h
  exact Fin.ext (by rw [← toNat_coordinateBytes, h, toNat_coordinateBytes])

namespace Point

variable {p : Point} {x : Field} {bs : Bytes}

/-- A choice between the roots by a property that one of them has gives the
one point of the curve with that property. -/
theorem map_roots?_eq_some_iff (choose : Field → Field → Field) {wanted : Field → Prop}
    (hchoose : ∀ y z, choose y z = y ∨ choose y z = z)
    (hwanted : ∀ y, y * y = cubic x → wanted (choose y (-y)))
    (hunique : ∀ y z, y * y = cubic x → z * z = cubic x → wanted y → wanted z → y = z) :
    (roots? x).map (fun (y, z) => affine x (choose y z)) = some p
      ↔ ∃ y, p = affine x y ∧ p.OnCurve ∧ wanted y := by
  have hfound : ∀ {q}, (roots? x).map (fun (y, z) => affine x (choose y z)) = some q →
      ∃ y, q = affine x y ∧ q.OnCurve ∧ wanted y := by
    intro q h
    have hcurve := onCurve_of_map_roots? choose hchoose h
    obtain ⟨⟨y, z⟩, hroots, rfl⟩ := Option.map_eq_some_iff.mp h
    obtain ⟨root, -, hpair⟩ := Option.map_eq_some_iff.mp hroots
    obtain ⟨rfl, rfl⟩ := Prod.mk.inj hpair
    exact ⟨_, rfl, hcurve, hwanted root (onCurve_of_roots? hroots).left⟩
  refine ⟨hfound, ?_⟩
  rintro ⟨y, rfl, hy, hywanted⟩
  -- over the first coordinate of a point there are roots, so a point is found
  obtain ⟨root, hroot, -⟩ := exists_squareRoot? hy
  have hsome : (roots? x).map (fun (y, z) => affine x (choose y z))
      = some (affine x (choose root (-root))) := by
    rw [roots?, hroot, Option.map_some, Option.map_some]
  obtain ⟨z, hz, hzcurve, hzwanted⟩ := hfound hsome
  rw [hz] at hzcurve
  rw [hsome, hz, hunique z y hzcurve hy hzwanted hywanted]

/-- The point of a parity is the one point of the curve with that parity. -/
theorem withParity?_eq_some_iff {parity : Nat} (hbit : parity < 2) :
    withParity? x parity = some p
      ↔ ∃ y, p = affine x y ∧ p.OnCurve ∧ y.val % 2 = parity := by
  refine map_roots?_eq_some_iff (fun y z => if y.val % 2 = parity then y else z)
    (fun y z => ite_eq_or_eq _ y z) ?_ ?_
  · intro y hy
    by_cases hparity : y.val % 2 = parity
    · simpa only [if_pos hparity] using hparity
    · simp only [if_neg hparity]
      rw [parity_neg (ne_zero_of_square hy)]
      omega
  · intro y z hy hz hyparity hzparity
    exact eq_of_parity hy hz (hyparity.trans hzparity.symm)

/-- The point with the smaller second coordinate is the one point of the curve
whose second coordinate is not above its negative. -/
theorem withSmaller?_eq_some_iff :
    withSmaller? x = some p ↔ ∃ y, p = affine x y ∧ p.OnCurve ∧ y ≤ -y := by
  refine map_roots?_eq_some_iff (fun y z => if y ≤ z then y else z)
    (fun y z => ite_eq_or_eq _ y z) ?_ ?_
  · intro y hy
    by_cases hle : y ≤ -y
    · simpa only [if_pos hle] using hle
    · simp only [if_neg hle]
      rw [neg_neg]
      exact (lt_of_not_ge hle).le
  · intro y z hy hz hyle hzle
    exact eq_of_le_neg hy hz hyle hzle

/-! ## 2. The forms of a point -/

/-- The bytes are a form of the point: uncompressed, compressed, or compact,
where the second coordinate is the smaller of the two possible. -/
inductive Spelled : Point → Bytes → Prop
  | uncompressed (p : Point) : Spelled p p.encode
  | compressed (p : Point) : Spelled p p.encodeCompressed
  | compact {x y : Field} (h : y ≤ -y) : Spelled (affine x y) (0x05 :: coordinateBytes x)

theorem decode?_even (rest : Bytes) :
    decode? (0x02 :: rest) = (coordinate? rest).bind fun x => withParity? x 0 := rfl

theorem decode?_odd (rest : Bytes) :
    decode? (0x03 :: rest) = (coordinate? rest).bind fun x => withParity? x 1 := rfl

theorem decode?_compact (rest : Bytes) :
    decode? (0x05 :: rest) = (coordinate? rest).bind withSmaller? := rfl

/-- What is read is a form of the point that it gives. -/
theorem spelled_of_decode? (h : decode? bs = some p) : p.Spelled bs := by
  have hread := h
  unfold decode? at h
  split at h
  · -- infinity
    obtain rfl := Option.some.inj h
    exact .uncompressed infinity
  · -- compressed, even
    obtain ⟨x, hx, hpoint⟩ := Option.bind_eq_some_iff.mp h
    obtain ⟨y, rfl, -, hy⟩ := (withParity?_eq_some_iff (by decide)).mp hpoint
    have hform := Spelled.compressed (affine x y)
    rwa [encodeCompressed, if_pos hy, coordinateBytes_of_coordinate? hx] at hform
  · -- compressed, odd
    obtain ⟨x, hx, hpoint⟩ := Option.bind_eq_some_iff.mp h
    obtain ⟨y, rfl, -, hy⟩ := (withParity?_eq_some_iff (by decide)).mp hpoint
    have hform := Spelled.compressed (affine x y)
    rwa [encodeCompressed, if_neg (by omega), coordinateBytes_of_coordinate? hx] at hform
  · -- uncompressed
    obtain ⟨-, hform⟩ := encode_of_decode? hread rfl
    rw [← hform]
    exact .uncompressed p
  · -- compact
    obtain ⟨x, hx, hpoint⟩ := Option.bind_eq_some_iff.mp h
    obtain ⟨y, rfl, -, hy⟩ := withSmaller?_eq_some_iff.mp hpoint
    rw [← coordinateBytes_of_coordinate? hx]
    exact .compact hy
  · simp at h

/-- Every form of a point of the curve is read as the point. -/
theorem decode?_of_spelled (hcurve : p.OnCurve) (h : p.Spelled bs) : decode? bs = some p := by
  cases h with
  | uncompressed => exact decode?_encode hcurve
  | compressed =>
    cases p with
    | infinity => rfl
    | affine x y =>
      rw [encodeCompressed]
      split
      · rename_i heven
        rw [decode?_even, coordinate?_coordinateBytes, Option.bind_some]
        exact (withParity?_eq_some_iff (by decide)).mpr ⟨y, rfl, hcurve, heven⟩
      · rw [decode?_odd, coordinate?_coordinateBytes, Option.bind_some]
        exact (withParity?_eq_some_iff (by decide)).mpr ⟨y, rfl, hcurve, by omega⟩
  | compact hy =>
    rw [decode?_compact, coordinate?_coordinateBytes, Option.bind_some]
    exact withSmaller?_eq_some_iff.mpr ⟨_, rfl, hcurve, hy⟩

/-- Points of the curve are read in their forms, and nothing else is read. -/
theorem decode?_eq_some_iff : decode? bs = some p ↔ p.OnCurve ∧ p.Spelled bs := by
  constructor
  · intro h
    exact ⟨onCurve_of_decode? h, spelled_of_decode? h⟩
  · rintro ⟨hcurve, hform⟩
    exact decode?_of_spelled hcurve hform

/-- A form is a tag, the first coordinate, and the second one or nothing: the
second one after a four. -/
theorem Spelled.exists_tag {y : Field} (h : (affine x y).Spelled bs) :
    ∃ tag rest, bs = tag :: (coordinateBytes x ++ rest) ∧
      rest = if tag = 0x04 then coordinateBytes y else [] := by
  cases h with
  | uncompressed => exact ⟨0x04, coordinateBytes y, rfl, rfl⟩
  | compressed =>
    refine ⟨if y.val % 2 = 0 then 0x02 else 0x03, [], by rw [List.append_nil]; rfl, ?_⟩
    split <;> rfl
  | compact => exact ⟨0x05, [], by rw [List.append_nil], rfl⟩

end Point

/-! ## 3. Bytes that are a key -/

namespace Error

/-- The error finds fault with a public key. -/
def InvalidPublicKey : Error → Prop
  | publicKeyRole _ | publicKeyBytes | notOnCurve | verifyingIdentityTooLong => True
  | _ => False

theorem InvalidPublicKey.kind_eq : ∀ {error : Error}, error.InvalidPublicKey →
    error.kind = .invalidKey
  | publicKeyRole _, _ | publicKeyBytes, _ | notOnCurve, _ | verifyingIdentityTooLong, _ => rfl

end Error

namespace PublicKey

variable {bs : Bytes} {key : PublicKey}

/-- A key is made of the forms of the points of the curve, infinity apart. -/
theorem ofSec1_eq_ok_iff :
    ofSec1 bs = .ok key ↔
      ∃ x y, (Point.affine x y).OnCurve ∧ (Point.affine x y).Spelled bs ∧
        key = ofPoint (.affine x y) := by
  simp only [← and_assoc, ← Point.decode?_eq_some_iff]
  unfold ofSec1 pointOf
  constructor
  · intro h
    obtain ⟨p, hp, hkey⟩ := bind_eq_ok_iff.mp h
    split at hp
    · rename_i x y hread
      obtain rfl := Except.ok.inj hp
      exact ⟨x, y, hread, (Except.ok.inj hkey).symm⟩
    · simp at hp
  · rintro ⟨x, y, hread, rfl⟩
    rw [hread]
    rfl

/-- Bytes are refused for one reason. -/
theorem eq_notOnCurve_of_ofSec1 {error : Error} (h : ofSec1 bs = .error error) :
    error = .notOnCurve := by
  unfold ofSec1 pointOf at h
  rcases bind_eq_error_iff.mp h with h | ⟨p, -, h⟩
  · split at h
    · simp at h
    · exact (Except.error.inj h).symm
  · exact absurd h nofun

/-- All bytes are refused but the forms of these points. -/
theorem ofSec1_eq_error_iff :
    ofSec1 bs = .error .notOnCurve ↔
      ∀ x y, (Point.affine x y).OnCurve → ¬ (Point.affine x y).Spelled bs := by
  constructor
  · intro h x y hcurve hform
    have hmade := ofSec1_eq_ok_iff.mpr ⟨x, y, hcurve, hform, rfl⟩
    rw [h] at hmade
    simp at hmade
  · intro h
    have hnone : ∀ key, ofSec1 bs ≠ .ok key := by
      intro key hkey
      obtain ⟨x, y, hcurve, hform, -⟩ := ofSec1_eq_ok_iff.mp hkey
      exact h x y hcurve hform
    obtain ⟨error, herror⟩ := exists_error_of_ne_ok hnone
    rw [herror, eq_notOnCurve_of_ofSec1 herror]

/-- The key of a point is made of its uncompressed form. -/
theorem ofSec1_ofPoint {p : Point} (hcurve : p.OnCurve) (hne : p ≠ .infinity) :
    ofSec1 (ofPoint p).bytes = .ok (ofPoint p) := by
  cases p with
  | infinity => exact absurd rfl hne
  | affine x y => exact ofSec1_eq_ok_iff.mpr ⟨x, y, hcurve, .uncompressed _, rfl⟩

/-- Bytes of another length than the tag asks for are refused: 65 after a
four, 33 after any other. -/
theorem ofSec1_of_length
    (h : bs.length ≠ if bs.head? = some 0x04 then 65 else 33) :
    ofSec1 bs = .error .notOnCurve := by
  refine ofSec1_eq_error_iff.mpr fun x y _ hform => h ?_
  obtain ⟨tag, rest, rfl, hrest⟩ := hform.exists_tag
  simp only [List.head?_cons, Option.some.injEq, List.length_cons, List.length_append, hrest,
    length_coordinateBytes]
  split
  · rw [length_coordinateBytes]
    rfl
  · rfl

/-- Coordinates that are not below the prime are refused after every tag. -/
theorem ofSec1_of_prime_le {xs ys : Bytes} (hlength : xs.length = 32)
    (h : prime ≤ Bytes.toNat xs ∨ prime ≤ Bytes.toNat ys) (tag : UInt8) :
    ofSec1 (tag :: (xs ++ ys)) = .error .notOnCurve := by
  refine ofSec1_eq_error_iff.mpr fun x y _ hform => ?_
  obtain ⟨tag', rest, hbytes, hrest⟩ := hform.exists_tag
  obtain ⟨-, hsame⟩ := List.cons.inj hbytes
  have hsize : xs.length = (coordinateBytes x).length := by
    rw [hlength, length_coordinateBytes]
    rfl
  obtain ⟨hx, hy⟩ := List.append_inj hsame hsize
  rcases h with h | h
  · rw [hx, toNat_coordinateBytes] at h
    exact absurd x.isLt (Nat.not_lt.mpr h)
  · have hlt : Bytes.toNat rest < prime := by
      rw [hrest]
      split
      · rw [toNat_coordinateBytes]
        exact y.isLt
      · rw [Bytes.toNat_nil]
        exact Nat.pos_of_neZero prime
    rw [hy] at h
    exact absurd hlt (Nat.not_lt.mpr h)

/-- Coordinates off the curve are refused. -/
theorem ofSec1_of_not_onCurve {x y : Field} (h : ¬ (Point.affine x y).OnCurve) :
    ofSec1 (0x04 :: (coordinateBytes x ++ coordinateBytes y)) = .error .notOnCurve := by
  refine ofSec1_eq_error_iff.mpr fun u v hcurve hform => ?_
  obtain ⟨tag, rest, hbytes, hrest⟩ := hform.exists_tag
  obtain ⟨rfl, hsame⟩ := List.cons.inj hbytes
  have hsize : (coordinateBytes x).length = (coordinateBytes u).length := by
    rw [length_coordinateBytes, length_coordinateBytes]
  obtain ⟨hx, rfl⟩ := List.append_inj hsame hsize
  obtain rfl := coordinateBytes_injective hx
  obtain rfl := coordinateBytes_injective hrest
  exact h hcurve

/-- A first coordinate without a point over it is refused after every tag. -/
theorem ofSec1_of_no_point {x : Field} (h : ∀ y, ¬ (Point.affine x y).OnCurve) (tag : UInt8)
    (rest : Bytes) : ofSec1 (tag :: (coordinateBytes x ++ rest)) = .error .notOnCurve := by
  refine ofSec1_eq_error_iff.mpr fun u v hcurve hform => ?_
  obtain ⟨tag', rest', hbytes, -⟩ := hform.exists_tag
  obtain ⟨-, hsame⟩ := List.cons.inj hbytes
  have hsize : (coordinateBytes x).length = (coordinateBytes u).length := by
    rw [length_coordinateBytes, length_coordinateBytes]
  obtain rfl := coordinateBytes_injective (List.append_inj_left hsame hsize)
  exact h v hcurve

/-- Material is a key when it is meant for one, has the length of two
coordinates, and these are a key behind a four; otherwise fault is found with
it as a public key. -/
theorem ofMaterial_cases (m : KeyMaterial) :
    (m.role = .sm2PublicKey ∧ m.bytes.length = 64 ∧ ofMaterial m = ofSec1 (0x04 :: m.bytes)) ∨
    (¬ (m.role = .sm2PublicKey ∧ m.bytes.length = 64) ∧
      ∃ error, ofMaterial m = .error error ∧ error.InvalidPublicKey) := by
  unfold ofMaterial
  by_cases hrole : m.role = .sm2PublicKey
  · rw [if_neg (not_not_intro hrole)]
    by_cases hlength : m.bytes.length = 64
    · rw [KeyMaterial.point?_of_shape hrole hlength]
      exact .inl ⟨hrole, hlength, rfl⟩
    · have hnone : m.point? = none := by
        rw [KeyMaterial.point?, KeyMaterial.coordinates?, if_neg fun h => hlength h.right]
        rfl
      rw [hnone]
      exact .inr ⟨fun h => hlength h.right, _, rfl, trivial⟩
  · rw [if_pos hrole]
    exact .inr ⟨fun h => hrole h.left, _, rfl, trivial⟩

/-- Key material that is accepted is bytes that are. -/
theorem ofSec1_of_ofMaterial {m : KeyMaterial} (h : ofMaterial m = .ok key) :
    ofSec1 (0x04 :: m.bytes) = .ok key := by
  rcases ofMaterial_cases m with ⟨-, -, hsame⟩ | ⟨-, error, herror, -⟩
  · rw [← hsame, h]
  · rw [herror] at h
    simp at h

/-- Key material that is refused is refused as an invalid public key. -/
theorem invalidPublicKey_of_ofMaterial {m : KeyMaterial} {error : Error}
    (h : ofMaterial m = .error error) : error.InvalidPublicKey := by
  rcases ofMaterial_cases m with ⟨-, -, hsame⟩ | ⟨-, error', herror, hinvalid⟩
  · rw [hsame] at h
    rw [eq_notOnCurve_of_ofSec1 h]
    trivial
  · rw [herror] at h
    exact Except.error.inj h ▸ hinvalid

/-! ## 4. Keys that are made -/

/-- The keys that are made: of bytes, of key material, of a private key,
together with one, or of a text. -/
inductive Made : PublicKey → Prop
  | ofSec1 {bs : Bytes} {key : PublicKey} (h : PublicKey.ofSec1 bs = .ok key) : Made key
  | ofMaterial {m : KeyMaterial} {key : PublicKey} (h : PublicKey.ofMaterial m = .ok key) :
    Made key
  | publicKey {privateKey : PrivateKey} {key : PublicKey} (h : privateKey.publicKey = .ok key) :
    Made key
  | generate {e rest : Entropy} {pair : KeyPair}
      (h : KeyPair.generate.run e = (.ok pair, rest)) :
    Made pair.publicKey
  | importText {text : String} {key : PublicKey} (h : (importText text).result = .ok key) :
    Made key

/-- Every key that is made is that of a point of the curve. -/
theorem Made.exists_point (h : Made key) :
    ∃ x y, (Point.affine x y).OnCurve ∧ key = ofPoint (.affine x y) := by
  have hbytes : ∀ {bs key}, PublicKey.ofSec1 bs = .ok key →
      ∃ x y, (Point.affine x y).OnCurve ∧ key = ofPoint (.affine x y) := by
    intro bs key h
    obtain ⟨x, y, hcurve, -, hkey⟩ := ofSec1_eq_ok_iff.mp h
    exact ⟨x, y, hcurve, hkey⟩
  have hscalar : ∀ d : Scalar, ∃ x y, (Point.affine x y).OnCurve ∧
      ofPoint (d.times generator) = ofPoint (.affine x y) := by
    intro d
    have hcurve := d.onCurve_times_generator
    cases hpoint : d.times generator with
    | infinity => exact absurd hpoint d.times_generator_ne_infinity
    | affine x y => exact ⟨x, y, hpoint ▸ hcurve, rfl⟩
  cases h with
  | ofSec1 h => exact hbytes h
  | ofMaterial h => exact hbytes (ofSec1_of_ofMaterial h)
  | publicKey h =>
    obtain ⟨d, -, hkey⟩ := bind_eq_ok_iff.mp h
    obtain rfl := Except.ok.inj hkey
    exact hscalar d
  | generate h =>
    obtain ⟨d, -, rfl⟩ := KeyPair.run_generate_eq_ok_iff.mp h
    exact hscalar d
  | importText h =>
    obtain ⟨m, -, hm⟩ := Checked.result_bind_eq_ok_iff.mp h
    exact hbytes (ofSec1_of_ofMaterial hm)

end PublicKey

/-- Public keys are kept in one form. Every key that is made, in any of the
five ways, is a four and the two coordinates of a point of the curve, 65
bytes; they make the same key again, encryption under it can always be set
up, for that point, and the 64 bytes of both coordinates are given back.

A point other than infinity has one key, whether it is spelled compressed or
uncompressed. Bytes are a key only in a form of such a point, and all others
are refused because no point is found: coordinates off the curve or not below
the prime, any other length than the tag asks for, and infinity. Key material
is a key when its 64 bytes are one behind a four, and a text is when its
material is; all other material is refused as an invalid public key. -/
theorem publicKeys_canonical :
    (∀ key : PublicKey, key.Made →
      ∃ x y, (Point.affine x y).OnCurve ∧
        key.bytes = 0x04 :: (coordinateBytes x ++ coordinateBytes y) ∧ key.bytes.length = 65 ∧
        PublicKey.ofSec1 key.bytes = .ok key ∧
        (∀ layout, Encryptor.new key layout = .ok ⟨.affine x y, layout⟩) ∧
        key.coordinates = coordinateBytes x ++ coordinateBytes y ∧
        key.coordinates.length = 64) ∧
    (∀ p : Point, p.OnCurve → p ≠ .infinity →
      PublicKey.ofSec1 p.encode = .ok (.ofPoint p) ∧
      PublicKey.ofSec1 p.encodeCompressed = .ok (.ofPoint p)) ∧
    (∀ bs : Bytes,
      (∃ x y, (Point.affine x y).OnCurve ∧ (Point.affine x y).Spelled bs ∧
        PublicKey.ofSec1 bs = .ok (.ofPoint (.affine x y))) ∨
      ((∀ x y, (Point.affine x y).OnCurve → ¬ (Point.affine x y).Spelled bs) ∧
        PublicKey.ofSec1 bs = .error .notOnCurve)) ∧
    (∀ x y, ¬ (Point.affine x y).OnCurve →
      PublicKey.ofSec1 (0x04 :: (coordinateBytes x ++ coordinateBytes y))
        = .error .notOnCurve) ∧
    (∀ x, (∀ y, ¬ (Point.affine x y).OnCurve) → ∀ tag rest,
      PublicKey.ofSec1 (tag :: (coordinateBytes x ++ rest)) = .error .notOnCurve) ∧
    (∀ tag, ∀ xs ys : Bytes, xs.length = 32 →
      prime ≤ Bytes.toNat xs ∨ prime ≤ Bytes.toNat ys →
      PublicKey.ofSec1 (tag :: (xs ++ ys)) = .error .notOnCurve) ∧
    (∀ bs : Bytes, bs.length ≠ (if bs.head? = some 0x04 then 65 else 33) →
      PublicKey.ofSec1 bs = .error .notOnCurve) ∧
    PublicKey.ofSec1 Point.infinity.encode = .error .notOnCurve ∧
    (∀ m : KeyMaterial,
      (m.role = .sm2PublicKey ∧ m.bytes.length = 64 ∧
        PublicKey.ofMaterial m = PublicKey.ofSec1 (0x04 :: m.bytes)) ∨
      (¬ (m.role = .sm2PublicKey ∧ m.bytes.length = 64) ∧
        ∃ error, PublicKey.ofMaterial m = .error error ∧ error.InvalidPublicKey)) ∧
    (∀ text m, (KeyMaterial.sm2PublicKey text .hex false).result = .ok m →
      (PublicKey.importText text).result = PublicKey.ofMaterial m) := by
  refine ⟨?_, ?_, ?_, fun _ _ => PublicKey.ofSec1_of_not_onCurve,
    fun _ => PublicKey.ofSec1_of_no_point,
    fun tag _ _ hlength h => PublicKey.ofSec1_of_prime_le hlength h tag,
    fun _ => PublicKey.ofSec1_of_length, PublicKey.ofSec1_of_length (by decide),
    PublicKey.ofMaterial_cases, ?_⟩
  · intro key hmade
    obtain ⟨x, y, hcurve, rfl⟩ := hmade.exists_point
    have hne : Point.affine x y ≠ .infinity := Point.noConfusion
    refine ⟨x, y, hcurve, rfl, Point.length_encode hne, PublicKey.ofSec1_ofPoint hcurve hne, ?_,
      rfl, ?_⟩
    · intro layout
      exact bind_eq_ok_iff.mpr ⟨_, PublicKey.point_ofPoint hcurve hne, rfl⟩
    · rw [PublicKey.coordinates, List.length_drop, PublicKey.ofPoint, Point.length_encode hne]
      rfl
  · intro p hcurve hne
    refine ⟨PublicKey.ofSec1_ofPoint hcurve hne, ?_⟩
    cases p with
    | infinity => exact absurd rfl hne
    | affine x y => exact PublicKey.ofSec1_eq_ok_iff.mpr ⟨x, y, hcurve, .compressed _, rfl⟩
  · intro bs
    by_cases h : ∃ x y, (Point.affine x y).OnCurve ∧ (Point.affine x y).Spelled bs
    · obtain ⟨x, y, hcurve, hform⟩ := h
      exact .inl ⟨x, y, hcurve, hform,
        PublicKey.ofSec1_eq_ok_iff.mpr ⟨x, y, hcurve, hform, rfl⟩⟩
    · have hnone : ∀ x y, (Point.affine x y).OnCurve → ¬ (Point.affine x y).Spelled bs :=
        fun x y hcurve hform => h ⟨x, y, hcurve, hform⟩
      exact .inr ⟨hnone, PublicKey.ofSec1_eq_error_iff.mpr hnone⟩
  · intro text m hm
    have hread : ((KeyMaterial.sm2PublicKey text .hex false).adapt Error.keyMaterial).result
        = .ok m := mapError_eq_ok_iff.mpr hm
    rw [PublicKey.importText, Checked.result_bind]
    exact congrArg (· >>= PublicKey.ofMaterial) hread

/-- The compressed base point has the key of the base point; with the second
coordinate changed by one there is no key. -/
theorem publicKeys_canonical_basePoint :
    PublicKey.ofSec1 generator.encodeCompressed = .ok (.ofPoint generator) ∧
    PublicKey.ofSec1 (generator.encode.dropLast ++ [0xA1]) = .error .notOnCurve := by
  obtain ⟨-, hsame, -, hoff, -⟩ := publicKeys_canonical
  refine ⟨(hsame generator (by decide +kernel) Point.noConfusion).right, ?_⟩
  have hbytes : generator.encode.dropLast ++ [0xA1]
      = 0x04 :: (coordinateBytes
          (Fin.ofNat prime 0x32C4AE2C1F1981195F9904466A39C9948FE30BBFF2660BE1715A4589334C74C7)
        ++ coordinateBytes
          (Fin.ofNat prime 0xBC3736A2F4F6779C59BDCEE36B692153D0A9877CC62A474002DF32E52139F0A1)) := by
    decide +kernel
  rw [hbytes]
  exact hoff _ _ (by decide +kernel)

end ColumnMasking.Sm2
