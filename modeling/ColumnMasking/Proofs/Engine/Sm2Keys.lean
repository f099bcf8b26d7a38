/-
ColumnMasking.Proofs.Engine.Sm2Keys — which texts an engine accepts for keys of
SM2.

A public key text is accepted when it stands for a point of the curve, and the
key is that of the point (`sm2PublicKey_eq_ok_iff`). A private key text is
accepted when it denotes a scalar, and the key is that of the scalar
(`sm2PrivateKey_eq_ok_iff`). All other texts are refused as invalid keys.
-/
import ColumnMasking.Engine.Sm2
import ColumnMasking.Proofs.FirstFault
import ColumnMasking.Proofs.Sm2.CanonicalKeys
import ColumnMasking.Proofs.Sm2.PrivateKeyTexts

namespace ColumnMasking.Engine

variable {engine : Engine} {text : String}

/-! ## 1. Public keys -/

/-- The text stands for the point under the settings: it is resolved to the
two coordinates of that point of the curve. -/
def PublicPoint (engine : Engine) (text : String) (p : Sm2.Point) : Prop :=
  p.OnCurve ∧ p ≠ .infinity ∧ ∃ m,
    (KeyMaterial.sm2PublicKey text engine.settings.keyEncoding
      engine.settings.strictPublicKey).result = .ok m ∧ p.encode = 0x04 :: m.bytes

/-- A text stands for one point. -/
theorem PublicPoint.unique {p q : Sm2.Point} (hp : engine.PublicPoint text p)
    (hq : engine.PublicPoint text q) : p = q := by
  obtain ⟨hpCurve, -, m, hpText, hpBytes⟩ := hp
  obtain ⟨hqCurve, -, m', hqText, hqBytes⟩ := hq
  obtain rfl : m = m' := Except.ok.inj (hpText.symm.trans hqText)
  have hsame := Sm2.Point.decode?_encode hpCurve
  rw [hpBytes, ← hqBytes, Sm2.Point.decode?_encode hqCurve] at hsame
  exact (Option.some.inj hsame).symm

/-- The key of a text is that of the point that it stands for. -/
theorem sm2PublicKey_eq_ok_iff {key : Sm2.PublicKey} :
    (engine.sm2PublicKey text).result = .ok key
      ↔ ∃ p, engine.PublicPoint text p ∧ key = .ofPoint p := by
  unfold sm2PublicKey
  rw [Checked.result_bind_eq_ok_iff]
  constructor
  · rintro ⟨m, hm, hkey⟩
    have hmaterial := Sm2.PublicKey.ofSec1_of_ofMaterial (mapError_eq_ok_iff.mp hkey)
    obtain ⟨x, y, hcurve, hform, rfl⟩ := Sm2.PublicKey.ofSec1_eq_ok_iff.mp hmaterial
    refine ⟨.affine x y, ⟨hcurve, Sm2.Point.noConfusion, m, mapError_eq_ok_iff.mp hm, ?_⟩, rfl⟩
    have hread := Sm2.Point.decode?_eq_some_iff.mpr ⟨hcurve, hform⟩
    exact (Sm2.Point.encode_of_decode? hread rfl).right
  · rintro ⟨p, ⟨hcurve, hne, m, hm, hbytes⟩, rfl⟩
    have hshaped := KeyMaterial.shaped_sm2PublicKey engine.settings.strictPublicKey
    have hrole := hshaped.role_eq hm
    have hlength := List.mem_singleton.mp (hshaped.length_mem hm)
    have hpoint := KeyMaterial.point?_of_shape hrole hlength
    rw [← hbytes] at hpoint
    exact ⟨m, mapError_eq_ok_iff.mpr hm, mapError_eq_ok_iff.mpr
      (Sm2.PublicKey.ofMaterial_of_coordinates hcurve hne hrole hpoint)⟩

/-- A text is refused as an invalid key, for its shape or for its point. -/
theorem kind_of_sm2PublicKey {error : Error}
    (h : (engine.sm2PublicKey text).result = .error error) : error.kind = .invalidKey := by
  unfold sm2PublicKey at h
  rw [Checked.result_bind] at h
  rcases bind_eq_error_iff.mp h with h | ⟨m, -, h⟩
  · obtain ⟨cause, -, rfl⟩ := mapError_eq_error_iff.mp h
    rfl
  · obtain ⟨cause, hcause, rfl⟩ := mapError_eq_error_iff.mp h
    exact (Sm2.PublicKey.invalidPublicKey_of_ofMaterial hcause).kind_eq

/-- A public key text is accepted exactly when it stands for a point. -/
theorem decidedBy_sm2PublicKey :
    DecidedBy (engine.sm2PublicKey text).result
      [(¬ ∃ p, engine.PublicPoint text p, .invalidKey)] Succeeds := by
  refine .of_succeeds_iff ?_ fun error => kind_of_sm2PublicKey
  constructor
  · rintro ⟨key, hkey⟩
    obtain ⟨p, hp, -⟩ := sm2PublicKey_eq_ok_iff.mp hkey
    exact ⟨p, hp⟩
  · rintro ⟨p, hp⟩
    exact ⟨_, sm2PublicKey_eq_ok_iff.mpr ⟨p, hp, rfl⟩⟩

/-! ## 2. Private keys -/

/-- The key of a text is that of the scalar that it denotes. -/
theorem sm2PrivateKey_eq_ok_iff {key : Sm2.PrivateKey} :
    engine.sm2PrivateKey text = .ok key ↔
      ∃ d : Sm2.Scalar, KeyMaterial.DenotesNumber text engine.settings.keyEncoding d.value
        ∧ key = .ofScalar d := by
  unfold sm2PrivateKey
  rw [bind_eq_ok_iff]
  constructor
  · rintro ⟨m, hm, hkey⟩
    have hresolved := mapError_eq_ok_iff.mp hm
    obtain ⟨raw, source, hraw, -, -⟩ := KeyMaterial.sm2PrivateKey_eq_ok_iff.mp hresolved
    rw [KeyMaterial.sm2PrivateKey_of_bytes hraw] at hresolved
    obtain ⟨d, hvalue, rfl⟩ :=
      (Sm2.PrivateKey.ofMaterial_eq_ok_iff hresolved).mp (mapError_eq_ok_iff.mp hkey)
    exact ⟨d, KeyMaterial.denotesNumber_iff.mpr ⟨raw, source, hraw, hvalue.symm⟩, rfl⟩
  · rintro ⟨d, hdenotes, rfl⟩
    obtain ⟨raw, source, hraw, hvalue⟩ := KeyMaterial.denotesNumber_iff.mp hdenotes
    have hsmall : d.value < 2 ^ 256 := Nat.lt_trans d.lt_order (by decide)
    have hmaterial : KeyMaterial.privateKeyMaterial d.value source = .ok _ := if_pos hsmall
    have hresolved := KeyMaterial.sm2PrivateKey_of_bytes hraw
    rw [hvalue] at hresolved
    exact ⟨_, mapError_eq_ok_iff.mpr (hresolved.trans hmaterial), mapError_eq_ok_iff.mpr
      ((Sm2.PrivateKey.ofMaterial_eq_ok_iff hmaterial).mpr ⟨d, rfl, rfl⟩)⟩

/-- The text denotes a scalar under the settings. -/
def PrivateNumber (engine : Engine) (text : String) : Prop :=
  ∃ n, KeyMaterial.DenotesNumber text engine.settings.keyEncoding n
    ∧ 1 ≤ n ∧ n ≤ Sm2.order - 1

theorem privateNumber_iff :
    engine.PrivateNumber text ↔
      ∃ d : Sm2.Scalar, KeyMaterial.DenotesNumber text engine.settings.keyEncoding d.value := by
  have hpos : 0 < Sm2.order := by decide
  constructor
  · rintro ⟨n, hdenotes, hrange⟩
    exact ⟨⟨n, hrange.left, by omega⟩, hdenotes⟩
  · rintro ⟨d, hdenotes⟩
    have hlt := d.lt_order
    exact ⟨d.value, hdenotes, d.pos, by omega⟩

/-- A text is refused as an invalid key, for its shape or for its number. -/
theorem kind_of_sm2PrivateKey {error : Error} (h : engine.sm2PrivateKey text = .error error) :
    error.kind = .invalidKey := by
  rcases bind_eq_error_iff.mp h with h | ⟨m, -, h⟩
  · obtain ⟨cause, -, rfl⟩ := mapError_eq_error_iff.mp h
    rfl
  · obtain ⟨cause, hcause, rfl⟩ := mapError_eq_error_iff.mp h
    unfold Sm2.PrivateKey.ofMaterial at hcause
    split at hcause
    · obtain rfl := Except.error.inj hcause
      rfl
    · split at hcause
      · obtain rfl := Except.error.inj hcause
        rfl
      · simp at hcause

/-- A private key text is accepted exactly when it denotes a scalar. -/
theorem decidedBy_sm2PrivateKey :
    DecidedBy (engine.sm2PrivateKey text) [(¬ engine.PrivateNumber text, .invalidKey)]
      Succeeds := by
  refine .of_succeeds_iff ?_ fun error => kind_of_sm2PrivateKey
  rw [privateNumber_iff]
  constructor
  · rintro ⟨key, hkey⟩
    obtain ⟨d, hdenotes, -⟩ := sm2PrivateKey_eq_ok_iff.mp hkey
    exact ⟨d, hdenotes⟩
  · rintro ⟨d, hdenotes⟩
    exact ⟨_, sm2PrivateKey_eq_ok_iff.mpr ⟨d, hdenotes, rfl⟩⟩

end ColumnMasking.Engine
