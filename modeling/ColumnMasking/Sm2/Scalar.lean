/-
ColumnMasking.Sm2.Scalar — the numbers between one and the order of the
base point less one: private keys, ephemeral keys and the two halves of
a signature.

Scalars are drawn by rejection: blocks of 32 random bytes are taken
until one spells a scalar.
-/
import ColumnMasking.Entropy
import ColumnMasking.KeyMaterial
import ColumnMasking.Sm2.Curve

namespace ColumnMasking.Sm2

/-- A number that is neither zero nor as large as the order. -/
structure Scalar where
  value : Nat
  pos : 0 < value
  lt_order : value < order
  deriving DecidableEq, Repr

namespace Scalar

/-- The scalar of a number in range. -/
def ofNat? (n : Nat) : Option Scalar :=
  if h : 0 < n ∧ n < order then some ⟨n, h.1, h.2⟩ else none

/-- The scalar that exactly 32 bytes spell. -/
def ofBytes? (bs : Bytes) : Option Scalar :=
  if bs.length = KeyMaterial.coordinateLength then ofNat? (Bytes.toNat bs) else none

/-- The 32 bytes of a scalar. -/
def toBytes (s : Scalar) : Bytes :=
  Bytes.ofNat KeyMaterial.coordinateLength s.value

/-- The scalar as a residue. -/
def residue (s : Scalar) : Fin order := ⟨s.value, s.lt_order⟩

/-- The multiple of a point by a scalar. -/
def times (s : Scalar) (p : Point) : Point := p.multiple s.value

/-- A scalar found is the number asked for. -/
theorem ofNat?_eq_some {n : Nat} {s : Scalar} (h : ofNat? n = some s) : s.value = n := by
  unfold ofNat? at h
  split at h
  · cases h; rfl
  · simp at h

/-- Draws blocks of 32 bytes until one spells a scalar. When the stream
runs dry there is none, and what was drawn is gone. -/
def draw (e : Entropy) : Option Scalar × Entropy :=
  match _drawn : e.draw? KeyMaterial.coordinateLength with
  | none => (none, e)
  | some (block, rest) =>
    match ofBytes? block with
    | some s => (some s, rest)
    | none => draw rest
termination_by e.bytes.length
decreasing_by
  have := Entropy.length_draw? _drawn
  simp only [KeyMaterial.coordinateLength] at this
  omega

/-- A scalar drawn has taken bytes from the stream. -/
theorem length_draw_lt {e rest : Entropy} {s : Scalar} (h : draw e = (some s, rest)) :
    rest.bytes.length < e.bytes.length := by
  fun_induction draw e with
  | case1 => simp at h
  | case2 e block after hdraw s' hs =>
    have hlen := Entropy.length_draw? hdraw
    simp only [KeyMaterial.coordinateLength] at hlen
    cases h
    omega
  | case3 e block after hdraw hs ih =>
    have hlen := Entropy.length_draw? hdraw
    have := ih h
    simp only [KeyMaterial.coordinateLength] at hlen
    omega

end Scalar
end ColumnMasking.Sm2
