/-
ColumnMasking.Sm2.Residue — powers and inverses of residues.

A power is taken by squaring: the exponent is halved in every step, and
the base is multiplied into the product where its lowest bit is one.
Modulo a prime the inverse is a power, by Fermat's little theorem.
-/

namespace ColumnMasking.Sm2

/-- The product times the base to the power of the last `bits` bits of
the exponent. -/
def powerFrom {m : Nat} :
    (bits : Nat) → (product base : Fin m) → (exponent : Nat) → Fin m
  | 0, product, _, _ => product
  | bits + 1, product, base, exponent =>
    powerFrom bits (if exponent % 2 = 1 then product * base else product) (base * base)
      (exponent / 2)

/-- A power of a residue. -/
def power {m : Nat} (base : Fin m) (exponent : Nat) : Fin m :=
  powerFrom (exponent.log2 + 1) ⟨1 % m, Nat.mod_lt 1 base.pos⟩ base exponent

/-- The inverse of a residue modulo a prime; zero for zero. -/
def inverse {m : Nat} (x : Fin m) : Fin m :=
  power x (m - 2)

end ColumnMasking.Sm2
