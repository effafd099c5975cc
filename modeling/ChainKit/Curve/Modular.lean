/-!
# Modular arithmetic — powers, inverses, multiples

Numbers below a modulus come with sum, difference and product. What is
missing are powers, and with them inverses: below a prime, the inverse of
`x` is a power of `x`. Powers and multiples are both found by doubling.
-/

namespace ChainKit

namespace Curve

/-- `n` copies of `x` joined together, found by doubling. -/
def multiple {α : Type} (join : α → α → α) (unit : α) (n : Nat) (x : α) : α :=
  if n = 0 then unit
  else
    let doubled := multiple join unit (n / 2) (join x x)
    if n % 2 = 0 then doubled else join x doubled
termination_by n
decreasing_by omega

variable {modulus : Nat}

/-- A number reduced below a modulus. -/
def residue (pos : 0 < modulus) (n : Nat) : Fin modulus := ⟨n % modulus, Nat.mod_lt n pos⟩

/-- The power `x ^ n`. -/
def power (x : Fin modulus) (n : Nat) : Fin modulus := multiple (· * ·) (residue x.pos 1) n x

/-- The inverse of `x` below a prime modulus; zero for zero. -/
def inverse (x : Fin modulus) : Fin modulus := power x (modulus - 2)

end Curve

end ChainKit
