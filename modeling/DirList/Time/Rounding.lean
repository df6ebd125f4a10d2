/-!
# Rounding to significant bits

A number kept in a fixed count of significant bits is the nearest number that fits; of two equally
near ones it is the one whose last kept bit is zero.
-/

namespace DirList

/-- The bits of a natural number beyond its first `bits`. -/
def excessBits (bits n : Nat) : Nat :=
  Nat.log2 n + 1 - bits

/-- A natural number rounded to its first `bits` significant bits. -/
def roundNat (bits n : Nat) : Nat :=
  let unit := 1 <<< excessBits bits n
  let kept := n / unit
  let rest := n % unit
  if unit < 2 * rest ∨ (unit = 2 * rest ∧ kept % 2 = 1) then (kept + 1) * unit else kept * unit

/-- A whole number rounded to its first `bits` significant bits. -/
def roundInt (bits : Nat) (n : Int) : Int :=
  if n < 0 then -(roundNat bits n.natAbs : Int) else roundNat bits n.toNat

end DirList
