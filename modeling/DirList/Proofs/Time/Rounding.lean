import DirList.Time.Rounding
import Mathlib.Algebra.Order.Ring.Nat
import Mathlib.Algebra.Ring.Parity

/-!
# What rounding leaves

Numbers with a fixed count of significant bits lie at a spacing that depends on their length only. A
number is rounded to one of the two next to it at this spacing: to the nearer one, and half way to
the one that is an even count of spacings.

Results:
1. `roundNat_cases`: the two numbers that a number may be rounded to.
2. `roundNat_of_dvd`: a number at its spacing is left as it is.
3. `roundNat_le`, `le_roundNat`: rounding does not pass any number at the spacing.
4. `roundNat_eq_iff`: which numbers are rounded to an even count of spacings.
-/

namespace DirList

/-- The distance between the numbers of so many significant bits that are as long as a number. -/
def spacing (bits n : Nat) : Nat :=
  2 ^ excessBits bits n

theorem spacing_pos (bits n : Nat) : 0 < spacing bits n :=
  Nat.two_pow_pos _

section Rounding

variable {bits n count : Nat}

/-- A number is rounded down up to half of the spacing, and up from there on. -/
theorem roundNat_cases (bits n : Nat) : ∃ kept rest,
    n = kept * spacing bits n + rest ∧ rest < spacing bits n ∧
      (roundNat bits n = kept * spacing bits n ∧ 2 * rest ≤ spacing bits n ∧
          (2 * rest = spacing bits n → Even kept) ∨
        roundNat bits n = (kept + 1) * spacing bits n ∧ spacing bits n ≤ 2 * rest ∧
          (2 * rest = spacing bits n → ¬Even kept)) := by
  refine ⟨n / spacing bits n, n % spacing bits n, (Nat.div_add_mod' _ _).symm,
    Nat.mod_lt _ (spacing_pos bits n), ?_⟩
  have unit : 1 <<< excessBits bits n = spacing bits n := Nat.one_shiftLeft _
  unfold roundNat
  rw [unit]
  dsimp only
  rw [Nat.even_iff]
  split
  next up =>
    refine .inr ⟨rfl, ?_, ?_⟩
    · omega
    · omega
  next down =>
    refine .inl ⟨rfl, ?_, ?_⟩
    · omega
    · omega

/-- A number at its spacing is left as it is. -/
theorem roundNat_of_dvd (whole : spacing bits n ∣ n) : roundNat bits n = n := by
  obtain ⟨kept, rest, parts, small, chosen⟩ := roundNat_cases bits n
  have none : rest = 0 := by
    have divides : spacing bits n ∣ rest :=
      (Nat.dvd_add_right (Nat.dvd_mul_left _ kept)).mp (whole.trans (dvd_of_eq parts))
    exact Nat.eq_zero_of_dvd_of_lt divides small
  have positive := spacing_pos bits n
  rcases chosen with ⟨same, -⟩ | ⟨-, half, -⟩ <;> omega

/-- A number is not rounded above a number at the spacing that is not less. -/
theorem roundNat_le (less : n ≤ count * spacing bits n) :
    roundNat bits n ≤ count * spacing bits n := by
  obtain ⟨kept, rest, parts, small, chosen⟩ := roundNat_cases bits n
  have positive := spacing_pos bits n
  rcases chosen with ⟨same, -⟩ | ⟨same, half, -⟩
  · omega
  · have passed : kept < count := by
      by_contra more
      have step : count * spacing bits n ≤ kept * spacing bits n :=
        Nat.mul_le_mul_right _ (by omega)
      omega
    rw [same]
    exact Nat.mul_le_mul_right _ passed

/-- A number is not rounded below a number at the spacing that is not greater. -/
theorem le_roundNat (more : count * spacing bits n ≤ n) :
    count * spacing bits n ≤ roundNat bits n := by
  obtain ⟨kept, rest, parts, small, chosen⟩ := roundNat_cases bits n
  have reached : count ≤ kept := by
    by_contra less
    have step : (kept + 1) * spacing bits n ≤ count * spacing bits n :=
      Nat.mul_le_mul_right _ (by omega)
    rw [Nat.succ_mul] at step
    omega
  have step : count * spacing bits n ≤ kept * spacing bits n := Nat.mul_le_mul_right _ reached
  rcases chosen with ⟨same, -⟩ | ⟨same, -⟩
  · omega
  · rw [same, Nat.succ_mul]
    omega

/-- No number moves by more than half of the spacing. -/
theorem roundNat_near (bits n : Nat) :
    2 * n ≤ 2 * roundNat bits n + spacing bits n ∧
      2 * roundNat bits n ≤ 2 * n + spacing bits n := by
  obtain ⟨kept, rest, parts, small, chosen⟩ := roundNat_cases bits n
  rcases chosen with ⟨same, half, -⟩ | ⟨same, half, -⟩
  · omega
  · rw [Nat.succ_mul] at same
    omega

/-- The numbers that are rounded to an even count of spacings are at most half of one away. -/
theorem roundNat_eq_iff (even : Even count) :
    roundNat bits n = count * spacing bits n ↔
      2 * n ≤ 2 * (count * spacing bits n) + spacing bits n ∧
        2 * (count * spacing bits n) ≤ 2 * n + spacing bits n := by
  refine ⟨fun same => same ▸ roundNat_near bits n, fun ⟨above, below⟩ => ?_⟩
  obtain ⟨kept, rest, parts, small, chosen⟩ := roundNat_cases bits n
  have positive := spacing_pos bits n
  have least : kept ≤ count := by
    by_contra less
    have step : (count + 1) * spacing bits n ≤ kept * spacing bits n :=
      Nat.mul_le_mul_right _ (by omega)
    rw [Nat.succ_mul] at step
    omega
  have most : count ≤ kept + 1 := by
    by_contra more
    have step : (kept + 2) * spacing bits n ≤ count * spacing bits n :=
      Nat.mul_le_mul_right _ (by omega)
    rw [Nat.add_mul] at step
    omega
  obtain rfl | rfl : count = kept ∨ count = kept + 1 := by omega
  · rcases chosen with ⟨same, -⟩ | ⟨-, half, odd⟩
    · exact same
    · exact absurd even (odd (by omega))
  · have next : (kept + 1) * spacing bits n = kept * spacing bits n + spacing bits n :=
      Nat.succ_mul _ _
    rcases chosen with ⟨-, half, even'⟩ | ⟨same, -⟩
    · exact absurd (even' (by omega)) (Nat.even_add_one.mp even)
    · exact same

/-- A number is at its spacing if it has so many significant bits, whatever zeros follow them. -/
theorem spacing_dvd_shifted (fits : n < 2 ^ bits) (zeros : Nat) :
    spacing bits (n * 2 ^ zeros) ∣ n * 2 ^ zeros := by
  rcases Nat.eq_zero_or_pos n with rfl | positive
  · rw [Nat.zero_mul]
    exact Nat.dvd_zero _
  have short : Nat.log2 (n * 2 ^ zeros) < bits + zeros := by
    rw [Nat.log2_lt (Nat.mul_pos positive (Nat.two_pow_pos zeros)).ne', Nat.pow_add]
    exact Nat.mul_lt_mul_of_pos_right fits (Nat.two_pow_pos zeros)
  have excess : excessBits bits (n * 2 ^ zeros) ≤ zeros := by
    unfold excessBits
    omega
  exact (Nat.pow_dvd_pow 2 excess).mul_left n

/-- A whole number that has so many significant bits is left as it is, whatever zeros follow. -/
theorem roundInt_shifted {number : Int} (fits : number.natAbs < 2 ^ bits) (zeros : Nat) :
    roundInt bits (number * 2 ^ zeros) = number * 2 ^ zeros := by
  have size : (number * 2 ^ zeros).natAbs = number.natAbs * 2 ^ zeros := by
    rw [Int.natAbs_mul, Int.natAbs_pow]
    rfl
  have exact : roundNat bits (number * 2 ^ zeros).natAbs = (number * 2 ^ zeros).natAbs := by
    rw [size]
    exact roundNat_of_dvd (spacing_dvd_shifted fits zeros)
  unfold roundInt
  split
  · rw [exact]
    omega
  · rw [show (number * 2 ^ zeros).toNat = (number * 2 ^ zeros).natAbs by omega, exact]
    omega

end Rounding
end DirList
