import Mathlib.Algebra.Order.Ring.Nat
import Mathlib.Tactic.Ring

/-! Natural numbers with a bounded number of significant bits, and rounding to the nearest of them,
ties to an even significand. The exponent is unbounded. -/
namespace Numeric

def Significant (bits n : Nat) : Prop := ∃ m k, m < 2 ^ bits ∧ n = m * 2 ^ k

def nearestQuotient (unit n : Nat) : Nat :=
  if 2 * (n % unit) < unit ∨ 2 * (n % unit) = unit ∧ n / unit % 2 = 0 then n / unit
  else n / unit + 1

def lowestUnit (bits n : Nat) : Nat := 2 ^ (n.log2 + 1 - bits)

def roundSignificant (bits n : Nat) : Nat :=
  if n < 2 ^ bits then n
  else nearestQuotient (lowestUnit bits n) n * lowestUnit bits n

theorem nearestQuotient_nearest {unit : Nat} (positive : 0 < unit) (n k : Nat) :
    ((nearestQuotient unit n * unit : Nat) - n : Int).natAbs ≤
      ((k * unit : Nat) - n : Int).natAbs := by
  have split : n / unit * unit + n % unit = n := Nat.div_add_mod' n unit
  have small : n % unit < unit := Nat.mod_lt n positive
  have next : (n / unit + 1) * unit = n / unit * unit + unit := Nat.succ_mul _ _
  have side : k * unit ≤ n / unit * unit ∨ (n / unit + 1) * unit ≤ k * unit := by
    rcases Nat.lt_or_ge (n / unit) k with above | below
    · exact .inr (Nat.mul_le_mul_right unit above)
    · exact .inl (Nat.mul_le_mul_right unit below)
  unfold nearestQuotient
  split_ifs with down
  · omega
  · rw [next]
    omega

theorem lowestUnit_dvd {bits n other : Nat} (significant : Significant bits other)
    (large : 2 ^ n.log2 ≤ other) : lowestUnit bits n ∣ other := by
  obtain ⟨m, k, hm, rfl⟩ := significant
  have bound : 2 ^ n.log2 < 2 ^ (bits + k) := calc
    2 ^ n.log2 ≤ m * 2 ^ k := large
    _ < 2 ^ bits * 2 ^ k := Nat.mul_lt_mul_of_pos_right hm (Nat.two_pow_pos k)
    _ = 2 ^ (bits + k) := (Nat.pow_add 2 bits k).symm
  have exponent := (Nat.pow_lt_pow_iff_right (by decide)).1 bound
  exact Dvd.dvd.mul_left (Nat.pow_dvd_pow 2 (by omega)) m

section
variable {bits n : Nat}

theorem bits_le_log2 (long : ¬ n < 2 ^ bits) : bits ≤ n.log2 :=
  (Nat.le_log2 (by have := Nat.two_pow_pos bits; omega)).2 (Nat.not_lt.1 long)

theorem lowestUnit_dvd_leading (positive : 0 < bits) : lowestUnit bits n ∣ 2 ^ n.log2 :=
  Nat.pow_dvd_pow 2 (by omega)

theorem roundSignificant_significant (positive : 0 < bits) :
    Significant bits (roundSignificant bits n) := by
  unfold roundSignificant
  split_ifs with short
  · exact ⟨n, 0, short, by simp⟩
  · have long := bits_le_log2 short
    have below : n < 2 ^ bits * lowestUnit bits n := by
      rw [lowestUnit, ← Nat.pow_add, show bits + (n.log2 + 1 - bits) = n.log2 + 1 by omega]
      exact Nat.lt_log2_self
    have quotient : n / lowestUnit bits n < 2 ^ bits :=
      (Nat.div_lt_iff_lt_mul (Nat.two_pow_pos _)).2 below
    have bounded : nearestQuotient (lowestUnit bits n) n ≤ 2 ^ bits := by
      unfold nearestQuotient
      split_ifs <;> omega
    rcases Nat.lt_or_eq_of_le bounded with less | carry
    · exact ⟨_, _, less, rfl⟩
    · refine ⟨1, bits + (n.log2 + 1 - bits), Nat.one_lt_two_pow (by omega), ?_⟩
      rw [carry, lowestUnit, ← Nat.pow_add, Nat.one_mul]

/-- No number with so few bits is closer. -/
theorem roundSignificant_nearest (positive : 0 < bits) {other : Nat}
    (significant : Significant bits other) :
    ((roundSignificant bits n : Nat) - n : Int).natAbs ≤ ((other : Nat) - n : Int).natAbs := by
  unfold roundSignificant
  split_ifs with short
  · simp
  · have unit : 0 < lowestUnit bits n := Nat.two_pow_pos _
    by_cases large : 2 ^ n.log2 ≤ other
    · obtain ⟨k, rfl⟩ := lowestUnit_dvd significant large
      rw [Nat.mul_comm]
      simpa only [Nat.mul_comm] using nearestQuotient_nearest unit n k
    · obtain ⟨k, leading⟩ := lowestUnit_dvd_leading (n := n) positive
      have near := nearestQuotient_nearest unit n k
      rw [Nat.mul_comm k, ← leading] at near
      have reached : 2 ^ n.log2 ≤ n :=
        Nat.log2_self_le (by have := Nat.two_pow_pos bits; omega)
      omega

/-- Rounding changes exactly the numbers that have more bits. -/
theorem roundSignificant_eq_iff (positive : 0 < bits) :
    roundSignificant bits n = n ↔ Significant bits n := by
  constructor
  · intro same
    rw [← same]
    exact roundSignificant_significant positive
  · intro significant
    have near := roundSignificant_nearest (n := n) positive significant
    omega

end
end Numeric
