import Mathlib.Algebra.Order.Group.Int
import Mathlib.Tactic.Ring

namespace Rescale

-- Counts of units, `p` of them to `q` of the others, rounded down.
def rescale (p q x : Int) : Int := x * p / q

variable {p q x : Int}

theorem rescale_back_exact (hp : 0 < p) (hexact : q ∣ x * p) :
    rescale q p (rescale p q x) = x := by
  simp only [rescale]
  rw [Int.ediv_mul_cancel hexact, Int.mul_ediv_cancel _ hp.ne']

-- What rounding takes away is less than one unit of the finer count.
theorem rescale_back_inexact (hq : 0 < q) (hlt : q < p) (hinexact : ¬ q ∣ x * p) :
    rescale q p (rescale p q x) = x - 1 := by
  have hpos : 0 < x * p % q := by
    have hnonneg := Int.emod_nonneg (x * p) hq.ne'
    have hzero : x * p % q ≠ 0 := mt Int.dvd_of_emod_eq_zero hinexact
    omega
  have hmod := Int.emod_lt_of_pos (x * p) hq
  have hsplit : x * p / q * q = (p - x * p % q) + (x - 1) * p := by
    have hdiv := Int.ediv_mul_add_emod (x * p) q
    have hexpand : (x - 1) * p = x * p - p := by ring
    omega
  simp only [rescale]
  rw [hsplit, Int.add_mul_ediv_right _ _ (by omega), Int.ediv_eq_zero_of_lt (by omega) (by omega),
    Int.zero_add]

theorem rescale_back_iff (hq : 0 < q) (hlt : q < p) :
    rescale q p (rescale p q x) = x ↔ q ∣ x * p := by
  constructor
  · intro heq
    by_contra hinexact
    rw [rescale_back_inexact hq hlt hinexact] at heq
    omega
  · exact rescale_back_exact (hq.trans hlt)

-- A product that wraps around has lost at least one unit.
theorem wrapped_eq_iff {w p q x : Nat} (hq : 0 < q) (hle : q ≤ w) :
    x * p % w / q = x * p / q ↔ x * p < w := by
  constructor
  · intro heq
    by_contra hwrap
    have hmod : x * p % w + w ≤ x * p := by
      have hdiv := Nat.mod_add_div (x * p) w
      have hone : 1 ≤ x * p / w := (Nat.one_le_div_iff (hq.trans_le hle)).2 (Nat.not_lt.1 hwrap)
      have hcycle := Nat.mul_le_mul_left w hone
      omega
    have hunit : x * p % w / q + 1 ≤ x * p / q := by
      rw [← Nat.add_div_right _ hq]
      exact Nat.div_le_div_right (by omega)
    omega
  · intro hlt
    rw [Nat.mod_eq_of_lt hlt]

end Rescale
