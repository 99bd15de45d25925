import Mathlib.Algebra.Order.Group.Unbundled.Int
import Mathlib.Data.Int.Basic

/-!
# The triangle wave

The sequence that goes from zero up to a height and down to zero again, one at
a time, for ever. Its period is twice the height; in the first half of it the
wave is the position, in the second half what is left of the period.
-/

namespace KepServerLogger

/-- The wave of height `m` at position `n`. -/
def triangleWave (m n : Int) : Int :=
  if n % (2 * m) ≤ m then n % (2 * m) else 2 * m - n % (2 * m)

namespace triangleWave

variable {m : Int}

/-- The next position within the period. -/
theorem succ_emod (hm : 1 ≤ m) (n : Int) :
    (n + 1) % (2 * m) = if n % (2 * m) + 1 = 2 * m then 0 else n % (2 * m) + 1 := by
  have hpos : 0 < 2 * m := by omega
  have hlt := Int.emod_lt_of_pos n hpos
  have hnonneg := Int.emod_nonneg n hpos.ne'
  rw [← Int.emod_add_emod]
  split
  · next hend => rw [hend, Int.emod_self]
  · exact Int.emod_eq_of_lt (by omega) (by omega)

theorem mem_range (hm : 1 ≤ m) (n : Int) : 0 ≤ triangleWave m n ∧ triangleWave m n ≤ m := by
  have hpos : 0 < 2 * m := by omega
  have hlt := Int.emod_lt_of_pos n hpos
  have hnonneg := Int.emod_nonneg n hpos.ne'
  unfold triangleWave
  split <;> omega

/-- Up in the first half of the period, down in the second. -/
theorem succ (hm : 1 ≤ m) (n : Int) :
    triangleWave m (n + 1) = triangleWave m n + if n % (2 * m) < m then 1 else -1 := by
  have hpos : 0 < 2 * m := by omega
  have hlt := Int.emod_lt_of_pos n hpos
  unfold triangleWave
  rw [succ_emod hm n]
  split_ifs <;> omega

end triangleWave

end KepServerLogger
