import Mathlib.Data.List.Basic

/-!
# Cutting a list into chunks

The chunks of a list are what a loop over the multiples of the chunk size
slices out of it. Put together again they are the list, so nothing is missed
or doubled at a boundary, whatever the length is; and none is longer than the
chunk size.
-/

namespace KepServerLogger

variable {α : Type*}

/-- `range(0, stop, step)` -/
def multiplesBelow (stop step : Nat) : List Nat := List.range' 0 ((stop + step - 1) / step) step

/-- `l[i : i + n]` -/
def chunkAt (l : List α) (n i : Nat) : List α := (l.drop i).take n

def chunks (n : Nat) (l : List α) : List (List α) := (multiplesBelow l.length n).map (chunkAt l n)

theorem length_chunkAt_le (l : List α) (n i : Nat) : (chunkAt l n i).length ≤ n :=
  List.length_take_le _ _

/-- The chunks from some place on are what stands there. -/
theorem flatten_chunksFrom (l : List α) (n start count : Nat) :
    ((List.range' start count n).map (chunkAt l n)).flatten = (l.drop start).take (count * n) := by
  induction count generalizing start with
  | zero => simp
  | succ count ih =>
      rw [List.range'_succ, List.map_cons, List.flatten_cons, ih]
      have htake : (count + 1) * n = n + count * n := by
        rw [Nat.succ_mul, Nat.add_comm]
      rw [htake, List.take_add, List.drop_drop]
      rfl

/-- There are enough of them. -/
theorem le_count_mul (len : Nat) {n : Nat} (hn : 0 < n) : len ≤ (len + n - 1) / n * n := by
  have hdiv := Nat.div_add_mod (len + n - 1) n
  have hmod := Nat.mod_lt (len + n - 1) hn
  rw [Nat.mul_comm] at hdiv
  omega

theorem flatten_chunks {n : Nat} (hn : 0 < n) (l : List α) : (chunks n l).flatten = l := by
  unfold chunks multiplesBelow
  rw [flatten_chunksFrom, List.drop_zero]
  exact List.take_of_length_le (le_count_mul l.length hn)

end KepServerLogger
