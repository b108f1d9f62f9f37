import Mathlib.Algebra.BigOperators.Group.Finset.Basic
import Mathlib.Algebra.Order.BigOperators.Group.Finset

namespace Waterbox

/-!
# Places in consecutive blocks

Blocks of the sizes `size 0`, `size 1`, … lie one behind the other, as the months of a year or the
years since some first year do.

* `below size i` — everything before the block `i`.
* `exists_block` — every place lies in a block.
* `locate_eq` — the loop that takes block after block away from a place finds its block.
-/

namespace Blocks

open Finset

variable {size : Nat → Nat}

/-- Everything before the block `i`. -/
def below (size : Nat → Nat) (i : Nat) : Nat := ∑ j ∈ range i, size j

@[simp] theorem below_zero : below size 0 = 0 := rfl

/-- One block more. -/
theorem below_succ (i : Nat) : below size (i + 1) = below size i + size i := sum_range_succ size i

/-- Blocks lie in their order. -/
theorem below_mono {i j : Nat} (h : i ≤ j) : below size i ≤ below size j :=
  sum_le_sum_of_subset (range_subset_range.2 h)

/-- Every place lies in a block, where there are blocks enough. -/
theorem exists_block {n d : Nat} (h : d < below size n) :
    ∃ i < n, ∃ r < size i, d = below size i + r := by
  induction n with
  | zero => exact absurd h (Nat.not_lt_zero d)
  | succ n ih =>
    by_cases hn : d < below size n
    · obtain ⟨i, hi, r, hr, hd⟩ := ih hn
      exact ⟨i, Nat.lt_succ_of_lt hi, r, hr, hd⟩
    · rw [below_succ] at h
      exact ⟨n, Nat.lt_succ_self n, d - below size n, by omega, by omega⟩

/-- The block of a place and the place in it, from the block `i` on, by taking blocks away. -/
def locate (size : Nat → Nat) : Nat → Nat → Nat → Nat × Nat
  | 0, i, d => (i, d)
  | n + 1, i, d => if size i ≤ d then locate size n (i + 1) (d - size i) else (i, d)

/-- The search finds the block of a place and the place in it. -/
theorem locate_eq {n k i r : Nat} (hk : k ≤ i) (hn : i - k < n) (hr : r < size i) :
    locate size n k (below size i + r - below size k) = (i, r) := by
  induction n generalizing k with
  | zero => omega
  | succ n ih =>
    rw [locate]
    by_cases heq : k = i
    · subst heq
      rw [if_neg (by omega)]
      congr 1
      omega
    · have hle : below size (k + 1) ≤ below size i := below_mono (by omega)
      rw [below_succ] at hle
      rw [if_pos (by omega)]
      have hsub : below size i + r - below size k - size k =
          below size i + r - below size (k + 1) := by
        rw [below_succ]
        omega
      rw [hsub, ih (by omega) (by omega)]

end Blocks

end Waterbox
