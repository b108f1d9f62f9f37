import Mathlib.Algebra.BigOperators.Field
import Mathlib.Algebra.BigOperators.Intervals
import Mathlib.Logic.Equiv.Basic
import Mathlib.Tactic.FieldSimp
import Mathlib.Tactic.LinearCombination
import Mathlib.Tactic.Ring

namespace Waterbox

namespace Elimination

open Finset

/-!
# Linear systems, and their solution by elimination

A system of `n` equations over a field is a matrix of `n` rows whose column `n` is the right side.

* `Solves` — a vector is a solution.
* `swapped`, `eliminated` — the exchange of two rows, and the step that turns one column into that
  of the identity.  Neither changes the solutions (`solves_swapped`, `solves_eliminated`).
* `UnitBefore` — the columns so far are those of the identity; `solves_iff_of_unit` reads the only
  solution off where all of them are.
-/

variable {K : Type*} [Field K]

/-- The vector `x` solves the `n` equations. -/
def Solves (n : ℕ) (A : ℕ → ℕ → K) (x : ℕ → K) : Prop :=
  ∀ r < n, ∑ j ∈ range n, A r j * x j = A r n

/-- The rows `i` and `p` are exchanged. -/
def swapped (A : ℕ → ℕ → K) (i p : ℕ) : ℕ → ℕ → K := fun r => A (Equiv.swap i p r)

/-- The row `i` is divided by its diagonal entry, and its multiples are taken from the other rows
    such that they lose the column `i`. -/
def eliminated (A : ℕ → ℕ → K) (i : ℕ) : ℕ → ℕ → K := fun r j =>
  if r = i then A i j / A i i else A r j - A r i * (A i j / A i i)

/-- In the columns before `i` the matrix is the identity. -/
def UnitBefore (n i : ℕ) (A : ℕ → ℕ → K) : Prop :=
  ∀ r < n, ∀ j < i, A r j = if r = j then 1 else 0

variable {n i p : ℕ} {A B : ℕ → ℕ → K} {x y : ℕ → K}

/-! ### Solutions -/

/-- Only the entries of the system matter. -/
theorem Solves.congr (h : ∀ r < n, ∀ j ≤ n, A r j = B r j) (hx : Solves n A x) : Solves n B x := by
  intro r hr
  rw [← h r hr n le_rfl, ← hx r hr]
  refine sum_congr rfl fun j hj => ?_
  rw [h r hr j (mem_range.1 hj).le]

theorem solves_congr (h : ∀ r < n, ∀ j ≤ n, A r j = B r j) : Solves n A x ↔ Solves n B x :=
  ⟨Solves.congr h, Solves.congr fun r hr j hj => (h r hr j hj).symm⟩

theorem swap_lt (hi : i < n) (hp : p < n) {r : ℕ} (hr : r < n) : Equiv.swap i p r < n := by
  rw [Equiv.swap_apply_def]
  split_ifs <;> assumption

omit [Field K] in
theorem swapped_swapped : swapped (swapped A i p) i p = A := by
  funext r
  rw [swapped, swapped, Equiv.swap_apply_self]

/-- The exchange of two rows only reorders the equations. -/
theorem solves_swapped (hi : i < n) (hp : p < n) : Solves n (swapped A i p) x ↔ Solves n A x := by
  have hforth : ∀ B : ℕ → ℕ → K, Solves n B x → Solves n (swapped B i p) x :=
    fun B h r hr => h _ (swap_lt hi hp hr)
  refine ⟨fun h => ?_, hforth A⟩
  rw [← swapped_swapped (A := A) (i := i) (p := p)]
  exact hforth _ h

/-- One equation of the system after the step. -/
theorem sum_eliminated (r : ℕ) :
    ∑ j ∈ range n, eliminated A i r j * x j =
      if r = i then (∑ j ∈ range n, A i j * x j) / A i i
      else (∑ j ∈ range n, A r j * x j) - A r i * ((∑ j ∈ range n, A i j * x j) / A i i) := by
  have hscaled : (∑ j ∈ range n, A i j * x j) / A i i = ∑ j ∈ range n, A i j / A i i * x j := by
    rw [sum_div]
    exact sum_congr rfl fun j _ => (div_mul_eq_mul_div _ _ _).symm
  rw [hscaled]
  by_cases hr : r = i
  · simp only [eliminated, if_pos hr]
  · simp only [eliminated, if_neg hr]
    rw [mul_sum, ← sum_sub_distrib]
    exact sum_congr rfl fun j _ => by ring

/-- Dividing an equation by a number that is not zero, and taking its multiples from the others,
    keeps the solutions. -/
theorem solves_eliminated (hi : i < n) (h : A i i ≠ 0) :
    Solves n (eliminated A i) x ↔ Solves n A x := by
  constructor
  · intro hx
    have htop : ∑ j ∈ range n, A i j * x j = A i n := by
      have heq := hx i hi
      rw [sum_eliminated, if_pos rfl, eliminated, if_pos rfl] at heq
      exact (div_left_inj' h).1 heq
    intro r hr
    by_cases hri : r = i
    · rw [hri, htop]
    · have heq := hx r hr
      rw [sum_eliminated, if_neg hri, eliminated, if_neg hri, htop] at heq
      exact sub_left_inj.1 heq
  · intro hx r hr
    rw [sum_eliminated, hx i hi, hx r hr]
    rfl

/-! ### The columns that are done -/

theorem unitBefore_zero : UnitBefore n 0 A := fun _ _ _ hj => absurd hj (Nat.not_lt_zero _)

/-- The exchange of two later rows leaves those columns as they are. -/
theorem UnitBefore.swapped (h : UnitBefore n i A) (hi : i < n) (hp : p < n) (hip : i ≤ p) :
    UnitBefore n i (swapped A i p) := by
  intro r hr j hj
  rw [Elimination.swapped, h _ (swap_lt hi hp hr) j hj]
  -- neither the row nor the one it is exchanged with is that of an earlier diagonal entry
  by_cases hri : r = i
  · rw [hri, Equiv.swap_apply_left, if_neg (by omega), if_neg (by omega)]
  · by_cases hrp : r = p
    · rw [hrp, Equiv.swap_apply_right, if_neg (by omega), if_neg (by omega)]
    · rw [Equiv.swap_apply_of_ne_of_ne hri hrp]

/-- The step leaves the columns before as they are. -/
theorem UnitBefore.eliminated_of_lt (h : UnitBefore n i A) (hi : i < n) {r j : ℕ} (hj : j < i) :
    eliminated A i r j = A r j := by
  have hzero : A i j = 0 := by rw [h i hi j hj, if_neg hj.ne']
  rw [eliminated, hzero, zero_div]
  split_ifs with hri
  · rw [hri, hzero]
  · rw [mul_zero, sub_zero]

/-- After the step one column more is that of the identity. -/
theorem UnitBefore.eliminated (h : UnitBefore n i A) (hi : i < n) (hpivot : A i i ≠ 0) :
    UnitBefore n (i + 1) (eliminated A i) := by
  intro r hr j hj
  rcases Nat.lt_succ_iff_lt_or_eq.1 hj with hj | rfl
  · rw [h.eliminated_of_lt hi hj, h r hr j hj]
  · rw [Elimination.eliminated, div_self hpivot, mul_one, sub_self]

/-- Where all columns are those of the identity, the right side is the only solution. -/
theorem solves_iff_of_unit (h : UnitBefore n n A) : Solves n A x ↔ ∀ r < n, x r = A r n := by
  have hrow : ∀ r < n, ∑ j ∈ range n, A r j * x j = x r := by
    intro r hr
    have hterm : ∀ j ∈ range n, A r j * x j = if r = j then x j else 0 := by
      intro j hj
      rw [h r hr j (mem_range.1 hj), ite_mul, one_mul, zero_mul]
    rw [sum_congr rfl hterm, sum_ite_eq, if_pos (mem_range.2 hr)]
  constructor
  · intro hx r hr
    rw [← hrow r hr, hx r hr]
  · intro hx r hr
    rw [hrow r hr, hx r hr]

end Elimination

end Waterbox
