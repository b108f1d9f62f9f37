import Mathlib.Algebra.BigOperators.Fin
import Mathlib.Algebra.Order.BigOperators.Ring.Finset
import Mathlib.LinearAlgebra.Dimension.Constructions
import Mathlib.LinearAlgebra.FiniteDimensional.Lemmas
import Mathlib.Tactic.LinearCombination
import Mathlib.Tactic.Ring

namespace Waterbox

namespace LeastSquares

open Finset

/-!
# Least squares

`m` samples with the values `y`, each with a row of `n` basis values.

* `Normal` — the normal equations; `squares_le`: what solves them has the least sum of squares.
* `exists_vanishing` — fewer than `n` different rows have a combination that vanishes on all of
  them, and `sum_gram_vanishing` that it solves the normal equations with the right side zero.
-/

variable {K : Type*} [Field K]

/-- The value of a combination at a row. -/
def combine (n : ℕ) (c row : ℕ → K) : K := ∑ j ∈ range n, c j * row j

/-- The sum of the squared errors. -/
def squares (m n : ℕ) (X : ℕ → ℕ → K) (y c : ℕ → K) : K :=
  ∑ i ∈ range m, (y i - combine n c (X i)) ^ 2

/-- The product of the transposed design matrix with itself, and with the values. -/
def gram (m : ℕ) (X : ℕ → ℕ → K) (j k : ℕ) : K := ∑ i ∈ range m, X i j * X i k

def moment (m : ℕ) (X : ℕ → ℕ → K) (y : ℕ → K) (j : ℕ) : K := ∑ i ∈ range m, X i j * y i

/-- The normal equations. -/
def Normal (m n : ℕ) (X : ℕ → ℕ → K) (y c : ℕ → K) : Prop :=
  ∀ j < n, ∑ k ∈ range n, gram m X j k * c k = moment m X y j

variable {m n : ℕ} {X : ℕ → ℕ → K} {y c d v : ℕ → K}

/-- A row of the product with a vector, as a sum over the samples. -/
theorem sum_gram (j : ℕ) :
    ∑ k ∈ range n, gram m X j k * c k = ∑ i ∈ range m, X i j * combine n c (X i) := by
  have hterm : ∀ k ∈ range n, gram m X j k * c k = ∑ i ∈ range m, X i j * (c k * X i k) := by
    intro k _
    rw [gram, sum_mul]
    exact sum_congr rfl fun i _ => by ring
  rw [sum_congr rfl hterm, sum_comm]
  refine sum_congr rfl fun i _ => ?_
  rw [combine, mul_sum]

/-- The normal equations say that the errors are orthogonal to each column. -/
theorem Normal.orthogonal (h : Normal m n X y c) {j : ℕ} (hj : j < n) :
    ∑ i ∈ range m, X i j * (y i - combine n c (X i)) = 0 := by
  have hnormal := h j hj
  rw [sum_gram] at hnormal
  simp only [mul_sub, sum_sub_distrib]
  rw [hnormal, moment, sub_self]

/-- They are orthogonal to each combination of the columns. -/
theorem Normal.orthogonal_combine (h : Normal m n X y c) (d : ℕ → K) :
    ∑ i ∈ range m, combine n d (X i) * (y i - combine n c (X i)) = 0 := by
  have hterm : ∀ i ∈ range m, combine n d (X i) * (y i - combine n c (X i)) =
      ∑ j ∈ range n, d j * (X i j * (y i - combine n c (X i))) := by
    intro i _
    rw [combine, sum_mul]
    exact sum_congr rfl fun j _ => by ring
  rw [sum_congr rfl hterm, sum_comm]
  refine sum_eq_zero fun j hj => ?_
  rw [← mul_sum, h.orthogonal (mem_range.1 hj), mul_zero]

theorem combine_sub (row : ℕ → K) :
    combine n (fun j => c j - d j) row = combine n c row - combine n d row := by
  simp only [combine, sub_mul, sum_sub_distrib]

/-- The sum of squares of any combination: that of the solution and that of the difference. -/
theorem Normal.squares_eq (h : Normal m n X y c) (d : ℕ → K) :
    squares m n X y d =
      squares m n X y c + ∑ i ∈ range m, combine n (fun j => c j - d j) (X i) ^ 2 := by
  have hcross := h.orthogonal_combine fun j => c j - d j
  have hterm : ∀ i ∈ range m, (y i - combine n d (X i)) ^ 2 =
      (y i - combine n c (X i)) ^ 2 + combine n (fun j => c j - d j) (X i) ^ 2 +
        2 * (combine n (fun j => c j - d j) (X i) * (y i - combine n c (X i))) := by
    intro i _
    rw [combine_sub]
    ring
  rw [squares, sum_congr rfl hterm, sum_add_distrib, sum_add_distrib, ← mul_sum, hcross, mul_zero,
    add_zero, squares]

/-- A solution of the normal equations has the least sum of squares. -/
theorem Normal.squares_le [LinearOrder K] [IsStrictOrderedRing K] (h : Normal m n X y c)
    (d : ℕ → K) : squares m n X y c ≤ squares m n X y d := by
  rw [h.squares_eq d]
  exact le_add_of_nonneg_right (sum_nonneg fun i _ => sq_nonneg _)

/-! ### Too few different samples -/

/-- A combination that vanishes on every row solves the normal equations with the right
    side zero. -/
theorem sum_gram_vanishing (h : ∀ i < m, combine n v (X i) = 0) (j : ℕ) :
    ∑ k ∈ range n, gram m X j k * v k = 0 := by
  rw [sum_gram]
  refine sum_eq_zero fun i hi => ?_
  rw [h i (mem_range.1 hi), mul_zero]

/-- On fewer than `n` rows some combination vanishes. -/
theorem exists_vanishing (n : ℕ) (rows : Finset (ℕ → K)) (h : rows.card < n) :
    ∃ v : ℕ → K, (∃ j < n, v j ≠ 0) ∧ ∀ row ∈ rows, combine n v row = 0 := by
  -- the values on the rows are a linear function of the coefficients, to a space of lower dimension
  let f : (Fin n → K) →ₗ[K] (rows → K) :=
    { toFun := fun c row => ∑ j : Fin n, c j * row.1 j
      map_add' := fun c d => by
        funext row
        simp only [Pi.add_apply, add_mul, sum_add_distrib]
      map_smul' := fun a c => by
        funext row
        simp only [Pi.smul_apply, smul_eq_mul, mul_sum, mul_assoc, RingHom.id_apply] }
  have hrank : Module.finrank K (rows → K) < Module.finrank K (Fin n → K) := by
    rw [Module.finrank_fintype_fun_eq_card, Module.finrank_fin_fun, Fintype.card_coe]
    exact h
  have hker : LinearMap.ker f ≠ ⊥ := LinearMap.ker_ne_bot_of_finrank_lt hrank
  obtain ⟨c, hc, hne⟩ := (Submodule.ne_bot_iff _).1 hker
  refine ⟨fun j => if hj : j < n then c ⟨j, hj⟩ else 0, ?_, ?_⟩
  · obtain ⟨j, hj⟩ := Function.ne_iff.1 hne
    exact ⟨j, j.2, by simpa using hj⟩
  · intro row hrow
    have hzero := congrFun (LinearMap.mem_ker.1 hc) ⟨row, hrow⟩
    rw [combine, ← Fin.sum_univ_eq_sum_range
      (fun j => (if hj : j < n then c ⟨j, hj⟩ else 0) * row j)]
    simpa [f] using hzero

end LeastSquares

end Waterbox
