import Mathlib
import Waterbox.Cloud.Passes
import Waterbox.Cloud.Solver
import Waterbox.Lib.LeastSquares
import Waterbox.Portal.Curve

namespace Waterbox

namespace Cloud

/-!
# What `fit` finds, without rounding

* `ExactMath` — numbers with real values, whose functions are those of the reals.
* `basis` — a row of the design matrix; `system_matmul`, `vector_matvec` — the normal equations.
* `fit_some` — the coefficients that `fit` solves for.
-/

/-- Arithmetic without rounding, with the functions of the real numbers. -/
class ExactMath (D : Type) [PyMath D] extends ExactArith D ℝ where
  sin_eq : ∀ x, ∃ s, PyMath.sin x = some s ∧ value s = Real.sin (value x)
  cos_eq : ∀ x, ∃ c, PyMath.cos x = some c ∧ value c = Real.cos (value x)
  value_hypot : ∀ x y, value (PyMath.hypot x y) = Real.sqrt (value x ^ 2 + value y ^ 2)
  value_atan2 : ∀ y x, value (PyMath.atan2 y x) = Complex.arg ⟨value x, value y⟩
  value_pi : value PyMath.pi = Real.pi

/-! ### Products of lists -/

section Products

variable {K R : Type} [Arith K] [Field R] [LinearOrder R] [ExactArith K R]

open ExactArith Finset

theorem value_zero : (value (Arith.ofNat 0 : K) : R) = 0 := by
  rw [value_ofNat, Nat.cast_zero]

/-- `sum()` is a sum. -/
theorem value_foldl_add (xs : List K) (x : K) :
    (value (xs.foldl Arith.add x) : R) = value x + (xs.map value).sum := by
  induction xs generalizing x with
  | nil => exact (add_zero _).symm
  | cons y xs ih => rw [List.foldl_cons, ih, value_add, List.map_cons, List.sum_cons, add_assoc]

/-- A dot product, entry by entry. -/
theorem value_dot {row col : List K} {m : Nat} (hrow : row.length = m) (hcol : col.length = m) :
    (value (dot row col) : R) = ∑ i ∈ range m, vector row i * vector col i := by
  rw [dot, value_foldl_add, value_zero, zero_add]
  induction row generalizing col m with
  | nil => subst hrow; rfl
  | cons x row ih =>
    cases col with
    | nil => subst hcol; cases hrow
    | cons y col =>
      subst hrow
      rw [List.zipWith_cons_cons, List.map_cons, List.sum_cons, value_mul, List.length_cons,
        sum_range_succ', ih rfl (Nat.succ.inj hcol), add_comm]
      rfl

variable {x : List (List K)} {n i j : Nat}

theorem getD_map {α β : Type} (f : α → β) {xs : List α} (hi : i < xs.length) (d : α) (e : β) :
    (xs.map f).getD i e = f (xs.getD i d) := by
  rw [List.getD_eq_getElem?_getD, List.getElem?_map, List.getD_eq_getElem?_getD,
    List.getElem?_eq_getElem hi]
  rfl

omit [Arith K] in
/-- The columns of a matrix that is not empty. -/
theorem transpose_spec (hx : x ≠ []) (hrows : ∀ row ∈ x, row.length = n) (d : K) :
    (transpose x).length = n ∧
      ∀ j < n, (transpose x).getD j [] = x.map fun row => row.getD j d := by
  induction x with
  | nil => exact absurd rfl hx
  | cons row x ih =>
    have hrow : row.length = n := hrows row List.mem_cons_self
    have hentry : ∀ j < n, row[j]? = some (row.getD j d) := by
      intro j hj
      rw [List.getD_eq_getElem?_getD, List.getElem?_eq_getElem (by omega)]
      rfl
    -- the last row gives the columns, and each row before adds an entry to each of them
    cases x with
    | nil =>
      refine ⟨by rw [transpose, List.length_map, hrow], fun j hj => ?_⟩
      rw [transpose, List.getD_eq_getElem?_getD, List.getElem?_map, hentry j hj]
      rfl
    | cons row' x =>
      obtain ⟨hlength, hcolumns⟩ := ih (List.cons_ne_nil _ _)
        fun r hr => hrows r (List.mem_cons_of_mem _ hr)
      have hcons : transpose (row :: row' :: x) =
          List.zipWith List.cons row (transpose (row' :: x)) := rfl
      refine ⟨by rw [hcons, List.length_zipWith, hlength, hrow, Nat.min_self], fun j hj => ?_⟩
      have hcolumn : (transpose (row' :: x))[j]? = some ((transpose (row' :: x)).getD j []) := by
        rw [List.getD_eq_getElem?_getD, List.getElem?_eq_getElem (by omega)]
        rfl
      rw [hcons, List.getD_eq_getElem?_getD, List.getElem?_zipWith, hentry j hj, hcolumn,
        hcolumns j hj]
      rfl

/-- The entries of a column are those of the rows. -/
theorem vector_column (j : Nat) (hi : i < x.length) :
    (vector (x.map fun row => row.getD j (Arith.ofNat 0)) i : R) = system x i j := by
  rw [vector, getD_map _ hi []]
  rfl

/-- The product of the transposed matrix with the matrix. -/
theorem system_matmul (hx : x ≠ []) (hrows : ∀ row ∈ x, row.length = n) {k : Nat} (hj : j < n)
    (hk : k < n) :
    (system (matmul (transpose x) x) j k : R) = LeastSquares.gram x.length (system x) j k := by
  obtain ⟨hlength, hcolumns⟩ := transpose_spec hx hrows (Arith.ofNat 0)
  rw [system, entry, matmul, getD_map _ (by omega) [], getD_map _ (by omega) [], hcolumns j hj,
    hcolumns k hk, value_dot (List.length_map _) (List.length_map _), LeastSquares.gram]
  refine sum_congr rfl fun i hi => ?_
  rw [vector_column j (mem_range.1 hi), vector_column k (mem_range.1 hi)]

/-- The product of the transposed matrix with a vector. -/
theorem vector_matvec (hx : x ≠ []) (hrows : ∀ row ∈ x, row.length = n) {v : List K}
    (hv : v.length = x.length) (hj : j < n) :
    (vector (matvec (transpose x) v) j : R) =
      LeastSquares.moment x.length (system x) (vector v) j := by
  obtain ⟨hlength, hcolumns⟩ := transpose_spec hx hrows (Arith.ofNat 0)
  rw [vector, matvec, getD_map _ (by omega) [], hcolumns j hj,
    value_dot (List.length_map _) hv, LeastSquares.moment]
  refine sum_congr rfl fun i hi => ?_
  rw [vector_column j (mem_range.1 hi)]

/-- What `_solve` returns for the normal equations of a design matrix is their only solution. -/
theorem solve_normal [IsStrictOrderedRing R] (hx : x ≠ []) (hrows : ∀ row ∈ x, row.length = n)
    {v c : List K} (hv : v.length = x.length)
    (h : solve (matmul (transpose x) x) (matvec (transpose x) v) = some c) (d : Nat → R) :
    LeastSquares.Normal x.length n (system x) (vector v) d ↔ ∀ j < n, d j = vector c j := by
  obtain ⟨hlength, -⟩ := transpose_spec hx hrows (Arith.ofNat 0)
  have hmatrix : (matmul (transpose x) x).length = n := by rw [matmul, List.length_map, hlength]
  have hvector : (matvec (transpose x) v).length = n := by rw [matvec, List.length_map, hlength]
  have hrow : ∀ r < n, ((matmul (transpose x) x).getD r []).length = n := by
    intro r hr
    rw [matmul, getD_map _ (by omega) [], List.length_map, hlength]
  rw [← (solve_some hvector hmatrix hrow h).2 d]
  refine forall₂_congr fun j hj => ?_
  rw [vector_matvec hx hrows hv hj]
  rw [sum_congr rfl fun k hk => by rw [← system_matmul hx hrows hj (mem_range.1 hk)]]

/-- Where `_solve` returns for the matrix of the normal equations, only zero vanishes on
    all rows. -/
theorem solve_singular [IsStrictOrderedRing R] (hx : x ≠ []) (hrows : ∀ row ∈ x, row.length = n)
    {b c : List K} (hb : b.length = n) (h : solve (matmul (transpose x) x) b = some c) (v : Nat → R)
    (hv : ∀ i < x.length, LeastSquares.combine n v (system x i) = 0) : ∀ j < n, v j = 0 := by
  obtain ⟨hlength, -⟩ := transpose_spec hx hrows (Arith.ofNat 0)
  have hmatrix : (matmul (transpose x) x).length = n := by rw [matmul, List.length_map, hlength]
  have hrow : ∀ r < n, ((matmul (transpose x) x).getD r []).length = n := by
    intro r hr
    rw [matmul, getD_map _ (by omega) [], List.length_map, hlength]
  obtain ⟨-, honly⟩ := solve_some (R := R) hb hmatrix hrow h
  have hc := (honly (vector c)).2 fun _ _ => rfl
  -- with `v` added, the solution would be another one
  have hboth := (honly fun j => vector c j + v j).1 fun r hr => by
    have hkernel : ∑ j ∈ range n, system (matmul (transpose x) x) r j * v j = 0 := by
      rw [sum_congr rfl fun k hk => by rw [system_matmul hx hrows hr (mem_range.1 hk)]]
      exact LeastSquares.sum_gram_vanishing hv r
    simp only [mul_add, sum_add_distrib]
    rw [hc r hr, hkernel, add_zero]
  exact fun j hj => left_eq_add.1 (hboth j hj).symm

end Products

/-! ### The design matrix -/

/-- The functions that are combined, at the hour `t`. -/
noncomputable def basis (t1 t2 t : ℝ) : ℕ → ℝ
  | 0 => 1
  | 1 => Real.sin ((2 : ℕ) * Real.pi * t / t1)
  | 2 => Real.cos ((2 : ℕ) * Real.pi * t / t1)
  | 3 => Real.sin ((2 : ℕ) * Real.pi * t / t2)
  | 4 => Real.cos ((2 : ℕ) * Real.pi * t / t2)
  | _ => 0

section Model

variable {D : Type} [PyMath D] [ExactMath D]

open ExactArith Finset

/-- The angle of a term at an hour. -/
theorem value_angle (t : D) {t1 : D} (ht1 : (value t1 : ℝ) ≠ 0) :
    (value (Arith.div (Arith.mul (Arith.mul (Arith.ofNat 2) PyMath.pi) t) t1) : ℝ) =
      2 * Real.pi * value t / value t1 := by
  rw [value_div _ _ ht1, value_mul, value_mul, value_ofNat, ExactMath.value_pi, Nat.cast_ofNat]

/-- A row of the design matrix holds the five functions at its hour. -/
theorem designRow_spec {t1 t2 : D} (ht1 : (value t1 : ℝ) ≠ 0) (ht2 : (value t2 : ℝ) ≠ 0) (t : D) :
    ∃ row, designRow t t1 t2 = some row ∧ row.length = 5 ∧
      ∀ j < 5, (vector row j : ℝ) = basis (value t1) (value t2) (value t) j := by
  obtain ⟨s1, hs1, vs1⟩ := ExactMath.sin_eq
    (Arith.div (Arith.mul (Arith.mul (Arith.ofNat 2) PyMath.pi) t) t1)
  obtain ⟨c1, hc1, vc1⟩ := ExactMath.cos_eq
    (Arith.div (Arith.mul (Arith.mul (Arith.ofNat 2) PyMath.pi) t) t1)
  obtain ⟨s2, hs2, vs2⟩ := ExactMath.sin_eq
    (Arith.div (Arith.mul (Arith.mul (Arith.ofNat 2) PyMath.pi) t) t2)
  obtain ⟨c2, hc2, vc2⟩ := ExactMath.cos_eq
    (Arith.div (Arith.mul (Arith.mul (Arith.ofNat 2) PyMath.pi) t) t2)
  refine ⟨[Arith.ofNat 1, s1, c1, s2, c2], ?_, rfl, fun j hj => ?_⟩
  · simp only [designRow, hs1, hc1, hs2, hc2, Option.bind_eq_bind, Option.bind_some]
  · rw [value_angle _ ht1] at vs1 vc1
    rw [value_angle _ ht2] at vs2 vc2
    interval_cases j
    · exact (value_ofNat 1).trans Nat.cast_one
    · exact vs1
    · exact vc1
    · exact vs2
    · exact vc2

/-- The whole matrix, and no row raises. -/
theorem designRows_spec {t1 t2 : D} (ht1 : (value t1 : ℝ) ≠ 0) (ht2 : (value t2 : ℝ) ≠ 0)
    (hours : List D) :
    ∃ x, hours.mapM (fun t => designRow t t1 t2) = some x ∧ x.length = hours.length ∧
      (∀ row ∈ x, row.length = 5) ∧
      ∀ i < hours.length, ∀ j < 5,
        (system x i j : ℝ) = basis (value t1) (value t2) (vector hours i) j := by
  induction hours with
  | nil => exact ⟨[], rfl, rfl, nofun, fun i hi => absurd hi (Nat.not_lt_zero i)⟩
  | cons t hours ih =>
    obtain ⟨x, hx, hlength, hrows, hsystem⟩ := ih
    obtain ⟨row, hrow, hfive, hbasis⟩ := designRow_spec ht1 ht2 t
    refine ⟨row :: x, ?_, ?_, ?_, ?_⟩
    · simp only [List.mapM_cons, hrow, hx, Option.bind_eq_bind, Option.bind_some, Option.pure_def]
    · rw [List.length_cons, List.length_cons, hlength]
    · intro r hr
      rcases List.mem_cons.1 hr with rfl | hr
      · exact hfive
      · exact hrows r hr
    · intro i hi j hj
      cases i with
      | zero => exact hbasis j hj
      | succ i => exact hsystem i (Nat.lt_of_succ_lt_succ hi) j hj

/-! ### Amplitude and phase -/

/-- Amplitude and phase of two coefficients, in all quadrants and without amplitude. -/
theorem polar_spec (b c : D) :
    (0 : ℝ) ≤ value (polar b c).1 ∧
      (value b : ℝ) = value (polar b c).1 * Real.cos (value (polar b c).2) ∧
      (value c : ℝ) = value (polar b c).1 * Real.sin (value (polar b c).2) := by
  have hnorm : (value (polar b c).1 : ℝ) = ‖(⟨value b, value c⟩ : ℂ)‖ := by
    rw [Complex.norm_def, Complex.normSq_mk, ← sq, ← sq]
    exact ExactMath.value_hypot b c
  refine ⟨hnorm ▸ norm_nonneg _, ?_⟩
  by_cases hzero : Arith.isZero (polar b c).1 = true
  · -- both coefficients are zero then
    have hnull := (isZero_iff _).1 hzero
    have hpoint := norm_eq_zero.1 (hnorm.symm.trans hnull)
    rw [hnull, zero_mul, zero_mul]
    exact ⟨congrArg Complex.re hpoint, congrArg Complex.im hpoint⟩
  · have hphase : (polar b c).2 = PyMath.atan2 c b := if_neg hzero
    rw [hnorm, hphase, ExactMath.value_atan2]
    exact ⟨(Complex.norm_mul_cos_arg ⟨value b, value c⟩).symm,
      (Complex.norm_mul_sin_arg ⟨value b, value c⟩).symm⟩

end Model

/-- The coefficients of the combination that is a mean and two terms. -/
noncomputable def coefficients (w a1 p1 a2 p2 : ℝ) : ℕ → ℝ
  | 0 => w
  | 1 => a1 * Real.cos p1
  | 2 => a1 * Real.sin p1
  | 3 => a2 * Real.cos p2
  | 4 => a2 * Real.sin p2
  | _ => 0

/-- A mean and two terms, as a combination of the functions. -/
theorem wave_combine (w a1 p1 t1 a2 p2 t2 t : ℝ) :
    w + wave a1 p1 t1 t + wave a2 p2 t2 t =
      LeastSquares.combine 5 (coefficients w a1 p1 a2 p2) (basis t1 t2 t) := by
  simp only [LeastSquares.combine, Finset.sum_range_succ, Finset.sum_range_zero,
    coefficients, basis, Nat.cast_ofNat, wave, Real.sin_add]
  ring

section Fit

variable {D : Type} [PyMath D] [ExactMath D]

open ExactArith Finset

/-- The curve of the parameters. -/
noncomputable def curve (fp : FitParams D) (t : ℝ) : ℝ :=
  value fp.w + wave (value fp.a1) (value fp.p1) (value fp.t1) t +
    wave (value fp.a2) (value fp.p2) (value fp.t2) t

/-- The sum of the squared errors of a function of the hour. -/
def errors (hours lms : List D) (f : ℝ → ℝ) : ℝ :=
  ((hours.zip lms).map fun s => (value s.2 - f (value s.1)) ^ 2).sum

/-- The squares, added up by place. -/
theorem errors_eq {hours lms : List D} (h : hours.length = lms.length) (f : ℝ → ℝ) :
    errors hours lms f = ∑ i ∈ range hours.length, (vector lms i - f (vector hours i)) ^ 2 := by
  induction hours generalizing lms with
  | nil => rfl
  | cons t hours ih =>
    cases lms with
    | nil => cases h
    | cons y lms =>
      have hrest := ih (Nat.succ.inj h)
      rw [List.length_cons, sum_range_succ', add_comm]
      exact congrArg ((value y - f (value t)) ^ 2 + ·) hrest

omit [ExactMath D] in
/-- What `fit` returns: its mean, amplitudes and phases are those of the coefficients solved for. -/
theorem fit_some {hours lms : List D} {t1 t2 : D} {fp : FitParams D}
    (h : fit hours lms t1 t2 = some fp) :
    ∃ x b1 c1 b2 c2, hours.mapM (fun t => designRow t t1 t2) = some x ∧
      solve (matmul (transpose x) x) (matvec (transpose x) lms) = some [fp.w, b1, c1, b2, c2] ∧
      fp = { w := fp.w, a1 := (polar b1 c1).1, p1 := (polar b1 c1).2, t1 := t1
             a2 := (polar b2 c2).1, p2 := (polar b2 c2).2, t2 := t2
             nSamples := some hours.length } := by
  rw [fit] at h
  split_ifs at h with hfive
  obtain ⟨x, hx, h⟩ := Option.bind_eq_some_iff.1 h
  obtain ⟨c, hc, h⟩ := Option.bind_eq_some_iff.1 h
  match c, h with
  | [w, b1, c1, b2, c2], h =>
    cases h
    exact ⟨x, b1, c1, b2, c2, hx, hc, rfl⟩

/-- What `fit` returns has the least sum of squared errors, and its amplitudes are not negative. -/
theorem fit_least {hours lms : List D} {t1 t2 : D} {fp : FitParams D}
    (hlength : hours.length = lms.length) (hfive : 5 ≤ hours.length)
    (ht1 : (0 : ℝ) < value t1) (ht2 : (0 : ℝ) < value t2) (h : fit hours lms t1 t2 = some fp) :
    (∃ x b1 c1 b2 c2, hours.mapM (fun t => designRow t t1 t2) = some x ∧
      solve (matmul (transpose x) x) (matvec (transpose x) lms) = some [fp.w, b1, c1, b2, c2] ∧
      ∀ t, curve fp t = value fp.w +
        value b1 * Real.sin (2 * Real.pi * t / value t1) +
        value c1 * Real.cos (2 * Real.pi * t / value t1) +
        value b2 * Real.sin (2 * Real.pi * t / value t2) +
        value c2 * Real.cos (2 * Real.pi * t / value t2)) ∧
    (0 : ℝ) ≤ value fp.a1 ∧ (0 : ℝ) ≤ value fp.a2 ∧
    ∀ w a1 p1 a2 p2 : ℝ, errors hours lms (curve fp) ≤
      errors hours lms fun t => w + wave a1 p1 (value t1) t + wave a2 p2 (value t2) t := by
  obtain ⟨x, b1, c1, b2, c2, hx, hsolve, hfp⟩ := fit_some h
  obtain ⟨x', hx', hm, hrows, hsystem⟩ := designRows_spec ht1.ne' ht2.ne' hours
  obtain rfl : x' = x := Option.some.inj (hx'.symm.trans hx)
  obtain ⟨ha1, hb1, hc1⟩ := polar_spec b1 c1
  obtain ⟨ha2, hb2, hc2⟩ := polar_spec b2 c2
  have hne : x' ≠ [] := by
    rintro rfl
    rw [List.length_nil] at hm
    omega
  -- the coefficients solved for are those of mean, amplitudes and phases
  have hsolved : ∀ j < 5, (vector [fp.w, b1, c1, b2, c2] j : ℝ) =
      coefficients (value fp.w) (value fp.a1) (value fp.p1) (value fp.a2) (value fp.p2) j := by
    intro j hj
    rw [hfp]
    interval_cases j
    · rfl
    · exact hb1
    · exact hc1
    · exact hb2
    · exact hc2
  have hnormal := (solve_normal hne hrows (hlength.symm.trans hm.symm) hsolve
    (coefficients (value fp.w) (value fp.a1) (value fp.p1) (value fp.a2) (value fp.p2))).2
    fun j hj => (hsolved j hj).symm
  have hsquares : ∀ w a1 p1 a2 p2 : ℝ,
      errors hours lms (fun t => w + wave a1 p1 (value t1) t + wave a2 p2 (value t2) t) =
        LeastSquares.squares x'.length 5 (system x') (vector lms) (coefficients w a1 p1 a2 p2) := by
    intro w a1 p1 a2 p2
    rw [errors_eq hlength, LeastSquares.squares, hm]
    refine sum_congr rfl fun i hi => ?_
    rw [wave_combine, LeastSquares.combine, LeastSquares.combine]
    rw [sum_congr rfl fun j hj => by
      rw [← hsystem i (mem_range.1 hi) j (mem_range.1 hj)]]
  have hcurve : curve fp = fun t => value fp.w + wave (value fp.a1) (value fp.p1) (value t1) t +
      wave (value fp.a2) (value fp.p2) (value t2) t := by
    rw [hfp]
    rfl
  refine ⟨⟨x', b1, c1, b2, c2, hx, hsolve, fun t => ?_⟩, ?_, ?_, fun w a1 p1 a2 p2 => ?_⟩
  · rw [hcurve]
    dsimp only
    rw [wave_combine, LeastSquares.combine,
      sum_congr rfl fun j hj => by rw [← hsolved j (mem_range.1 hj)]]
    simp only [sum_range_succ, sum_range_zero, zero_add]
    show value fp.w * 1 + value b1 * Real.sin _ + value c1 * Real.cos _ + value b2 * Real.sin _ +
      value c2 * Real.cos _ = _
    simp only [Nat.cast_ofNat, mul_one]
  · rw [hfp]
    exact ha1
  · rw [hfp]
    exact ha2
  · rw [hcurve, hsquares, hsquares]
    exact hnormal.squares_le _

end Fit

/-! ### A day of samples -/

section Day

open Classical

theorem real_lt_iff (x y : ℝ) : decide (x < y) = true ↔ x < y := decide_eq_true_iff

theorem real_isZero_iff (x : ℝ) : decide (x = 0) = true ↔ x = 0 := decide_eq_true_iff

noncomputable instance : ExactMath ℝ where
  value x := x
  value_ofNat _ := rfl
  value_tiny := rfl
  value_add _ _ := rfl
  value_sub _ _ := rfl
  value_mul _ _ := rfl
  value_div _ _ _ := rfl
  value_abs _ := rfl
  lt_iff := real_lt_iff
  isZero_iff := real_isZero_iff
  sin_eq x := ⟨Real.sin x, rfl, rfl⟩
  cos_eq x := ⟨Real.cos x, rfl, rfl⟩
  value_hypot _ _ := rfl
  value_atan2 _ _ := rfl
  value_pi := rfl

/-- The design matrix of the hours 0, 4, …, 20, where `s` is the square root of three. -/
noncomputable def sixRows (s : ℝ) : List (List ℝ) :=
  let half (x : ℝ) := x / (2 : ℕ)
  [[1, 0, 1, 0, 1], [1, half s, half 1, half s, half (-1)],
    [1, half s, half (-1), half (-s), half (-1)], [1, 0, -1, 0, 1],
    [1, half (-s), half (-1), half s, half (-1)], [1, half (-s), half 1, half (-s), half (-1)]]

theorem designRow_real (t : ℝ) :
    designRow t 24 12 =
      some [1, Real.sin (2 * Real.pi * t / 24), Real.cos (2 * Real.pi * t / 24),
        Real.sin (2 * Real.pi * t / 12), Real.cos (2 * Real.pi * t / 12)] := by
  have h1 : (Arith.ofNat 1 : ℝ) = 1 := Nat.cast_one
  have h2 : (Arith.ofNat 2 : ℝ) = 2 := Nat.cast_ofNat
  rw [designRow, h1, h2]
  rfl

/-- The design matrix of six hours, every four hours. -/
theorem mapM_designRow :
    [(0 : ℝ), 4, 8, 12, 16, 20].mapM (fun t => designRow t 24 12) = some (sixRows √3) := by
  have day1 : 2 * Real.pi * 4 / 24 = Real.pi / 3 := by ring
  have day2 : 2 * Real.pi * 8 / 24 = Real.pi - Real.pi / 3 := by ring
  have day3 : 2 * Real.pi * 12 / 24 = Real.pi := by ring
  have day4 : 2 * Real.pi * 16 / 24 = Real.pi / 3 + Real.pi := by ring
  have day5 : 2 * Real.pi * 20 / 24 = 2 * Real.pi - Real.pi / 3 := by ring
  have half1 : 2 * Real.pi * 4 / 12 = Real.pi - Real.pi / 3 := by ring
  have half2 : 2 * Real.pi * 8 / 12 = Real.pi / 3 + Real.pi := by ring
  have half3 : 2 * Real.pi * 12 / 12 = 2 * Real.pi := by ring
  have half4 : 2 * Real.pi * 16 / 12 = Real.pi - Real.pi / 3 + 2 * Real.pi := by ring
  have half5 : 2 * Real.pi * 20 / 12 = Real.pi / 3 + Real.pi + 2 * Real.pi := by ring
  simp only [List.mapM_cons, List.mapM_nil, designRow_real, day1, day2, day3, day4, day5, half1,
    half2, half3, half4, half5, mul_zero, zero_div, Real.sin_zero, Real.cos_zero, Real.sin_pi_sub,
    Real.cos_pi_sub, Real.sin_add_pi, Real.cos_add_pi, Real.sin_two_pi_sub, Real.cos_two_pi_sub,
    Real.sin_pi, Real.cos_pi, Real.sin_two_pi, Real.cos_two_pi, Real.sin_add_two_pi,
    Real.cos_add_two_pi, Real.sin_pi_div_three, Real.cos_pi_div_three, sixRows, neg_div,
    Nat.cast_ofNat]
  rfl

/-- The numbers of the worker, over the reals. -/
theorem real_numbers : (∀ n : ℕ, (Arith.ofNat n : ℝ) = n) ∧ (Arith.tiny : ℝ) = 1 / 10 ^ 12 ∧
    ∀ x : ℝ, Arith.abs x = |x| := ⟨fun _ => rfl, rfl, fun _ => rfl⟩

/-- And its operations. -/
theorem real_operations (x y : ℝ) :
    Arith.add x y = x + y ∧ Arith.sub x y = x - y ∧ Arith.mul x y = x * y ∧ Arith.div x y = x / y ∧
      Arith.lt x y = decide (x < y) := ⟨rfl, rfl, rfl, rfl, rfl⟩

/-- The functions are orthogonal on these hours. -/
theorem matmul_sixRows {s : ℝ} (hs : s * s = 3) :
    matmul (transpose (sixRows s)) (sixRows s) =
        [[6, 0, 0, 0, 0], [0, 3, 0, 0, 0], [0, 0, 3, 0, 0], [0, 0, 0, 3, 0], [0, 0, 0, 0, 3]] ∧
      matvec (transpose (sixRows s)) [3, 0, 0, 3, 0, 0] = [6, 0, 0, 0, 6] := by
  have hquarter : s / 2 * (s / 2) = 3 / 4 := by linear_combination hs / 4
  constructor
  · norm_num [sixRows, matmul, transpose, dot, real_operations, real_numbers, neg_div, hquarter]
    ring
  · norm_num [sixRows, matvec, transpose, dot, real_operations, real_numbers]

/-- The normal equations of six hours are a diagonal. -/
theorem solve_sixRows :
    solve
        [[(6 : ℝ), 0, 0, 0, 0], [0, 3, 0, 0, 0], [0, 0, 3, 0, 0], [0, 0, 0, 3, 0], [0, 0, 0, 0, 3]]
        [6, 0, 0, 0, 6] =
      some [1, 0, 0, 0, 2] := by
  norm_num [solve, solveFrom, pivot, swapRows, eliminate, fromColumn, entry, real_operations,
    real_numbers, List.range', List.mapIdx, List.mapIdx.go, List.range, List.range.loop]

/-- Six hours of a day. -/
def sixHours : List ℝ := [0, 4, 8, 12, 16, 20]

/-- Water flows at midnight and at noon. -/
def sixFlows : List ℝ := [3, 0, 0, 3, 0, 0]

theorem fit_sixHours : fit sixHours sixFlows 24 12 = fitParams 24 12 6 [1, 0, 0, 0, 2] := by
  have hs : √3 * √3 = (3 : ℝ) := Real.mul_self_sqrt (by norm_num)
  rw [fit, if_neg (by decide), sixHours, sixFlows, mapM_designRow]
  simp only [Option.bind_eq_bind, Option.bind_some, matmul_sixRows hs, solve_sixRows]
  rfl

/-- Two draws a day. -/
theorem fit_least_day :
    ∃ fp, fit sixHours sixFlows 24 12 = some fp ∧ 0 ≤ fp.a1 ∧ 0 ≤ fp.a2 ∧
      ∀ w a1 p1 a2 p2 : ℝ, errors sixHours sixFlows (curve fp) ≤
        errors sixHours sixFlows fun t => w + wave a1 p1 24 t + wave a2 p2 12 t := by
  have hperiods : (0 : ℝ) < 24 ∧ (0 : ℝ) < 12 := by norm_num
  have hlength : sixHours.length = sixFlows.length := rfl
  have hfive : 5 ≤ sixHours.length := by decide
  obtain ⟨fp, hfp⟩ : ∃ fp, fit sixHours sixFlows 24 12 = some fp := ⟨_, fit_sixHours.trans rfl⟩
  have hleast := fit_least hlength hfive hperiods.1 hperiods.2 hfp
  exact ⟨fp, hfp, hleast.2.1, hleast.2.2.1, hleast.2.2.2⟩

end Day

end Cloud

end Waterbox
