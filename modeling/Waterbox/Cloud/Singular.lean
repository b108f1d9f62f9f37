import Mathlib
import Waterbox.Cloud.Solver

namespace Waterbox

namespace Cloud

/-!
# When `_solve` raises

The loop of `_solve` stops at a column whose candidates are all too small, and nowhere else.

* `solveFrom_none_iff` — where the loop stops.
* `refused_iff` — the largest candidate is too small if and only if all of them are.
* `solve_none_iff` — the columns at which `_solve` raises.
* `solve_exact` — what it returns is the only solution, and a singular matrix makes it raise.
-/

section Loop

variable {K : Type} [Arith K] {n i k : Nat} {m m' : List (List K)}

/-- The rows as they stand for the test of the column `i`. -/
def exchanged (n i : Nat) (m : List (List K)) : List (List K) := swapRows m i (pivot m i n)

/-- `abs(diag) < 1e-12`. -/
def stopsAt (n i : Nat) (m : List (List K)) : Bool :=
  Arith.lt (Arith.abs (entry (exchanged n i m) i i)) Arith.tiny

theorem solveFrom_succ : solveFrom n (k + 1) i m =
    if stopsAt n i m then none else solveFrom n k (i + 1) (eliminate (exchanged n i m) i) := rfl

/-- The loop stops at the first column whose pivot is too small. -/
theorem solveFrom_none_iff : solveFrom n k i m = none ↔
    ∃ l < k, ∃ m', solveFrom n l i m = some m' ∧ stopsAt n (i + l) m' = true := by
  induction k generalizing i m with
  | zero => exact iff_of_false (nofun) fun ⟨l, hl, _⟩ => absurd hl (Nat.not_lt_zero l)
  | succ k ih =>
    rw [solveFrom_succ]
    by_cases hstop : stopsAt n i m = true
    · rw [if_pos hstop]
      exact iff_of_true rfl ⟨0, Nat.succ_pos k, m, rfl, hstop⟩
    · rw [if_neg hstop, ih]
      -- a round more is the first one; the column that is refused keeps its number
      constructor
      · rintro ⟨l, hl, m', hm', hlater⟩
        refine ⟨l + 1, Nat.succ_lt_succ hl, m', ?_, ?_⟩
        · rw [solveFrom_succ, if_neg hstop, hm']
        · rw [Nat.add_comm l 1, ← Nat.add_assoc]
          exact hlater
      · rintro ⟨l, hl, m', hm', hlater⟩
        cases l with
        | zero =>
          cases hm'
          exact absurd hlater hstop
        | succ l =>
          rw [solveFrom_succ, if_neg hstop] at hm'
          refine ⟨l, Nat.lt_of_succ_lt_succ hl, m', hm', ?_⟩
          rw [Nat.add_assoc, Nat.add_comm 1 l]
          exact hlater

/-- The pivot is one of the candidates. -/
theorem pivot_lt (m : List (List K)) (hi : i < n) : pivot m i n < n := by
  have hfold : ∀ (rows : List Nat) (p : Nat), p < n → (∀ r ∈ rows, r < n) →
      rows.foldl (fun p r =>
        if Arith.lt (Arith.abs (entry m p i)) (Arith.abs (entry m r i)) then r else p) p < n := by
    intro rows
    induction rows with
    | nil => exact fun p hp _ => hp
    | cons r rows ih =>
      intro p hp hrows
      rw [List.foldl_cons]
      refine ih _ ?_ fun r' hr' => hrows r' (List.mem_cons_of_mem r hr')
      split_ifs
      · exact hrows r List.mem_cons_self
      · exact hp
  refine hfold _ i hi fun r hr => ?_
  have hrange := (List.mem_range'_1.1 hr).2
  omega

/-- The rounds keep the shape. -/
theorem Augmented.solveFrom (h : Augmented n m) (hk : i + k ≤ n)
    (hm' : solveFrom n k i m = some m') : Augmented n m' := by
  induction k generalizing i m with
  | zero =>
    cases hm'
    exact h
  | succ k ih =>
    have hi : i < n := by omega
    rw [solveFrom_succ] at hm'
    split_ifs at hm'
    exact ih ((h.swapRows hi (pivot_lt m hi)).eliminate hi) (by omega) hm'

end Loop

section Values

variable {K R : Type} [Arith K] [Field R] [LinearOrder R] [ExactArith K R] {n i k : Nat}
  {m m' : List (List K)}

open ExactArith

/-- All candidates for the pivot of the column `i` are below `1e-12`. -/
def Refused (R : Type) [Field R] [LinearOrder R] [ExactArith K R] (n i : Nat) (m : List (List K)) :
    Prop :=
  ∀ r, i ≤ r → r < n → |(system m r i : R)| < 1 / (10 : ℕ) ^ 12

/-- The pivot is the largest candidate, so it stands for all of them. -/
theorem refused_iff (h : Augmented n m) (hi : i < n) : stopsAt n i m = true ↔ Refused R n i m := by
  obtain ⟨hip, hpn, hmax⟩ := pivot_spec (R := R) m hi
  have hdiag : (value (entry (exchanged n i m) i i) : R) = system m (pivot m i n) i := by
    have hswapped := congrFun (congrFun (system_swapRows (R := R) h.1 hi hpn) i) i
    rw [Elimination.swapped, Equiv.swap_apply_left] at hswapped
    exact hswapped
  rw [stopsAt, lt_iff, value_abs, value_tiny, hdiag, ← Nat.cast_ofNat (R := R) (n := 10)]
  constructor
  · intro hlt r hir hrn
    exact (hmax r hir hrn).trans_lt hlt
  · intro hall
    exact hall _ hip hpn

/-! ### `_solve` -/

variable {a : List (List K)} {b x : List K}

omit [Arith K] in
theorem length_row (ha : a.length = n) (hrows : ∀ row ∈ a, row.length = n) :
    ∀ r < n, (a.getD r []).length = n := by
  intro r hr
  rw [List.getD_eq_getElem _ _ (by omega)]
  exact hrows _ (List.getElem_mem _)

/-- `_solve` raises if and only if it comes to a column all of whose candidates are too small. -/
theorem solve_none_iff (ha : a.length = n) (hrows : ∀ row ∈ a, row.length = n) (hb : b.length = n) :
    solve a b = none ↔
      ∃ i < n, ∃ m, solveFrom n i 0 (augment a b) = some m ∧ Refused R n i m := by
  have hloop : solve a b = none ↔ solveFrom n n 0 (augment a b) = none := by
    rw [solve, hb]
    exact Option.map_eq_none_iff
  rw [hloop, solveFrom_none_iff]
  refine exists_congr fun i => and_congr_right fun hi => exists_congr fun m => ?_
  refine and_congr_right fun hm => ?_
  have hshape := (augmented_augment hb ha (length_row ha hrows)).solveFrom (by omega) hm
  rw [Nat.zero_add]
  exact refused_iff hshape hi

variable [IsStrictOrderedRing R]

/-- The values of a square matrix, and of a vector. -/
def matrixOf (R : Type) [Field R] [LinearOrder R] [ExactArith K R] (n : Nat) (a : List (List K)) :
    Matrix (Fin n) (Fin n) R := Matrix.of fun r j => system a r j

def vectorOf (R : Type) [Field R] [LinearOrder R] [ExactArith K R] (n : Nat) (x : List K) :
    Fin n → R := fun j => vector x j

/-- What `_solve` returns is the only solution, in the words of matrices. -/
theorem mulVec_eq_iff (ha : a.length = n) (hrows : ∀ row ∈ a, row.length = n) (hb : b.length = n)
    (h : solve a b = some x) (v : Fin n → R) :
    (matrixOf R n a).mulVec v = vectorOf R n b ↔ v = vectorOf R n x := by
  obtain ⟨-, honly⟩ := solve_some (R := R) hb ha (length_row ha hrows) h
  -- the vector as a function on all numbers
  let v' : Nat → R := fun j => if hj : j < n then v ⟨j, hj⟩ else 0
  have hv' : ∀ j : Fin n, v' j = v j := fun j => dif_pos j.isLt
  have hleft : (matrixOf R n a).mulVec v = vectorOf R n b ↔
      ∀ r < n, ∑ j ∈ Finset.range n, system a r j * v' j = vector b r := by
    have hsum : ∀ r : Fin n, (matrixOf R n a).mulVec v r =
        ∑ j ∈ Finset.range n, system a r j * v' j := by
      intro r
      rw [← Fin.sum_univ_eq_sum_range fun j => (system a r j : R) * v' j]
      show ∑ j : Fin n, (system a r j : R) * v j = _
      simp only [hv']
    constructor
    · intro heq r hr
      rw [← hsum ⟨r, hr⟩, heq]
      rfl
    · intro heq
      funext r
      rw [hsum r]
      exact heq r r.isLt
  have hright : v = vectorOf R n x ↔ ∀ j < n, v' j = vector x j := by
    constructor
    · intro heq j hj
      rw [hv' ⟨j, hj⟩, heq]
      rfl
    · intro heq
      funext j
      rw [← hv' j]
      exact heq j j.isLt
  rw [hleft, hright]
  exact honly v'

/-- `_solve` returns the only solution, or comes to a column all of whose candidates are below
    `1e-12`; a singular matrix makes it raise. -/
theorem solve_exact (ha : a.length = n) (hrows : ∀ row ∈ a, row.length = n) (hb : b.length = n) :
    (∀ x, solve a b = some x → x.length = n ∧
      (matrixOf R n a).mulVec (vectorOf R n x) = vectorOf R n b ∧
      ∀ v, (matrixOf R n a).mulVec v = vectorOf R n b → v = vectorOf R n x) ∧
    (solve a b = none ↔
      ∃ i < n, ∃ m, solveFrom n i 0 (augment a b) = some m ∧ Refused R n i m) ∧
    ((matrixOf R n a).det = 0 → solve a b = none) := by
  refine ⟨fun x hx => ⟨?_, ?_, fun v hv => ?_⟩, solve_none_iff ha hrows hb, fun hdet => ?_⟩
  · obtain ⟨m, -, rfl⟩ := Option.map_eq_some_iff.1 hx
    rw [List.length_map, List.length_range, hb]
  · exact (mulVec_eq_iff ha hrows hb hx _).2 rfl
  · exact (mulVec_eq_iff ha hrows hb hx v).1 hv
  · by_contra hsome
    obtain ⟨x, hx⟩ := Option.ne_none_iff_exists'.1 hsome
    obtain ⟨v, hv, hzero⟩ := Matrix.exists_mulVec_eq_zero_iff.2 hdet
    have hsolution := (mulVec_eq_iff (R := R) ha hrows hb hx _).2 rfl
    -- the solution plus a vector of the kernel would be another one
    have hother := (mulVec_eq_iff (R := R) ha hrows hb hx (vectorOf R n x + v)).1 <| by
      rw [Matrix.mulVec_add, hsolution, hzero, add_zero]
    exact hv (left_eq_add.1 hother.symm)

end Values

/-! ### Fields -/

/-- The arithmetic of an ordered field. -/
@[reducible] def Arith.ofField (R : Type) [Field R] [LinearOrder R] : Arith R where
  ofNat n := n
  tiny := 1 / (10 : ℕ) ^ 12
  add x y := x + y
  sub x y := x - y
  mul x y := x * y
  div x y := x / y
  abs x := |x|
  lt x y := decide (x < y)
  isZero x := decide (x = 0)

theorem ofField_tiny (R : Type) [Field R] : (1 / (10 : ℕ) ^ 12 : R) = 1 / 10 ^ 12 :=
  congrArg (fun t : R => 1 / t ^ 12) Nat.cast_ofNat

/-- It is exact. -/
@[reducible] def ExactArith.ofField (R : Type) [Field R] [LinearOrder R] :
    @ExactArith R R (Arith.ofField R) _ _ :=
  letI := Arith.ofField R
  { value := fun x => x
    value_ofNat := fun _ => rfl
    value_tiny := ofField_tiny R
    value_add := fun _ _ => rfl
    value_sub := fun _ _ => rfl
    value_mul := fun _ _ => rfl
    value_div := fun _ _ _ => rfl
    value_abs := fun _ => rfl
    lt_iff := fun _ _ => decide_eq_true_iff
    isZero_iff := fun _ => decide_eq_true_iff }

instance : Arith ℚ := Arith.ofField ℚ

instance : ExactArith ℚ ℚ := ExactArith.ofField ℚ

/-- A system that needs an exchange of rows, and a singular one. -/
theorem solve_exact_two :
    ((matrixOf ℚ 2 [[(0 : ℚ), 1], [2, 0]]).mulVec (vectorOf ℚ 2 [(2 : ℚ), 3]) =
        vectorOf ℚ 2 [(3 : ℚ), 4] ∧
      ∀ v, (matrixOf ℚ 2 [[(0 : ℚ), 1], [2, 0]]).mulVec v = vectorOf ℚ 2 [(3 : ℚ), 4] →
        v = vectorOf ℚ 2 [(2 : ℚ), 3]) ∧
    solve [[(1 : ℚ), 2], [2, 4]] [1, 1] = none := by
  have hsolved : solve [[(0 : ℚ), 1], [2, 0]] [3, 4] = some [2, 3] := by decide +kernel
  constructor
  · exact ((solve_exact rfl (by decide) rfl).1 [2, 3] hsolved).2
  · refine (solve_exact (R := ℚ) rfl (by decide) rfl).2.2 ?_
    rw [Matrix.det_fin_two]
    show (1 : ℚ) * 4 - 2 * 2 = 0
    norm_num

end Cloud

end Waterbox
