import Mathlib.Data.List.GetD
import Waterbox.Cloud.Fingerprint
import Waterbox.Lib.Elimination

namespace Waterbox

namespace Cloud

/-!
# `_solve` without rounding

The loop of `_solve` over lists of rows, and the elimination of the library.

* `ExactArith` — arithmetic whose numbers have values in an ordered field.
* `pivot_spec`, `system_swapRows`, `system_eliminate` — what a round of the loop does.
* `solveFrom_some`, `solve_some` — what `_solve` returns is the only solution.
-/

/-- Arithmetic without rounding: each number has a value in an ordered field. -/
class ExactArith (K : Type) (R : outParam Type) [Arith K] [Field R] [LinearOrder R] where
  value : K → R
  value_ofNat : ∀ n : Nat, value (Arith.ofNat n) = n
  value_tiny : value Arith.tiny = 1 / 10 ^ 12
  value_add : ∀ x y, value (Arith.add x y) = value x + value y
  value_sub : ∀ x y, value (Arith.sub x y) = value x - value y
  value_mul : ∀ x y, value (Arith.mul x y) = value x * value y
  value_div : ∀ x y, value y ≠ 0 → value (Arith.div x y) = value x / value y
  value_abs : ∀ x, value (Arith.abs x) = |value x|
  lt_iff : ∀ x y, Arith.lt x y = true ↔ value x < value y
  isZero_iff : ∀ x, Arith.isZero x = true ↔ value x = 0

section Lists

variable {K : Type} [Arith K] {n i p r j : Nat} {m : List (List K)}

/-- A matrix of `n` rows with `n + 1` columns. -/
def Augmented (n : Nat) (m : List (List K)) : Prop :=
  m.length = n ∧ ∀ r < n, (m.getD r []).length = n + 1

/-! ### The exchange of rows -/

omit [Arith K] in
theorem getD_swapRows (hm : m.length = n) (hi : i < n) (hp : p < n) :
    (swapRows m i p).getD r [] = m.getD (Equiv.swap i p r) [] := by
  have hlength : (m.set i (m.getD p [])).length = n := by rw [List.length_set, hm]
  rw [swapRows, List.getD_eq_getElem?_getD, List.getElem?_set]
  by_cases hrp : p = r
  · subst hrp
    rw [if_pos rfl, if_pos (by omega), Equiv.swap_apply_right]
    rfl
  · rw [if_neg hrp, List.getElem?_set]
    by_cases hri : i = r
    · subst hri
      rw [if_pos rfl, if_pos (by omega), Equiv.swap_apply_left]
      rfl
    · rw [if_neg hri, Equiv.swap_apply_of_ne_of_ne (Ne.symm hri) (Ne.symm hrp)]
      rfl

omit [Arith K] in
theorem Augmented.swapRows (h : Augmented n m) (hi : i < n) (hp : p < n) :
    Augmented n (swapRows m i p) := by
  constructor
  · rw [Cloud.swapRows, List.length_set, List.length_set, h.1]
  · intro r hr
    rw [getD_swapRows h.1 hi hp]
    exact h.2 _ (Elimination.swap_lt hi hp hr)

/-! ### The elimination of a column -/

omit [Arith K] in
theorem getD_fromColumn (f : Nat → K → K) {row : List K} (hj : j < row.length) (d : K) :
    (fromColumn i f row).getD j d = if i ≤ j then f j (row.getD j d) else row.getD j d := by
  rw [fromColumn, List.getD_eq_getElem?_getD, List.getElem?_mapIdx, List.getD_eq_getElem?_getD,
    List.getElem?_eq_getElem hj]
  rfl

omit [Arith K] in
theorem length_fromColumn (f : Nat → K → K) (row : List K) :
    (fromColumn i f row).length = row.length := List.length_mapIdx

/-- The row of the pivot after its division. -/
def topRow (m : List (List K)) (i : Nat) : List K :=
  fromColumn i (fun _ x => Arith.div x (entry m i i)) (m.getD i [])

theorem getD_eliminate (hm : m.length = n) (hr : r < n) :
    (eliminate m i).getD r [] =
      if r = i then topRow m i
      else fromColumn i
        (fun j x => Arith.sub x (Arith.mul (entry m r i) ((topRow m i).getD j (Arith.ofNat 0))))
        (m.getD r []) := by
  have hrow : m[r]? = some (m.getD r []) := by
    rw [List.getD_eq_getElem?_getD, List.getElem?_eq_getElem (by omega)]
    rfl
  rw [eliminate, List.getD_eq_getElem?_getD, List.getElem?_mapIdx, hrow]
  rfl

theorem Augmented.eliminate (h : Augmented n m) (hi : i < n) : Augmented n (eliminate m i) := by
  constructor
  · rw [Cloud.eliminate, List.length_mapIdx, h.1]
  · intro r hr
    rw [getD_eliminate h.1 hr]
    split_ifs
    · rw [topRow, length_fromColumn, h.2 i hi]
    · rw [length_fromColumn, h.2 r hr]

end Lists

section Values

variable {K R : Type} [Arith K] [Field R] [LinearOrder R] [ExactArith K R]

open ExactArith

/-- The values of a matrix. -/
def system (m : List (List K)) (r j : Nat) : R := value (entry m r j)

variable {n i r j : Nat} {m : List (List K)}

theorem system_swapRows {p : Nat} (hm : m.length = n) (hi : i < n) (hp : p < n) :
    system (swapRows m i p) = Elimination.swapped (system m) i p := by
  funext r j
  rw [system, entry, getD_swapRows hm hi hp]
  rfl

theorem value_topRow (h : Augmented n m) (hi : i < n) (hne : (system m i i : R) ≠ 0) (hj : j ≤ n) :
    value ((topRow m i).getD j (Arith.ofNat 0)) =
      if i ≤ j then system m i j / system m i i else system m i j := by
  have hlength : j < (m.getD i []).length := by rw [h.2 i hi]; omega
  rw [topRow, getD_fromColumn _ hlength]
  by_cases hij : i ≤ j
  · rw [if_pos hij, if_pos hij, value_div _ _ hne]
    rfl
  · rw [if_neg hij, if_neg hij]
    rfl

/-- A round of the loop is a step of the elimination. -/
theorem system_eliminate (h : Augmented n m) (hi : i < n) (hne : (system m i i : R) ≠ 0)
    (hunit : Elimination.UnitBefore n i (system m)) (hr : r < n) (hj : j ≤ n) :
    system (eliminate m i) r j = Elimination.eliminated (system m) i r j := by
  rw [system, entry, getD_eliminate h.1 hr]
  by_cases hij : i ≤ j
  · by_cases hri : r = i
    · rw [if_pos hri, value_topRow h hi hne hj, if_pos hij, Elimination.eliminated, if_pos hri]
    · have hlength : j < (m.getD r []).length := by rw [h.2 r hr]; omega
      rw [if_neg hri, getD_fromColumn _ hlength, if_pos hij, value_sub, value_mul,
        value_topRow h hi hne hj, if_pos hij, Elimination.eliminated, if_neg hri]
      rfl
  · -- the loop starts at the column of the pivot; before it, there is nothing to be changed
    rw [hunit.eliminated_of_lt hi (not_le.1 hij)]
    by_cases hri : r = i
    · rw [if_pos hri, value_topRow h hi hne hj, if_neg hij, hri]
    · have hlength : j < (m.getD r []).length := by rw [h.2 r hr]; omega
      rw [if_neg hri, getD_fromColumn _ hlength, if_neg hij]
      rfl

/-! ### The choice of the pivot -/

/-- The pivot is a row from the diagonal on, and no later row has a larger entry. -/
theorem pivot_spec (m : List (List K)) (hi : i < n) :
    i ≤ pivot m i n ∧ pivot m i n < n ∧
      ∀ r, i ≤ r → r < n → |(system m r i : R)| ≤ |system m (pivot m i n) i| := by
  have hfold : ∀ k a p, i ≤ p → p < a →
      (∀ r, i ≤ r → r < a → |(system m r i : R)| ≤ |system m p i|) →
      let q := (List.range' a k).foldl
        (fun p r => if Arith.lt (Arith.abs (entry m p i)) (Arith.abs (entry m r i)) then r else p) p
      i ≤ q ∧ q < a + k ∧ ∀ r, i ≤ r → r < a + k → |(system m r i : R)| ≤ |system m q i| := by
    intro k
    induction k with
    | zero => exact fun a p hip hpa hmax => ⟨hip, hpa, hmax⟩
    | succ k ih =>
      intro a p hip hpa hmax
      have hsucc : a + (k + 1) = a + 1 + k := by omega
      rw [List.range'_succ, List.foldl_cons, hsucc]
      -- the best of the rows up to `a` is the one so far or `a` itself
      by_cases hlt : Arith.lt (Arith.abs (entry m p i)) (Arith.abs (entry m a i)) = true
      · rw [if_pos hlt]
        refine ih (a + 1) a (by omega) (by omega) fun r hir hra => ?_
        rw [lt_iff, value_abs, value_abs] at hlt
        rcases Nat.lt_succ_iff_lt_or_eq.1 hra with hra | rfl
        · exact (hmax r hir hra).trans hlt.le
        · exact le_rfl
      · rw [if_neg hlt]
        refine ih (a + 1) p hip (by omega) fun r hir hra => ?_
        rw [lt_iff, value_abs, value_abs, not_lt] at hlt
        rcases Nat.lt_succ_iff_lt_or_eq.1 hra with hra | rfl
        · exact hmax r hir hra
        · exact hlt
  have hstart : ∀ r, i ≤ r → r < i + 1 → |(system m r i : R)| ≤ |system m i i| := by
    intro r hir hri
    rw [Nat.le_antisymm (Nat.lt_succ_iff.1 hri) hir]
  have hend : i + 1 + (n - (i + 1)) = n := by omega
  have hspec := hfold (n - (i + 1)) (i + 1) i le_rfl (Nat.lt_succ_self i) hstart
  rw [hend] at hspec
  exact hspec

/-! ### The loop -/

variable [IsStrictOrderedRing R]

/-- A pivot that is not refused is not zero. -/
theorem pivot_ne_zero {x : K} (h : ¬ Arith.lt (Arith.abs x) Arith.tiny = true) :
    (value x : R) ≠ 0 := by
  intro hzero
  rw [lt_iff, value_abs, hzero, abs_zero, value_tiny] at h
  exact h (by positivity)

/-- What the loop returns is a system with the same solutions, whose columns are those of the
    identity. -/
theorem solveFrom_some {k : Nat} {m' : List (List K)} (hm : Augmented n m)
    (hunit : Elimination.UnitBefore n i (system m)) (hk : i + k = n)
    (h : solveFrom n k i m = some m') :
    Elimination.UnitBefore n n (system m') ∧
      ∀ x : Nat → R, Elimination.Solves n (system m') x ↔ Elimination.Solves n (system m) x := by
  induction k generalizing i m with
  | zero =>
    cases h
    rw [Nat.add_zero] at hk
    exact ⟨hk ▸ hunit, fun x => Iff.rfl⟩
  | succ k ih =>
    have hi : i < n := by omega
    obtain ⟨hip, hpn, -⟩ := pivot_spec (R := R) m hi
    rw [solveFrom] at h
    split_ifs at h with hpivot
    have hswapped := system_swapRows (R := R) hm.1 hi hpn
    have hm' := hm.swapRows hi hpn
    have hunit' : Elimination.UnitBefore n i (system (swapRows m i (pivot m i n))) := by
      rw [hswapped]
      exact hunit.swapped hi hpn hip
    have hne : system (swapRows m i (pivot m i n)) i i ≠ 0 := pivot_ne_zero hpivot
    -- the round does on the values what the step of the elimination does
    have hround : ∀ r < n, ∀ j ≤ n, system (eliminate (swapRows m i (pivot m i n)) i) r j =
        Elimination.eliminated (system (swapRows m i (pivot m i n))) i r j :=
      fun r hr j hj => system_eliminate hm' hi hne hunit' hr hj
    have hnext : Elimination.UnitBefore n (i + 1)
        (system (eliminate (swapRows m i (pivot m i n)) i)) := by
      intro r hr j hj
      rw [hround r hr j (by omega)]
      exact hunit'.eliminated hi hne r hr j hj
    obtain ⟨hdone, hsame⟩ := ih (hm'.eliminate hi) hnext (by omega) h
    refine ⟨hdone, fun x => (hsame x).trans ?_⟩
    rw [Elimination.solves_congr hround, Elimination.solves_eliminated hi hne, hswapped,
      Elimination.solves_swapped hi hpn]

/-! ### The result -/

variable {a : List (List K)} {b x : List K}

/-- The values of a vector. -/
def vector (x : List K) (j : Nat) : R := value (x.getD j (Arith.ofNat 0))

/-- `row[:] + [b[i]]` for each row. -/
def augment (a : List (List K)) (b : List K) : List (List K) :=
  List.zipWith (fun row y => row ++ [y]) a b

theorem getD_augment (hb : b.length = a.length) (hr : r < a.length) :
    (augment a b).getD r [] = a.getD r [] ++ [b.getD r (Arith.ofNat 0)] := by
  have ha : a[r]? = some (a.getD r []) := by
    rw [List.getD_eq_getElem?_getD, List.getElem?_eq_getElem hr]
    rfl
  have hb' : b[r]? = some (b.getD r (Arith.ofNat 0)) := by
    rw [List.getD_eq_getElem?_getD, List.getElem?_eq_getElem (by omega)]
    rfl
  rw [List.getD_eq_getElem?_getD, augment, List.getElem?_zipWith, ha, hb']
  rfl

section Augment

variable (hb : b.length = n) (ha : a.length = n) (hrows : ∀ r < n, (a.getD r []).length = n)

include hb ha hrows

theorem augmented_augment : Augmented n (augment a b) := by
  constructor
  · rw [augment, List.length_zipWith, ha, hb, Nat.min_self]
  · intro r hr
    rw [getD_augment (hb.trans ha.symm) (by omega), List.length_append, hrows r hr]
    rfl

omit [IsStrictOrderedRing R] in
/-- The matrix is on the left. -/
theorem system_augment_left (hr : r < n) (hj : j < n) :
    (system (augment a b) r j : R) = system a r j := by
  rw [system, entry, getD_augment (hb.trans ha.symm) (by omega),
    List.getD_append _ _ _ _ (by rw [hrows r hr]; exact hj)]
  rfl

omit [IsStrictOrderedRing R] in
/-- The vector is the last column. -/
theorem system_augment_right (hr : r < n) : (system (augment a b) r n : R) = vector b r := by
  rw [system, entry, getD_augment (hb.trans ha.symm) (by omega),
    List.getD_append_right _ _ _ _ (by rw [hrows r hr]), hrows r hr, Nat.sub_self]
  rfl

end Augment

/-- What `_solve` returns is the only solution. -/
theorem solve_some (hb : b.length = n) (ha : a.length = n)
    (hrows : ∀ r < n, (a.getD r []).length = n) (h : solve a b = some x) :
    x.length = n ∧ ∀ v : Nat → R,
      (∀ r < n, ∑ j ∈ Finset.range n, system a r j * v j = vector b r) ↔
        ∀ j < n, v j = vector x j := by
  have hsolve : (solveFrom n n 0 (augment a b)).map
      (fun m => (List.range n).map fun i => entry m i n) = some x := by
    rw [← h, solve, hb]
    rfl
  obtain ⟨m', hfrom, rfl⟩ := Option.map_eq_some_iff.1 hsolve
  obtain ⟨hdone, hsame⟩ := solveFrom_some (R := R) (augmented_augment hb ha hrows)
    Elimination.unitBefore_zero (Nat.zero_add n) hfrom
  refine ⟨by rw [List.length_map, List.length_range], fun v => ?_⟩
  have hsystem : Elimination.Solves n (system (augment a b)) v ↔
      ∀ r < n, ∑ j ∈ Finset.range n, system a r j * v j = vector b r := by
    refine forall₂_congr fun r hr => ?_
    rw [system_augment_right hb ha hrows hr, Finset.sum_congr rfl fun j hj => by
      rw [system_augment_left hb ha hrows hr (Finset.mem_range.1 hj)]]
  -- the columns are those of the identity, so the system says what each value is
  rw [← hsystem, ← hsame v, Elimination.solves_iff_of_unit hdone]
  refine forall₂_congr fun j hj => ?_
  have hentry : ((List.range n).map fun i => entry m' i n).getD j (Arith.ofNat 0) =
      entry m' j n := by
    rw [List.getD_eq_getElem?_getD, List.getElem?_map, List.getElem?_range hj]
    rfl
  rw [vector, hentry]
  rfl

end Values

end Cloud

end Waterbox
