import Mathlib.Algebra.BigOperators.Group.List.Basic
import Mathlib.Algebra.Order.BigOperators.Group.List
import Waterbox.Lib.Buckets

namespace Waterbox

/-!
# Counters that restart

The values of a counter in the order of time.  A value that is below the one before it tells that
the counter has restarted from zero.

* `counted` — what the counter has counted: the steps up, and the whole value after a restart.
* `peaks` — the values right before the restarts, and the last one.
* `spread_le_counted_iff` — when the largest value minus the smallest is not more than that.
-/

namespace Restarts

open Buckets

/-- What has been counted from the first value on. -/
def counted : List Int → Int
  | a :: b :: ns => (if b < a then b else b - a) + counted (b :: ns)
  | _ => 0

/-- The values before the restarts, and the last one. -/
def peaks : List Int → List Int
  | a :: b :: ns => if b < a then a :: peaks (b :: ns) else peaks (b :: ns)
  | ns => ns

/-- The first value is not above the smallest by more than the peaks without the largest. -/
def Covered (ns : List Int) : Prop :=
  ns.headD 0 ≤ ns.min?.getD 0 + ((peaks ns).erase (ns.max?.getD 0)).sum

instance (ns : List Int) : Decidable (Covered ns) := inferInstanceAs (Decidable (_ ≤ _))

/-- Between two restarts the counter goes from zero to a peak. -/
theorem counted_cons (a : Int) (ns : List Int) : counted (a :: ns) = (peaks (a :: ns)).sum - a := by
  induction ns generalizing a with
  | nil => simp [counted, peaks]
  | cons b ns ih =>
    rw [counted, peaks, ih b]
    by_cases hba : b < a
    · rw [if_pos hba, if_pos hba, List.sum_cons]
      omega
    · rw [if_neg hba, if_neg hba]
      omega

/-- The largest value is a peak. -/
theorem max_mem_peaks {ns : List Int} {hi : Int} (h : ns.max? = some hi) : hi ∈ peaks ns := by
  obtain ⟨hmem, hall⟩ := List.max?_eq_some_iff.1 h
  clear h
  induction ns with
  | nil => cases hmem
  | cons a ns ih =>
    cases ns with
    | nil => exact hmem
    | cons b ns =>
      have hrest : ∀ k ∈ b :: ns, k ≤ hi := fun k hk => hall k (List.mem_cons_of_mem a hk)
      rw [peaks]
      rcases List.mem_cons.1 hmem with rfl | hmem
      · -- the first value is the largest: it is a peak itself, or the next one is as large
        by_cases hba : b < hi
        · rw [if_pos hba]
          exact List.mem_cons_self
        · rw [if_neg hba]
          have hb : hi = b := le_antisymm (not_lt.1 hba) (hrest b List.mem_cons_self)
          exact ih (hb ▸ List.mem_cons_self) hrest
      · have hpeak := ih hmem hrest
        split_ifs
        · exact List.mem_cons_of_mem a hpeak
        · exact hpeak

/-- The spread is not more than what has been counted if and only if the first value is covered. -/
theorem spread_le_counted_iff {ns : List Int} (hne : ns ≠ []) :
    spread ns ≤ counted ns ↔ Covered ns := by
  obtain ⟨hi, hmax⟩ := Option.ne_none_iff_exists'.1 (mt List.max?_eq_none_iff.1 hne)
  obtain ⟨lo, hmin⟩ := Option.ne_none_iff_exists'.1 (mt List.min?_eq_none_iff.1 hne)
  have hsum := List.sum_erase (max_mem_peaks hmax)
  cases ns with
  | nil => exact absurd rfl hne
  | cons a ns =>
    rw [counted_cons, Covered, hmax, hmin]
    simp only [spread, hmax, hmin, Option.getD_some, List.headD_cons]
    omega

end Restarts

end Waterbox
