import Mathlib.Data.List.Sort
import Mathlib.Order.Basic

namespace Waterbox

/-!
# Medians

A number is a median of a list when at most half of the list is smaller and at most half is larger.

* `countP_lt_getElem`, `countP_gt_getElem` — what stands on either side of an element of a sorted
  list.
* `isMedian_of_sorted` — everything between the two elements in the middle is a median.
-/

namespace Median

variable {α : Type*} [LinearOrder α]

/-- At most half of the list is smaller, and at most half larger. -/
structure IsMedian (x : α) (l : List α) : Prop where
  smaller : 2 * l.countP (· < x) ≤ l.length
  larger : 2 * l.countP (x < ·) ≤ l.length

/-- The order of the list does not matter. -/
theorem IsMedian.perm {x : α} {l l' : List α} (h : IsMedian x l) (hperm : l.Perm l') :
    IsMedian x l' := by
  obtain ⟨hsmaller, hlarger⟩ := h
  rw [hperm.countP_eq, hperm.length_eq] at hsmaller hlarger
  exact ⟨hsmaller, hlarger⟩

variable {l : List α} {x : α} {i : Nat}

/-- Only what stands before an element of a sorted list can be smaller than a lower bound of it. -/
theorem countP_lt_getElem (hl : l.Pairwise (· ≤ ·)) (hi : i < l.length) (hx : x ≤ l[i]) :
    l.countP (· < x) ≤ i := by
  have hback : (l.drop i).countP (· < x) = 0 := by
    rw [List.countP_eq_zero]
    intro y hy
    obtain ⟨j, hj, rfl⟩ := List.mem_iff_getElem.1 hy
    have hlt : i + j < l.length := by
      rw [List.length_drop] at hj
      omega
    rw [List.getElem_drop, decide_eq_true_eq, not_lt]
    have hle : l[i] ≤ l[i + j] := by
      rcases Nat.eq_zero_or_pos j with rfl | hpos
      · exact le_refl _
      · exact List.pairwise_iff_getElem.1 hl i (i + j) hi _ (Nat.lt_add_of_pos_right hpos)
    exact hx.trans hle
  calc l.countP (· < x) = (l.take i ++ l.drop i).countP (· < x) := by rw [List.take_append_drop]
    _ = (l.take i).countP (· < x) := by rw [List.countP_append, hback, Nat.add_zero]
    _ ≤ (l.take i).length := List.countP_le_length
    _ ≤ i := List.length_take_le i l

/-- Only what stands behind an element of a sorted list can be larger than an upper bound of it. -/
theorem countP_gt_getElem (hl : l.Pairwise (· ≤ ·)) (hi : i < l.length) (hx : l[i] ≤ x) :
    l.countP (x < ·) ≤ l.length - (i + 1) := by
  have hfront : (l.take (i + 1)).countP (x < ·) = 0 := by
    rw [List.countP_eq_zero]
    intro y hy
    obtain ⟨j, hj, rfl⟩ := List.mem_iff_getElem.1 hy
    rw [List.length_take] at hj
    rw [List.getElem_take, decide_eq_true_eq, not_lt]
    have hle : l[j] ≤ l[i] := by
      rcases Nat.lt_or_ge j i with hlt | hge
      · exact List.pairwise_iff_getElem.1 hl j i _ hi hlt
      · have hsame : j = i := by omega
        subst hsame
        exact le_refl _
    exact hle.trans hx
  calc l.countP (x < ·) = (l.take (i + 1) ++ l.drop (i + 1)).countP (x < ·) := by
        rw [List.take_append_drop]
    _ = (l.drop (i + 1)).countP (x < ·) := by rw [List.countP_append, hfront, Nat.zero_add]
    _ ≤ (l.drop (i + 1)).length := List.countP_le_length
    _ = l.length - (i + 1) := List.length_drop

/-- In a sorted list, what lies between the two places in the middle. -/
theorem isMedian_of_sorted (hl : l.Pairwise (· ≤ ·)) (hpos : 0 < l.length)
    (hlow : l[(l.length - 1) / 2] ≤ x) (hhigh : x ≤ l[l.length / 2]) : IsMedian x l where
  smaller := by
    have := countP_lt_getElem hl (by omega) hhigh
    omega
  larger := by
    have := countP_gt_getElem hl (by omega) hlow
    omega

end Median

end Waterbox
