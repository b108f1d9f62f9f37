import Mathlib.Algebra.Group.Basic
import Mathlib.Data.BitVec

namespace Waterbox

/-!
# A clock of `w` bits

A counter shows the time modulo `2 ^ w`, and a timer compares the difference of two of its values
with an interval.  The difference is that of the times, modulo `2 ^ w` again: it can be too small,
which makes a timer late, but not too large, unless the stamp lies ahead of the reading.

* `Stamp v t` — `v` is what the clock showed at the time `t`; a stamp may be set back to before the
  clock was started.
* `Stamp.due` — a timer that is due has waited for its interval.
* `Passed v s t` — the stamp `v` of a time `s` that is not to come at the time `t`.
-/

namespace Clock

variable {w : Nat} {v d : BitVec w} {s : Int} {t : Nat}

/-- What the clock showed at a time. -/
def Stamp (v : BitVec w) (t : Int) : Prop := v = BitVec.ofInt w t

theorem Stamp.ofNat (t : Nat) : Stamp (BitVec.ofNat w t) t := (BitVec.ofInt_natCast w t).symm

theorem ofInt_sub (w : Nat) (x y : Int) :
    BitVec.ofInt w (x - y) = BitVec.ofInt w x - BitVec.ofInt w y := by
  rw [BitVec.eq_sub_iff_add_eq, ← BitVec.ofInt_add, sub_add_cancel]

/-- A stamp that is set back. -/
theorem Stamp.sub (h : Stamp v s) (d : BitVec w) : Stamp (v - d) (s - d.toNat) := by
  unfold Stamp at h ⊢
  rw [h, ofInt_sub, BitVec.ofInt_natCast, BitVec.ofNat_toNat, BitVec.setWidth_eq]

/-- The difference of two values is at most that of the times. -/
theorem Stamp.toNat_sub_le (h : Stamp v s) (hs : s ≤ t) :
    ((BitVec.ofNat w t - v).toNat : Int) ≤ t - s := by
  obtain ⟨n, hn⟩ := Int.eq_ofNat_of_zero_le (sub_nonneg.2 hs)
  unfold Stamp at h
  rw [h, ← BitVec.ofInt_natCast, ← ofInt_sub, hn, BitVec.ofInt_natCast, BitVec.toNat_ofNat]
  exact_mod_cast Nat.mod_le n (2 ^ w)

/-- A timer is due only after its interval, whatever the clock has done in between. -/
theorem Stamp.due (h : Stamp v s) (hs : s ≤ t) (hdue : d ≤ BitVec.ofNat w t - v) :
    s + d.toNat ≤ t := by
  have hle := h.toNat_sub_le hs
  have hdue : d.toNat ≤ (BitVec.ofNat w t - v).toNat := hdue
  omega

/-- Before the clock has come around, a timer whose interval is over is due. -/
theorem Stamp.due_of_le (h : Stamp v s) (hs : s + d.toNat ≤ t) (hwrap : t < s + 2 ^ w) :
    d ≤ BitVec.ofNat w t - v := by
  obtain ⟨n, hn⟩ := Int.eq_ofNat_of_zero_le (show 0 ≤ (t : Int) - s by omega)
  have hlt : n < 2 ^ w := by
    have hlt : (n : Int) < 2 ^ w := by omega
    exact_mod_cast hlt
  unfold Stamp at h
  rw [h, ← BitVec.ofInt_natCast, ← ofInt_sub, hn, BitVec.ofInt_natCast, BitVec.le_def,
    BitVec.toNat_ofNat, Nat.mod_eq_of_lt hlt]
  omega

/-- At the time `t`, `v` is a stamp of the past. -/
structure Passed (v : BitVec w) (s : Int) (t : Nat) : Prop where
  stamp : Stamp v s
  le : s ≤ t

theorem Passed.mono {t' : Nat} (h : Passed v s t) (hle : t ≤ t') : Passed v s t' :=
  ⟨h.stamp, h.le.trans (Int.ofNat_le.2 hle)⟩

theorem passed_zero (t : Nat) : Passed (0 : BitVec w) 0 t :=
  ⟨(BitVec.ofInt_natCast w 0).symm, Int.natCast_nonneg t⟩

end Clock

end Waterbox
