import Mathlib.Data.BitVec
import Mathlib.Logic.Function.Iterate

namespace Waterbox

/-!
# Cyclic redundancy checks

A register takes in one word after the other; each word is added to it, and then the register is
shifted, with the polynomial added where a one falls out.

* `shift`, `step`, `crc` — one shift, one word, a whole list.
* `shift_injective` — nothing is lost in a shift, if the polynomial has its highest bit.
* `crc_append` — two prefixes of one list agree in the check if and only if they do with any rest
  behind them.
* `two_le_differing`, `crc_set_ne` — a single word that changes changes the check.
-/

namespace Crc

variable {w : Nat} (poly : BitVec w) (n : Nat)

/-- The register after a shift to the right. -/
def shift (c : BitVec w) : BitVec w := if c.getLsbD 0 then (c >>> 1) ^^^ poly else c >>> 1

/-- The register after a word and `n` shifts. -/
def step (c data : BitVec w) : BitVec w := (shift poly)^[n] (c ^^^ data)

def crc (data : List (BitVec w)) : BitVec w := data.foldl (step poly n) 0

variable {poly}

/-- The highest bit of the register tells what fell out. -/
theorem shift_msb (h : poly.msb = true) (c : BitVec w) : (shift poly c).msb = c.getLsbD 0 := by
  have hdown : (c >>> 1).msb = false := by
    rw [BitVec.msb_ushiftRight]
    rfl
  unfold shift
  by_cases hlow : c.getLsbD 0 = true
  · rw [if_pos hlow, BitVec.msb_xor, hdown, h, hlow]
    rfl
  · rw [if_neg hlow, hdown]
    exact (Bool.eq_false_iff.2 hlow).symm

theorem shift_injective (h : poly.msb = true) : Function.Injective (shift poly) := by
  intro a b hab
  have hlow : a.getLsbD 0 = b.getLsbD 0 := by rw [← shift_msb h, ← shift_msb h, hab]
  have hdown : a >>> 1 = b >>> 1 := by
    unfold shift at hab
    by_cases ha : a.getLsbD 0 = true
    · rw [if_pos ha, if_pos (hlow ▸ ha)] at hab
      exact (BitVec.xor_left_inj poly).1 hab
    · rw [if_neg ha, if_neg (hlow ▸ ha)] at hab
      exact hab
  refine BitVec.eq_of_getLsbD_eq fun i _ => ?_
  cases i with
  | zero => exact hlow
  | succ i =>
    have hbit := congrArg (fun c : BitVec w => c.getLsbD i) hdown
    simpa only [BitVec.getLsbD_ushiftRight, Nat.add_comm 1 i] using hbit

theorem step_left_injective (h : poly.msb = true) (data : BitVec w) :
    Function.Injective fun c => step poly n c data := by
  intro a b hab
  exact (BitVec.xor_left_inj data).1 ((shift_injective h).iterate n hab)

theorem step_right_injective (h : poly.msb = true) (c : BitVec w) :
    Function.Injective (step poly n c) := by
  intro a b hab
  exact (BitVec.xor_right_inj c).1 ((shift_injective h).iterate n hab)

/-- Two registers that differ still differ after the same words. -/
theorem foldl_injective (h : poly.msb = true) (rest : List (BitVec w)) :
    Function.Injective fun c => rest.foldl (step poly n) c := by
  induction rest with
  | nil => exact Function.injective_id
  | cons data rest ih => exact ih.comp (step_left_injective n h data)

theorem crc_append (h : poly.msb = true) (xs ys rest : List (BitVec w)) :
    crc poly n (xs ++ rest) = crc poly n (ys ++ rest) ↔ crc poly n xs = crc poly n ys := by
  rw [crc, crc, List.foldl_append, List.foldl_append]
  exact (foldl_injective n h rest).eq_iff

/-- In how many places two lists differ. -/
def differing (xs ys : List (BitVec w)) : Nat := (xs.zip ys).countP fun x => x.1 ≠ x.2

omit poly n in
theorem eq_of_differing {xs ys : List (BitVec w)} (hlength : xs.length = ys.length)
    (h : differing xs ys = 0) : xs = ys := by
  refine List.ext_getElem hlength fun i hi hi' => ?_
  have hzip : i < (xs.zip ys).length := by
    rw [List.length_zip]
    omega
  have hpair : (xs.zip ys)[i] = (xs[i], ys[i]) := List.getElem_zip
  have hsame := List.countP_eq_zero.1 h _ (List.getElem_mem hzip)
  rw [hpair] at hsame
  simpa using hsame

/-- Lists that differ in one place have different checks. -/
theorem two_le_differing (h : poly.msb = true) {xs ys : List (BitVec w)}
    (hlength : xs.length = ys.length) (hne : xs ≠ ys) (hcrc : crc poly n xs = crc poly n ys) :
    2 ≤ differing xs ys := by
  have hzero : differing xs ys ≠ 0 := fun hzero => hne (eq_of_differing hlength hzero)
  have hone : ∀ (xs ys : List (BitVec w)) (c : BitVec w), xs.length = ys.length →
      differing xs ys = 1 → xs.foldl (step poly n) c ≠ ys.foldl (step poly n) c := by
    intro xs
    induction xs with
    | nil => exact fun ys c _ hone => absurd hone (by simp [differing])
    | cons x xs ih =>
      intro ys c hlength hone
      cases ys with
      | nil => cases hlength
      | cons y ys =>
        have hlength' : xs.length = ys.length := Nat.succ.inj hlength
        have hcount : differing (x :: xs) (y :: ys) =
            differing xs ys + if x ≠ y then 1 else 0 := by
          simp only [differing, List.zip_cons_cons, List.countP_cons, decide_eq_true_eq]
        rw [List.foldl_cons, List.foldl_cons]
        by_cases hxy : x = y
        · rw [hxy]
          refine ih ys _ hlength' ?_
          rw [hcount, if_neg fun hne => hne hxy] at hone
          exact hone
        · -- the rest is the same, and carries the difference on
          rw [hcount, if_pos hxy] at hone
          rw [eq_of_differing hlength' (Nat.succ.inj hone)]
          exact (foldl_injective n h ys).ne ((step_right_injective n h c).ne hxy)
  have hnot : differing xs ys ≠ 1 := fun hdiff => hone xs ys 0 hlength hdiff hcrc
  omega

/-- One word that is replaced by another one changes the check, wherever it stands. -/
theorem crc_set_ne (h : poly.msb = true) {xs : List (BitVec w)} {i : Nat} (hi : i < xs.length)
    {y : BitVec w} (hne : y ≠ xs[i]) : crc poly n (xs.set i y) ≠ crc poly n xs := by
  have hwhole : xs = xs.take i ++ xs[i] :: xs.drop (i + 1) := by
    rw [← List.drop_eq_getElem_cons hi, List.take_append_drop]
  have hset : xs.set i y = xs.take i ++ y :: xs.drop (i + 1) := by
    rw [List.set_eq_take_append_cons_drop, if_pos hi]
  nth_rewrite 2 [hwhole]
  rw [hset, crc, crc, List.foldl_append, List.foldl_append, List.foldl_cons, List.foldl_cons]
  exact (foldl_injective n h _).ne ((step_right_injective n h _).ne hne)

end Crc

end Waterbox
