import Mathlib
import Waterbox.Cloud.BestFit

namespace Waterbox

namespace Cloud

/-!
# Meters whose samples are at too few hours

* `dayHours` — the hours of the day that the samples are at.
* `fit_few` — with fewer than five of them, the functions of the model are not independent, and
  `fit` raises.
* `few_hours_skipped` — a pass then goes on to the next meter.
-/

section Few

variable {D : Type} [PyMath D] [ExactMath D]

open ExactArith Finset

/-- The hours modulo 24, each of them once. -/
noncomputable def dayHours (hours : List D) : Finset ℝ :=
  (hours.map fun h => 24 * Int.fract ((value h : ℝ) / 24)).toFinset

/-- With the usual periods, the functions repeat every day. -/
theorem basis_fract (t : ℝ) : basis 24 12 (24 * Int.fract (t / 24)) = basis 24 12 t := by
  have ht : t = 24 * Int.fract (t / 24) + 24 * ⌊t / 24⌋ := by
    rw [← mul_add, Int.fract_add_floor, mul_div_cancel₀ t (by norm_num)]
  have h1 : 2 * Real.pi * t / 24 =
      2 * Real.pi * (24 * Int.fract (t / 24)) / 24 + ⌊t / 24⌋ * (2 * Real.pi) := by
    nth_rewrite 1 [ht]
    ring
  have h2 : 2 * Real.pi * t / 12 =
      2 * Real.pi * (24 * Int.fract (t / 24)) / 12 + (2 * ⌊t / 24⌋ : ℤ) * (2 * Real.pi) := by
    nth_rewrite 1 [ht]
    push_cast
    ring
  funext j
  match j with
  | 0 => rfl
  | 1 => simp only [basis, Nat.cast_ofNat, h1, Real.sin_add_int_mul_two_pi]
  | 2 => simp only [basis, Nat.cast_ofNat, h1, Real.cos_add_int_mul_two_pi]
  | 3 => simp only [basis, Nat.cast_ofNat, h2, Real.sin_add_int_mul_two_pi]
  | 4 => simp only [basis, Nat.cast_ofNat, h2, Real.cos_add_int_mul_two_pi]
  | _ + 5 => rfl

/-- Samples at fewer than five hours of the day have no fit. -/
theorem fit_few {hours lms : List D} (hfive : 5 ≤ hours.length) (hfew : (dayHours hours).card < 5) :
    fit hours lms period1 period2 = none := by
  classical
  by_contra hsome
  obtain ⟨fp, h⟩ := Option.ne_none_iff_exists'.1 hsome
  obtain ⟨x, b1, c1, b2, c2, hx, hsolve, -⟩ := fit_some h
  have h24 : (value (period1 : D) : ℝ) = 24 := (value_ofNat 24).trans (Nat.cast_ofNat)
  have h12 : (value (period2 : D) : ℝ) = 12 := (value_ofNat 12).trans (Nat.cast_ofNat)
  have ht1 : (value (period1 : D) : ℝ) ≠ 0 := by rw [h24]; norm_num
  have ht2 : (value (period2 : D) : ℝ) ≠ 0 := by rw [h12]; norm_num
  obtain ⟨x', hx', hm, hrows, hsystem⟩ := designRows_spec ht1 ht2 hours
  obtain rfl : x' = x := Option.some.inj (hx'.symm.trans hx)
  rw [h24, h12] at hsystem
  have hne : x' ≠ [] := by
    rintro rfl
    rw [List.length_nil] at hm
    omega
  -- some combination of the functions vanishes at all the hours
  obtain ⟨v, ⟨j, hj, hvj⟩, hvanish⟩ := LeastSquares.exists_vanishing 5
    ((dayHours hours).image (basis 24 12)) (lt_of_le_of_lt card_image_le hfew)
  have hzero : ∀ i < x'.length, LeastSquares.combine 5 v (system x' i) = 0 := by
    intro i hi
    have hhour : 24 * Int.fract ((vector hours i : ℝ) / 24) ∈ dayHours hours := by
      rw [dayHours, List.mem_toFinset]
      refine List.mem_map.2 ⟨hours.getD i (Arith.ofNat 0), ?_, rfl⟩
      rw [List.getD_eq_getElem?_getD, List.getElem?_eq_getElem (hm ▸ hi)]
      exact List.getElem_mem _
    have hrow := hvanish _ (mem_image_of_mem _ hhour)
    rw [basis_fract, LeastSquares.combine] at hrow
    rw [LeastSquares.combine, ← hrow]
    exact sum_congr rfl fun k hk => by rw [hsystem i (hm ▸ hi) k (mem_range.1 hk)]
  have hlength : (matvec (transpose x') lms).length = 5 := by
    rw [matvec, List.length_map, (transpose_spec hne hrows (Arith.ofNat 0)).1]
  exact hvj (solve_singular hne hrows hlength hsolve v hzero j hj)

end Few

section Pass

variable {D : Type} [Python D] [ExactMath D]

/-- The hours of a meter's samples. -/
def sampleHours (window : Window) (imei : Str) (db : Db D) : List D :=
  (samplesForFit window imei db).map fun r => hourOf r.1

theorem fitMeter_few {window : Window} {imei : Str} {db : Db D}
    (hfew : (dayHours (sampleHours window imei db)).card < 5) : fitMeter window imei db = none := by
  rw [fitMeter]
  split_ifs with hmin
  · rfl
  · refine fit_few ?_ hfew
    rw [List.length_map]
    unfold Config.fitMinSamples at hmin
    omega

/-- Samples at fewer than five hours of the day have no fit, and a pass that comes to such a meter
    changes neither the tables nor what the broker holds, and goes on to the next meter. -/
theorem few_hours_skipped [Server D] :
    (∀ hours lms : List D, 5 ≤ hours.length → (dayHours hours).card < 5 →
      fit hours lms period1 period2 = none) ∧
    ∀ (w : World D) (i now : Nat) (outcome : Outcome) (p : Pass D) (imei : Str) (rest : List Str),
      w.passes[i]? = some p → p.todo = imei :: rest → p.stage = .reading →
      (dayHours (sampleHours p.window imei w.db)).card < 5 →
      let w' := w.step (.advance i now outcome)
      w'.db = w.db ∧ w'.retained = w.retained ∧ w'.accepted = w.accepted ∧
        w'.passes = w.passes.set i { p with todo := rest, stage := .reading } := by
  refine ⟨fun hours lms hfive hfew => fit_few hfive hfew, ?_⟩
  intro w i now outcome p imei rest hpass htodo hstage hfew w'
  have hw' : w' = w.setPass i p.next := by
    show World.step w (.advance i now outcome) = _
    simp only [World.step, hpass, World.advance, htodo, hstage, fitMeter_few hfew]
  rw [hw']
  refine ⟨rfl, rfl, rfl, ?_⟩
  show w.passes.set i p.next = _
  rw [Pass.next, htodo]
  rfl

end Pass

/-! ### A meter that reports once a day -/

/-- Real numbers, in the place of Python's floats. -/
structure Ideal where
  real : ℝ

section Ideal

open Classical

noncomputable instance : JsonFloat Ideal where
  ofDecimal neg m k := ⟨(Text.scaled neg m k : ℚ)⟩
  nan := ⟨0⟩
  infinity _ := ⟨0⟩

noncomputable instance : Python Ideal where
  add x y := ⟨x.real + y.real⟩
  sub x y := ⟨x.real - y.real⟩
  mul x y := ⟨x.real * y.real⟩
  div x y := ⟨x.real / y.real⟩
  abs x := ⟨|x.real|⟩
  lt x y := x.real < y.real
  isZero x := x.real = 0
  isFinite _ := true
  isNan _ := false
  signBit x := x.real < 0
  value x := ⌊x.real * (10 ^ 20 : ℕ)⌋ / (10 ^ 20 : ℕ)
  sin x := some ⟨Real.sin x.real⟩
  cos x := some ⟨Real.cos x.real⟩
  hypot x y := ⟨Real.sqrt (x.real ^ 2 + y.real ^ 2)⟩
  atan2 y x := ⟨Complex.arg ⟨x.real, y.real⟩⟩
  pi := ⟨Real.pi⟩
  ofInt n := some ⟨n⟩
  decimal _ := none
  ofText _ := none
  intOfText _ := none
  trunc x := some ⌊x.real⌋
  str _ := []

noncomputable instance : Server Ideal where
  rint x := some (round x.real)
  int4in _ := none

theorem ideal_ofNat (n : ℕ) : ((Text.scaled false n 0 : ℚ) : ℝ) = n := by
  simp [Text.scaled]

theorem ideal_tiny : ((Text.scaled false 1 (-12) : ℚ) : ℝ) = 1 / 10 ^ 12 := by
  norm_num [Text.scaled]

noncomputable instance : ExactMath Ideal where
  value x := x.real
  value_ofNat := ideal_ofNat
  value_tiny := ideal_tiny
  value_add _ _ := rfl
  value_sub _ _ := rfl
  value_mul _ _ := rfl
  value_div _ _ _ := rfl
  value_abs _ := rfl
  lt_iff _ _ := decide_eq_true_iff
  isZero_iff _ := decide_eq_true_iff
  sin_eq x := ⟨⟨Real.sin x.real⟩, rfl, rfl⟩
  cos_eq x := ⟨⟨Real.cos x.real⟩, rfl, rfl⟩
  value_hypot _ _ := rfl
  value_atan2 _ _ := rfl
  value_pi := rfl

end Ideal

theorem dayHours_card_le_one {D : Type} [PyMath D] [ExactMath D] {hours : List D} {c : D}
    (h : ∀ x ∈ hours, x = c) : (dayHours hours).card ≤ 1 := by
  refine Finset.card_le_one.2 fun a ha b hb => ?_
  obtain ⟨x, hx, rfl⟩ := List.mem_map.1 (List.mem_toFinset.1 ha)
  obtain ⟨y, hy, rfl⟩ := List.mem_map.1 (List.mem_toFinset.1 hb)
  rw [h x hx, h y hy]

theorem first_hour : 0 < 24 := by decide

/-- A reading at midnight. -/
def midnightReading : Reading Ideal where
  imei := "1".toList
  ts := hourly ⟨0, first_hour⟩
  ingestedAt := 0
  lm := some ⟨1⟩
  mls := none
  tlMl := none
  valve := none
  wm := none
  wmCloud := none
  lk := 0
  oc := 0
  raw := []

/-- A pass comes to a meter of which there are 24 such readings. -/
def midnights : World Ideal where
  db := ⟨AList.insert "1".toList ⟨0, 0, none, none, false⟩ ∅,
    List.replicate 24 midnightReading, [], []⟩
  retained := fun _ => none
  accepted := []
  passes := [⟨.worker, always, ["1".toList], .reading⟩]

theorem few_hours_skipped_midnight :
    fit (List.replicate 5 (⟨0⟩ : Ideal)) (List.replicate 5 ⟨1⟩) period1 period2 = none ∧
      (midnights.step (.advance 0 1 .accepted)).passes = [⟨.worker, always, [], .reading⟩] := by
  have hhours : ∀ h ∈ sampleHours always "1".toList midnights.db,
      h = hourOf (hourly ⟨0, first_hour⟩) := by
    intro h hh
    obtain ⟨row, hrow, rfl⟩ := List.mem_map.1 hh
    obtain ⟨r, hr, hlm⟩ := List.mem_filterMap.1 ((List.mem_insertionSort _).1 hrow)
    have hread : r = midnightReading :=
      List.eq_of_mem_replicate (List.mem_reverse.1 (List.mem_filter.1 hr).1)
    subst hread
    cases hlm
    rfl
  have hsame : ∀ h ∈ List.replicate 5 (⟨0⟩ : Ideal), h = ⟨0⟩ :=
    fun h hh => List.eq_of_mem_replicate hh
  have hcard {hours : List Ideal} {c : Ideal} (h : ∀ x ∈ hours, x = c) :
      (dayHours hours).card < 5 :=
    lt_of_le_of_lt (dayHours_card_le_one h) (by decide)
  exact ⟨few_hours_skipped.1 _ _ (by decide) (hcard hsame),
    (few_hours_skipped.2 midnights 0 1 .accepted _ _ _ rfl rfl rfl (hcard hhours)).2.2.2⟩

end Cloud

end Waterbox
