import Mathlib.Analysis.SpecialFunctions.Complex.Arg
import Waterbox.Cloud.Fingerprint
import Waterbox.Firmware.Evaluation

namespace Waterbox

/-!
# The curve of a fingerprint, and its three evaluators

The portal draws `W(t) = w + a1·sin(2πt/t1 + p1) + a2·sin(2πt/t2 + p2)`, the worker predicts with
it, and the meter compares with it.  In the arithmetic of the real numbers:

* `wave` — a term of the model; `model` — the sum of two, cut off at zero.
* `meter_value`, `worker_value`, `portal_value` — what each evaluator computes of a row.  They treat
  a period of zero alike, and a negative one each in its own way.
* `evaluators_agree` — where that makes no difference.
-/

/-! ### `fingerprintCurve` -/

namespace Portal

/-- The numbers of JavaScript. -/
class JsNumber (N : Type) where
  ofRat : ℚ → N
  add : N → N → N
  mul : N → N → N
  div : N → N → N
  max : N → N → N
  /-- Whether `x || y` is `y`. -/
  falsy : N → Bool
  sin : N → N
  pi : N

/-- A row of `fingerprints` as the query returns it. -/
structure FingerprintRow (N : Type) where
  w : N
  a1 : N
  p1 : N
  t1 : N
  a2 : N
  p2 : N
  t2 : N

/-- A point of the chart. -/
structure CurvePoint (N : Type) where
  hour : N
  lm : N

variable {N : Type} [JsNumber N]

open JsNumber

/-- The hours of the loop, which are exact. -/
def curveHours : List ℚ := (List.range 49).map fun i : ℕ => (i : ℚ) / 2

/-- `a * Math.sin((2 * Math.PI * h) / t + p)`. -/
def curveTerm (a p t h : N) : N := mul a (sin (add (div (mul (mul (ofRat 2) pi) h) t) p))

/-- The point at an hour. -/
def curvePoint (row : FingerprintRow N) (h : N) : CurvePoint N :=
  let t1 := if falsy row.t1 then ofRat 24 else row.t1
  let t2 := if falsy row.t2 then ofRat 12 else row.t2
  let w := add row.w (curveTerm row.a1 row.p1 t1 h)
  let w := add w (curveTerm row.a2 row.p2 t2 h)
  ⟨h, max (ofRat 0) w⟩

/-- The chart of a day, every half hour. -/
def fingerprintCurve (row : FingerprintRow N) : List (CurvePoint N) :=
  curveHours.map fun h => curvePoint row (ofRat h)

end Portal

/-! ### Real numbers -/

section Reals

open Classical

/-- Real numbers, which the device stores in single precision and prints to two decimals. -/
noncomputable instance : CFloat ℝ where
  ofRat q := q
  add x y := x + y
  mul x y := x * y
  div x y := x / y
  lt x y := x < y
  le x y := x ≤ y
  beq x y := x = y
  sinf := Real.sin
  pi := Real.pi
  dtostrf x :=
    let text := Text.fixed 2 ⌊|x| * (100 : ℕ) + 1 / 2⌋.toNat
    if x < 0 then '-' :: text else text
  atof t := (Text.strtod t : ℚ)
  bits x := (Single.ofValue (⌊x * 2 ^ 149⌋ / 2 ^ 149)).bits
  ofBits w := (Single.value ⟨w⟩ : ℚ)

noncomputable instance : ExactFloat ℝ where
  value x := x
  value_ofRat _ := rfl
  value_add _ _ := rfl
  lt_iff _ _ := decide_eq_true_iff
  le_iff _ _ := decide_eq_true_iff

noncomputable instance : Cloud.PyMath ℝ where
  ofNat n := n
  tiny := 1 / 10 ^ 12
  add x y := x + y
  sub x y := x - y
  mul x y := x * y
  div x y := x / y
  abs x := |x|
  lt x y := x < y
  isZero x := x = 0
  sin x := some (Real.sin x)
  cos x := some (Real.cos x)
  hypot x y := Real.sqrt (x ^ 2 + y ^ 2)
  atan2 y x := Complex.arg ⟨x, y⟩
  pi := Real.pi

noncomputable instance : Portal.JsNumber ℝ where
  ofRat q := q
  add x y := x + y
  mul x y := x * y
  div x y := x / y
  max x y := max x y
  falsy x := x = 0
  sin := Real.sin
  pi := Real.pi

/-- What the comparisons of the device say of real numbers. -/
theorem cfloat_zero_lt (t : ℝ) : CFloat.lt (CFloat.ofRat 0) t = true ↔ 0 < t := by
  rw [ExactFloat.lt_iff, ExactFloat.value_ofRat, Rat.cast_zero]
  rfl

theorem cfloat_lt_zero (t : ℝ) : CFloat.lt t (CFloat.ofRat 0) = true ↔ t < 0 := by
  rw [ExactFloat.lt_iff, ExactFloat.value_ofRat, Rat.cast_zero]
  rfl

theorem cfloat_le_zero (t : ℝ) : CFloat.le t (CFloat.ofRat 0) = true ↔ t ≤ 0 := by
  rw [ExactFloat.le_iff, ExactFloat.value_ofRat, Rat.cast_zero]
  rfl

theorem cfloat_beq_zero (a : ℝ) : CFloat.beq a (CFloat.ofRat 0) = true ↔ a = 0 := by
  show decide (a = ((0 : ℚ) : ℝ)) = true ↔ a = 0
  rw [Rat.cast_zero, decide_eq_true_iff]

/-- Those of the worker. -/
theorem arith_zero_lt (t : ℝ) : Cloud.Arith.lt (Cloud.Arith.ofNat 0) t = true ↔ 0 < t := by
  show decide (((0 : ℕ) : ℝ) < t) = true ↔ 0 < t
  rw [Nat.cast_zero, decide_eq_true_iff]

theorem arith_isZero (x : ℝ) : Cloud.Arith.isZero x = true ↔ x = 0 := decide_eq_true_iff

/-- And those of the portal. -/
theorem js_falsy (x : ℝ) : Portal.JsNumber.falsy x = true ↔ x = 0 := decide_eq_true_iff

end Reals

/-! ### The model -/

/-- A term of the model. -/
noncomputable def wave (a p t h : ℝ) : ℝ := a * Real.sin (2 * Real.pi * h / t + p)

/-- The mean use and two terms, cut off at zero. -/
noncomputable def model (w x y : ℝ) : ℝ := max 0 (w + x + y)

/-- Without amplitude the period does not matter. -/
theorem wave_zero (p t h : ℝ) : wave 0 p t h = 0 := zero_mul _

section Meter

open ConsumptionSignature

/-- The meter adds a term of the wave. -/
theorem addTerm_real {t : ℝ} (ht : 0 < t) (w a p h : ℝ) : addTerm w a p t h = w + wave a p t h := by
  unfold addTerm
  rw [(cfloat_zero_lt t).2 ht, Bool.true_and]
  by_cases ha : a = 0
  · -- the term is left out
    rw [(cfloat_beq_zero a).2 ha, ha, wave_zero, add_zero]
    rfl
  · rw [Bool.eq_false_iff.2 fun h => ha ((cfloat_beq_zero a).1 h)]
    show w + a * Real.sin ((((2 : ℚ) : ℝ) * Real.pi * h) / t + p) = _
    rw [Rat.cast_ofNat]
    rfl

/-- The meter takes the usual period for one that is not positive. -/
theorem meter_value (w a1 p1 t1 a2 p2 t2 h : ℝ) :
    (setParams (⟨w, a1, p1, t1, a2, p2, t2⟩ : Params ℝ)).predict h =
      model w (wave a1 p1 (if t1 ≤ 0 then 24 else t1) h)
        (wave a2 p2 (if t2 ≤ 0 then 12 else t2) h) := by
  have hperiod : ∀ (t : ℝ) (d : ℚ), (if CFloat.le t (CFloat.ofRat 0) then CFloat.ofRat d else t) =
      if t ≤ 0 then (d : ℝ) else t := by
    intro t d
    by_cases ht : t ≤ 0
    · rw [if_pos ht, if_pos ((cfloat_le_zero t).2 ht)]
      rfl
    · rw [if_neg ht, if_neg fun h => ht ((cfloat_le_zero t).1 h)]
  -- a period that is substituted is positive, so `addTerm` does not leave the wave out
  have hpos : ∀ (t : ℝ) (d : ℚ), 0 < d → 0 < if t ≤ 0 then (d : ℝ) else t := by
    intro t d hd
    by_cases ht : t ≤ 0
    · rw [if_pos ht]
      exact Rat.cast_pos.2 hd
    · rw [if_neg ht]
      exact not_le.1 ht
  have hcut : ∀ x : ℝ, (if CFloat.lt x (CFloat.ofRat 0) then CFloat.ofRat 0 else x) = max 0 x := by
    intro x
    by_cases hx : x < 0
    · rw [if_pos ((cfloat_lt_zero x).2 hx), max_eq_left hx.le]
      exact Rat.cast_zero
    · rw [if_neg fun h => hx ((cfloat_lt_zero x).1 h), max_eq_right (not_lt.1 hx)]
  unfold predict setParams
  dsimp only
  rw [hperiod, hperiod, addTerm_real (hpos _ _ (by decide +kernel)),
    addTerm_real (hpos _ _ (by decide +kernel))]
  simp only [Settings.sigT1H, Settings.sigT2H, Rat.cast_ofNat]
  exact hcut _

end Meter

section Worker

open Cloud

/-- So does the worker, for a positive period. -/
theorem addWave_real {t : ℝ} (ht : 0 < t) (w a p h : ℝ) :
    addWave h a p t w = some (w + wave a p t h) := by
  unfold addWave
  rw [(arith_zero_lt t).2 ht, Bool.true_and]
  by_cases ha : a = 0
  · -- the term is left out
    rw [(arith_isZero a).2 ha, ha, wave_zero, add_zero]
    rfl
  · rw [Bool.eq_false_iff.2 fun h => ha ((arith_isZero a).1 h)]
    show some (w + a * Real.sin ((((2 : ℕ) : ℝ) * Real.pi * h) / t + p)) = _
    rw [Nat.cast_ofNat]
    rfl

/-- A term with a negative period the worker leaves out. -/
theorem addWave_skipped {t : ℝ} (ht : t < 0) (w a p h : ℝ) : addWave h a p t w = some w := by
  unfold addWave
  rw [Bool.eq_false_iff.2 fun h => not_lt.2 ht.le ((arith_zero_lt t).1 h)]
  rfl

theorem orElse_zero (x : ℝ) : orElse x (Arith.ofNat 0) = x := by
  unfold orElse
  by_cases hx : x = 0
  · rw [if_pos ((arith_isZero x).2 hx), hx]
    exact Nat.cast_zero
  · rw [if_neg fun h => hx ((arith_isZero x).1 h)]

/-- `or` replaces a period of zero alone. -/
theorem orElse_period (t : ℝ) (d : ℕ) :
    orElse t (Arith.ofNat d) = if t = 0 then (d : ℝ) else t := by
  unfold orElse
  by_cases ht : t = 0
  · rw [if_pos ((arith_isZero t).2 ht), if_pos ht]
    rfl
  · rw [if_neg fun h => ht ((arith_isZero t).1 h), if_neg ht]

/-- The worker's term: the usual period for zero, and nothing for a negative one. -/
theorem addWave_row (w a p t h : ℝ) {d : ℕ} (hd : 0 < d) :
    addWave h (orElse a (Arith.ofNat 0)) (orElse p (Arith.ofNat 0)) (orElse t (Arith.ofNat d)) w =
      some (w + if t < 0 then 0 else wave a p (if t = 0 then (d : ℝ) else t) h) := by
  rw [orElse_zero, orElse_zero, orElse_period]
  by_cases hneg : t < 0
  · rw [if_pos hneg, if_neg hneg.ne, addWave_skipped hneg, add_zero]
  · rw [if_neg hneg, addWave_real]
    by_cases ht : t = 0
    · rw [if_pos ht]
      exact Nat.cast_pos.2 hd
    · rw [if_neg ht]
      exact lt_of_le_of_ne (not_lt.1 hneg) (Ne.symm ht)

/-- The worker leaves a term with a negative period out. -/
theorem worker_value (w a1 p1 t1 a2 p2 t2 h : ℝ) (n : Option Int) :
    predict ⟨w, a1, p1, t1, a2, p2, t2, n⟩ h =
      some (model w (if t1 < 0 then 0 else wave a1 p1 (if t1 = 0 then 24 else t1) h)
        (if t2 < 0 then 0 else wave a2 p2 (if t2 = 0 then 12 else t2) h)) := by
  have hcut : ∀ x : ℝ, (if Arith.lt (Arith.ofNat 0) x then x else Arith.ofNat 0) = max 0 x := by
    intro x
    by_cases hx : 0 < x
    · rw [if_pos ((arith_zero_lt x).2 hx), max_eq_right hx.le]
    · rw [if_neg fun h => hx ((arith_zero_lt x).1 h), max_eq_left (not_lt.1 hx)]
      exact Nat.cast_zero
  unfold predict period1 period2
  simp only [addWave_row _ a1 p1 t1 h (by norm_num : 0 < 24),
    addWave_row _ a2 p2 t2 h (by norm_num : 0 < 12), Option.bind_eq_bind, Option.bind_some,
    Nat.cast_ofNat, hcut]
  rfl

end Worker

section Portal

open Portal

/-- The portal adds it whatever the sign of the period. -/
theorem curveTerm_real (a p t h : ℝ) : curveTerm a p t h = wave a p t h := by
  show a * Real.sin ((((2 : ℚ) : ℝ) * Real.pi * h) / t + p) = _
  rw [Rat.cast_ofNat]
  rfl

/-- The portal takes a negative period as it is. -/
theorem portal_value (w a1 p1 t1 a2 p2 t2 h : ℝ) :
    curvePoint ⟨w, a1, p1, t1, a2, p2, t2⟩ h =
      ⟨h, model w (wave a1 p1 (if t1 = 0 then 24 else t1) h)
        (wave a2 p2 (if t2 = 0 then 12 else t2) h)⟩ := by
  have hperiod : ∀ (t : ℝ) (d : ℚ), (if JsNumber.falsy t then JsNumber.ofRat d else t) =
      if t = 0 then (d : ℝ) else t := by
    intro t d
    by_cases ht : t = 0
    · rw [if_pos ht, if_pos ((js_falsy t).2 ht)]
      rfl
    · rw [if_neg ht, if_neg fun h => ht ((js_falsy t).1 h)]
  unfold curvePoint
  dsimp only
  rw [hperiod, hperiod, curveTerm_real, curveTerm_real, Rat.cast_ofNat, Rat.cast_ofNat]
  show (⟨h, max ((0 : ℚ) : ℝ) _⟩ : CurvePoint ℝ) = _
  rw [Rat.cast_zero]
  rfl

end Portal

/-! ### Agreement -/

/-- A term is the same for all three evaluators where its period is not negative or its amplitude is
    zero. -/
theorem wave_agree {a t : ℝ} (ht : 0 ≤ t ∨ a = 0) (p h d : ℝ) :
    (if t < 0 then 0 else wave a p (if t = 0 then d else t) h) =
        wave a p (if t ≤ 0 then d else t) h ∧
      wave a p (if t = 0 then d else t) h = wave a p (if t ≤ 0 then d else t) h := by
  rcases ht with ht | ha
  · have hzero : t ≤ 0 ↔ t = 0 := ⟨fun h => le_antisymm h ht, le_of_eq⟩
    rw [if_neg (not_lt.2 ht)]
    simp only [hzero, and_self]
  · subst ha
    simp only [wave_zero, ite_self, and_self]

/-- What the three evaluators compute of any row, at any hour; and where each period is not
    negative, or the amplitude of its term is zero, this is the same value. -/
theorem evaluators_agree (row : Portal.FingerprintRow ℝ) (n : Option Int) :
    let meter (h : ℝ) : ℝ :=
      (ConsumptionSignature.setParams
        (⟨row.w, row.a1, row.p1, row.t1, row.a2, row.p2, row.t2⟩ : Params ℝ)).predict h
    let worker (h : ℝ) : Option ℝ :=
      Cloud.predict ⟨row.w, row.a1, row.p1, row.t1, row.a2, row.p2, row.t2, n⟩ h
    let curve : List (Portal.CurvePoint ℝ) := Portal.fingerprintCurve row
    (∀ h, meter h = model row.w (wave row.a1 row.p1 (if row.t1 ≤ 0 then 24 else row.t1) h)
      (wave row.a2 row.p2 (if row.t2 ≤ 0 then 12 else row.t2) h)) ∧
    (∀ h, worker h = some (model row.w
      (if row.t1 < 0 then 0 else wave row.a1 row.p1 (if row.t1 = 0 then 24 else row.t1) h)
      (if row.t2 < 0 then 0 else wave row.a2 row.p2 (if row.t2 = 0 then 12 else row.t2) h))) ∧
    (∀ point ∈ curve, point.lm =
      model row.w (wave row.a1 row.p1 (if row.t1 = 0 then 24 else row.t1) point.hour)
        (wave row.a2 row.p2 (if row.t2 = 0 then 12 else row.t2) point.hour)) ∧
    ((0 ≤ row.t1 ∨ row.a1 = 0) → (0 ≤ row.t2 ∨ row.a2 = 0) →
      (∀ h, worker h = some (meter h)) ∧ ∀ point ∈ curve, point.lm = meter point.hour) ∧
    curve.map (·.hour) = (List.range 49).map fun i : ℕ => (i : ℝ) / 2 := by
  obtain ⟨w, a1, p1, t1, a2, p2, t2⟩ := row
  intro meter worker curve
  have hcurve : ∀ point ∈ curve, point.lm =
      model w (wave a1 p1 (if t1 = 0 then 24 else t1) point.hour)
        (wave a2 p2 (if t2 = 0 then 12 else t2) point.hour) := by
    intro point hpoint
    obtain ⟨h, -, rfl⟩ := List.mem_map.1 hpoint
    rw [portal_value]
  refine ⟨fun h => meter_value _ _ _ _ _ _ _ h, fun h => worker_value _ _ _ _ _ _ _ h n,
    hcurve, ?_, ?_⟩
  · intro h1 h2
    -- with periods that are not negative, or without the waves, all three substitute alike
    refine ⟨fun h => ?_, fun point hpoint => ?_⟩
    · show Cloud.predict _ h = some (ConsumptionSignature.predict _ h)
      rw [worker_value, meter_value, (wave_agree h1 p1 h 24).1, (wave_agree h2 p2 h 12).1]
    · show point.lm = ConsumptionSignature.predict _ point.hour
      rw [hcurve point hpoint, meter_value, (wave_agree h1 p1 _ 24).2, (wave_agree h2 p2 _ 12).2]
  · show ((Portal.curveHours.map _).map _) = _
    rw [List.map_map, Portal.curveHours, List.map_map]
    refine List.map_congr_left fun i _ => ?_
    show (((i : ℚ) / 2 : ℚ) : ℝ) = (i : ℝ) / 2
    push_cast
    rfl

/-- With a period of -24 hours the evaluators differ: at six the meter computes 2, the worker 1, and
    the portal 0. -/
theorem evaluators_differ :
    (ConsumptionSignature.setParams (⟨1, 1, 0, -24, 0, 0, 12⟩ : Params ℝ)).predict 6 = 2 ∧
    Cloud.predict (⟨1, 1, 0, -24, 0, 0, 12, none⟩ : Cloud.FitParams ℝ) 6 = some 1 ∧
    (⟨6, 0⟩ : Portal.CurvePoint ℝ) ∈ Portal.fingerprintCurve ⟨1, 1, 0, -24, 0, 0, 12⟩ := by
  have hup : wave 1 0 24 6 = 1 := by
    have harg : 2 * Real.pi * 6 / 24 + 0 = Real.pi / 2 := by ring
    rw [wave, harg, Real.sin_pi_div_two, mul_one]
  have hdown : wave 1 0 (-24) 6 = -1 := by
    have harg : 2 * Real.pi * 6 / (-24) + 0 = -(Real.pi / 2) := by ring
    rw [wave, harg, Real.sin_neg, Real.sin_pi_div_two, one_mul]
  refine ⟨?_, ?_, ?_⟩
  · rw [meter_value, if_pos (by norm_num), hup, wave_zero]
    norm_num [model]
  · rw [worker_value, if_pos (by norm_num), wave_zero, ite_self]
    norm_num [model]
  · refine List.mem_map.2 ⟨6, by decide +kernel, ?_⟩
    show Portal.curvePoint _ ((6 : ℚ) : ℝ) = _
    rw [portal_value, Rat.cast_ofNat, if_neg (by norm_num), hdown, wave_zero]
    norm_num [model]

end Waterbox
