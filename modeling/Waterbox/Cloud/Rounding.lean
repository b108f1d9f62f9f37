import Mathlib.Analysis.SpecialFunctions.Trigonometric.Bounds
import Waterbox.Cloud.Delivery
import Waterbox.Portal.Curve

namespace Waterbox

/-!
# How far the meter's model is from the worker's

A fingerprint reaches the meter with coefficients rounded to four decimals and periods to six
digits.  In the arithmetic of the real numbers:

* `wave_sub_le` — what a change of its coefficients changes a term by.
* `inv_roundSig_le` — what six digits leave of a period.
* `delivered_model_close` — the value the meter compares the flow with, and the worker's prediction.
-/

/-! ### A model whose coefficients change -/

/-- A term whose coefficients change. -/
theorem wave_sub_le (a p t a' p' t' h : ℝ) :
    |wave a' p' t' h - wave a p t h| ≤
      |a' - a| + |a| * (|p' - p| + 2 * Real.pi * |h| * |1 / t' - 1 / t|) := by
  let x := 2 * Real.pi * h / t + p
  let x' := 2 * Real.pi * h / t' + p'
  have hsplit : wave a' p' t' h - wave a p t h =
      (a' - a) * Real.sin x' + a * (Real.sin x' - Real.sin x) := by
    show a' * Real.sin x' - a * Real.sin x = _
    ring
  have hangle : |x' - x| ≤ |p' - p| + 2 * Real.pi * |h| * |1 / t' - 1 / t| := by
    have hsum : x' - x = (p' - p) + 2 * Real.pi * h * (1 / t' - 1 / t) := by
      simp only [x, x']
      ring
    have hpi : |2 * Real.pi * h| = 2 * Real.pi * |h| := by
      rw [abs_mul, abs_of_pos Real.two_pi_pos]
    rw [hsum, ← hpi, ← abs_mul]
    exact abs_add_le _ _
  rw [hsplit]
  calc |(a' - a) * Real.sin x' + a * (Real.sin x' - Real.sin x)|
      ≤ |(a' - a) * Real.sin x'| + |a * (Real.sin x' - Real.sin x)| := abs_add_le _ _
    _ = |a' - a| * |Real.sin x'| + |a| * |Real.sin x' - Real.sin x| := by rw [abs_mul, abs_mul]
    _ ≤ |a' - a| * 1 + |a| * |x' - x| :=
        add_le_add (mul_le_mul_of_nonneg_left (Real.abs_sin_le_one _) (abs_nonneg _))
          (mul_le_mul_of_nonneg_left (Real.abs_sin_sub_sin_le _ _) (abs_nonneg _))
    _ ≤ _ := by
        rw [mul_one]
        exact add_le_add_right (mul_le_mul_of_nonneg_left hangle (abs_nonneg _)) _

/-- The cut at zero brings two values no further apart. -/
theorem model_sub_le (w x y w' x' y' : ℝ) :
    |model w' x' y' - model w x y| ≤ |w' - w| + |x' - x| + |y' - y| := by
  rw [model, model, max_comm, max_comm 0]
  calc |max (w' + x' + y') 0 - max (w + x + y) 0|
      ≤ |w' + x' + y' - (w + x + y)| := abs_max_sub_max_le_abs _ _ _
    _ = |w' - w + (x' - x) + (y' - y)| := by congr 1; ring
    _ ≤ |w' - w + (x' - x)| + |y' - y| := abs_add_le _ _
    _ ≤ _ := add_le_add_left (abs_add_le _ _) _

/-! ### What the text keeps -/

namespace Text

/-- Six digits keep a positive number up to five millionths of it. -/
theorem abs_roundSig_sub_le {q : ℚ} (hq : 0 < q) : |roundSig q - q| ≤ 5 / 10 ^ 6 * q := by
  have hlog : (10 : ℚ) ^ Int.log 10 |q| ≤ q := by
    have := Int.zpow_log_le_self (b := 10) (by decide) (abs_pos.2 hq.ne')
    rwa [abs_of_pos hq] at this ⊢
  calc |roundSig q - q| ≤ 1 / 2 * 10 ^ (Int.log 10 |q| - 5) := (roundSig_spec hq.ne').2
    _ = 5 / 10 ^ 6 * 10 ^ Int.log 10 |q| := by
        rw [zpow_sub₀ (by norm_num)]
        norm_num
        ring
    _ ≤ 5 / 10 ^ 6 * q := mul_le_mul_of_nonneg_left hlog (by norm_num)

theorem roundSig_pos {q : ℚ} (hq : 0 < q) : 0 < roundSig q := by
  have h := abs_le.1 (abs_roundSig_sub_le hq)
  linarith [h.1]

/-- The frequency of a period that is read back. -/
theorem inv_roundSig_le {q : ℚ} (hq : 0 < q) :
    |1 / (roundSig q : ℝ) - 1 / q| ≤ 6 / 10 ^ 6 * (1 / q) := by
  have hround := abs_roundSig_sub_le hq
  have hpos := roundSig_pos hq
  have hbound : |1 / roundSig q - 1 / q| ≤ 6 / 10 ^ 6 * (1 / q) := by
    have hlow := (abs_le.1 hround).1
    have hdiff : 1 / roundSig q - 1 / q = (q - roundSig q) / (roundSig q * q) := by
      rw [div_sub_div _ _ hpos.ne' hq.ne']
      ring
    rw [hdiff, abs_div, abs_sub_comm, abs_of_pos (mul_pos hpos hq), div_le_iff₀ (mul_pos hpos hq)]
    have hone : 6 / 10 ^ 6 * (1 / q) * (roundSig q * q) = 6 / 10 ^ 6 * roundSig q := by
      field_simp
    rw [hone]
    linarith
  have hcast := (Rat.cast_le (K := ℝ)).2 hbound
  push_cast at hcast
  exact hcast

end Text

namespace Cloud

open Text ConsumptionSignature

instance : LawfulAtof ℝ := lawfulAtof_of_strtod fun _ => rfl

variable {D : Type} [Python D]

/-- The row of a fingerprint, in real numbers. -/
noncomputable def realRow (fp : FitParams D) : FitParams ℝ where
  w := (Python.value fp.w : ℚ)
  a1 := (Python.value fp.a1 : ℚ)
  p1 := (Python.value fp.p1 : ℚ)
  t1 := (Python.value fp.t1 : ℚ)
  a2 := (Python.value fp.a2 : ℚ)
  p2 := (Python.value fp.p2 : ℚ)
  t2 := (Python.value fp.t2 : ℚ)
  nSamples := fp.nSamples

/-- How far the two values may be apart at an hour. -/
noncomputable def drift (row : FitParams ℝ) (h : ℝ) : ℝ :=
  (1 + (1 + |row.a1|) + (1 + |row.a2|)) / 20000 +
    (12 : ℕ) * Real.pi * |h| / 1000000 * (|row.a1| / row.t1 + |row.a2| / row.t2)

/-- Four decimals keep a number up to half of the last one. -/
theorem abs_roundTo_four (q : ℚ) : |(roundTo 4 q : ℝ) - q| ≤ 1 / 20000 := by
  have h : |roundTo 4 q - q| ≤ 1 / 20000 := by
    have := abs_roundTo_sub_le 4 q
    norm_num at this ⊢
    exact this
  have hcast := (Rat.cast_le (K := ℝ)).2 h
  push_cast at hcast
  exact hcast

/-- A term with the coefficients that are read back. -/
theorem wave_read_back (a p : ℚ) {t : ℚ} (ht : 0 < t) (h : ℝ) :
    |wave (roundTo 4 a) (roundTo 4 p) (roundSig t) h - wave a p t h| ≤
      (1 + |(a : ℝ)|) / 20000 + 12 * Real.pi * |h| / 10 ^ 6 * (|(a : ℝ)| / t) := by
  have hwave := wave_sub_le a p t (roundTo 4 a) (roundTo 4 p) (roundSig t) h
  have hangle : |(roundTo 4 p : ℝ) - p| + 2 * Real.pi * |h| * |1 / (roundSig t : ℝ) - 1 / t| ≤
      1 / 20000 + 2 * Real.pi * |h| * (6 / 10 ^ 6 * (1 / t)) :=
    add_le_add (abs_roundTo_four p) (mul_le_mul_of_nonneg_left (inv_roundSig_le ht)
      (mul_nonneg Real.two_pi_pos.le (abs_nonneg h)))
  calc |wave (roundTo 4 a) (roundTo 4 p) (roundSig t) h - wave a p t h|
      ≤ 1 / 20000 + |(a : ℝ)| * (1 / 20000 + 2 * Real.pi * |h| * (6 / 10 ^ 6 * (1 / t))) :=
        hwave.trans (add_le_add (abs_roundTo_four a)
          (mul_le_mul_of_nonneg_left hangle (abs_nonneg _)))
    _ = _ := by ring

/-- The text a meter is sent makes it compare the flow with a model that is never further than
    `drift` from the worker's prediction. -/
theorem delivered_model_close [LawfulPython D] (fp : FitParams D)
    (hfinite : ∀ x ∈ fp.coefficients, Python.isFinite x = true)
    (hlen : (toMqttJson fp).length ≤ 179) (ht1 : 0 < Python.value fp.t1)
    (ht2 : 0 < Python.value fp.t2) :
    ∃ params : Params ℝ,
      (∀ (hs : GsmMqttClient.Handlers ℝ) (s : Sys ℝ), s.board.radio.topicFp ≠ [] →
        GsmMqttClient.onMessage hs s.board.radio.topicFp (toMqttJson fp) s =
          hs.fingerprint params s) ∧
      ∀ h : ℝ, ∃ y, predict (realRow fp) h = some y ∧
        |(setParams params).predict h - y| ≤ drift (realRow fp) h := by
  have hparse := parseFingerprint_toMqttJson (F := ℝ) hfinite
  rw [← copyMsg_toMqttJson hfinite hlen] at hparse
  refine ⟨received fp, fun hs s htopic => ?_, fun h => ?_⟩
  · simp only [GsmMqttClient.onMessage, Bind.bind, look, Cut.read, ne_eq, htopic,
      not_false_eq_true, true_and, if_true, hparse]
  have hpos : ∀ {q : ℚ}, 0 < q → (0 : ℝ) < q := fun hq => Rat.cast_pos.2 hq
  have hmeter : (setParams (received fp : Params ℝ)).predict h =
      model (roundTo 4 (Python.value fp.w))
        (wave (roundTo 4 (Python.value fp.a1)) (roundTo 4 (Python.value fp.p1))
          (roundSig (Python.value fp.t1)) h)
        (wave (roundTo 4 (Python.value fp.a2)) (roundTo 4 (Python.value fp.p2))
          (roundSig (Python.value fp.t2)) h) := by
    have hr1 : ¬ (received fp : Params ℝ).t1 ≤ 0 := not_le.2 (hpos (roundSig_pos ht1))
    have hr2 : ¬ (received fp : Params ℝ).t2 ≤ 0 := not_le.2 (hpos (roundSig_pos ht2))
    have hvalue := meter_value (received fp : Params ℝ).mean (received fp : Params ℝ).a1
      (received fp : Params ℝ).phi1 (received fp : Params ℝ).t1 (received fp : Params ℝ).a2
      (received fp : Params ℝ).phi2 (received fp : Params ℝ).t2 h
    rw [if_neg hr1, if_neg hr2] at hvalue
    exact hvalue
  have hworker : predict (realRow fp) h =
      some (model (Python.value fp.w : ℚ)
        (wave (Python.value fp.a1 : ℚ) (Python.value fp.p1 : ℚ) (Python.value fp.t1 : ℚ) h)
        (wave (Python.value fp.a2 : ℚ) (Python.value fp.p2 : ℚ) (Python.value fp.t2 : ℚ) h)) := by
    have hvalue := worker_value (Python.value fp.w : ℚ) (Python.value fp.a1 : ℚ)
      (Python.value fp.p1 : ℚ) (Python.value fp.t1 : ℚ) (Python.value fp.a2 : ℚ)
      (Python.value fp.p2 : ℚ) (Python.value fp.t2 : ℚ) h fp.nSamples
    rw [if_neg (not_lt.2 (hpos ht1).le), if_neg (hpos ht1).ne', if_neg (not_lt.2 (hpos ht2).le),
      if_neg (hpos ht2).ne'] at hvalue
    exact hvalue
  refine ⟨_, hworker, ?_⟩
  rw [hmeter]
  have hw := abs_roundTo_four (Python.value fp.w)
  have h1 := wave_read_back (Python.value fp.a1) (Python.value fp.p1) ht1 h
  have h2 := wave_read_back (Python.value fp.a2) (Python.value fp.p2) ht2 h
  calc _ ≤ _ := model_sub_le _ _ _ _ _ _
    _ ≤ _ := add_le_add (add_le_add hw h1) h2
    _ = drift (realRow fp) h := by
        simp only [drift, realRow, Nat.cast_ofNat]
        ring

theorem delivered_model_close_household :
    ∃ params : Params ℝ,
      (∀ (hs : GsmMqttClient.Handlers ℝ) (s : Sys ℝ), s.board.radio.topicFp ≠ [] →
        GsmMqttClient.onMessage hs s.board.radio.topicFp (toMqttJson household) s =
          hs.fingerprint params s) ∧
      ∀ h : ℝ, ∃ y, predict (realRow household) h = some y ∧
        |(setParams params).predict h - y| ≤ drift (realRow household) h :=
  delivered_model_close household (by decide) (by decide +kernel) (by decide +kernel)
    (by decide +kernel)

end Cloud

end Waterbox
