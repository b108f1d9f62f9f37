import Waterbox.Firmware.Arrivals
import Waterbox.Firmware.Evaluation

namespace Waterbox

/-!
# The text of the model flow

`publishTelemetry()` lets `dtostrf` write the model flow into ten bytes.  The flow comes from the
coefficients of a message, which nothing bounds.

* `DecimalText` — what `dtostrf` writes.
* `formula` — the flow of the coefficients before it is cut off at zero.
* `Narrow` — the flow has at most six digits before the point.
* `length_dtostrf_le_iff` — the text of one number.
* `model_text_fits_iff` — from the message to the text.
-/

open Cut CFloat Text

variable {F : Type}

/-- Numbers that `dtostrf` writes with their sign, all their integer digits, a point and two
    decimals, rounded half up.  What is no finite number is written as a word. -/
class DecimalText (F : Type) [CFloat F] where
  finite : F → Prop
  value : F → ℚ
  negative : F → Bool
  value_nonpos : ∀ x, negative x = true → value x ≤ 0
  finite_zero : finite (ofRat 0)
  value_zero : value (ofRat 0) = 0
  lt_zero_iff : ∀ x, finite x → (lt x (ofRat 0) = true ↔ value x < 0)
  dtostrf_finite : ∀ x, finite x →
    dtostrf x = signText (negative x) ++ fixed 2 ⌊|value x| * 100 + 1 / 2⌋₊
  dtostrf_word : ∀ x, ¬finite x → (dtostrf x).length ≤ 4

open DecimalText

section Text

variable [CFloat F] [DecimalText F]

theorem length_fixed_le_iff (n : Nat) : (fixed 2 n).length ≤ 9 ↔ n < 10 ^ 8 := by
  have hdecimals : (pad0 2 (udec (n % 10 ^ 2))).length = 2 :=
    length_pad0 (by decide) (Nat.mod_lt _ (by decide))
  have hdigits : (udec (n / 10 ^ 2)).length ≤ 6 ↔ n / 10 ^ 2 < 10 ^ 6 := length_udec_le (by decide)
  rw [fixed, List.length_append, List.length_cons, hdecimals]
  omega

/-- A number that is not negative fits nine characters if and only if it is below a million, as
    rounded. -/
theorem length_dtostrf_le_iff {x : F} (hfinite : finite x) (hpos : 0 ≤ value x) :
    (dtostrf x).length ≤ 9 ↔ value x < 999999995 / 1000 := by
  rw [dtostrf_finite x hfinite, abs_of_nonneg hpos, List.length_append]
  cases hneg : negative x with
  | true =>
    -- a zero with a sign
    have hzero : value x = 0 := le_antisymm (value_nonpos x hneg) hpos
    rw [hzero]
    exact iff_of_true (by decide +kernel) (by norm_num)
  | false =>
    have hsign : (signText false).length = 0 := rfl
    have hfloor : ⌊value x * 100 + 1 / 2⌋₊ < 10 ^ 8 ↔ value x * 100 + 1 / 2 < (10 ^ 8 : ℕ) :=
      Nat.floor_lt (by positivity)
    rw [hsign, Nat.zero_add, length_fixed_le_iff, hfloor]
    push_cast
    constructor
    · intro h
      linarith
    · intro h
      linarith

end Text

/-! ### The flow of a message -/

namespace ConsumptionSignature

variable [CFloat F]

/-- A period, or its default where it is not positive. -/
def period (t : F) (default : ℚ) : F := if le t (ofRat 0) then ofRat default else t

/-- `W(t)` of the coefficients of a message. -/
def formula (p : Params F) (hourOfDay : F) : F :=
  let w := addTerm p.mean p.a1 p.phi1 (period p.t1 Settings.sigT1H) hourOfDay
  addTerm w p.a2 p.phi2 (period p.t2 Settings.sigT2H) hourOfDay

theorem predict_setParams (p : Params F) (hourOfDay : F) :
    (setParams p).predict hourOfDay =
      if lt (formula p hourOfDay) (ofRat 0) then ofRat 0 else formula p hourOfDay := rfl

variable [DecimalText F]

/-- The flow of the coefficients is below a million, as rounded, or it is no finite number. -/
def Narrow (p : Params F) (hourOfDay : F) : Prop :=
  finite (formula p hourOfDay) → value (formula p hourOfDay) < 999999995 / 1000

theorem length_predict_le_iff (p : Params F) (hourOfDay : F) :
    (dtostrf ((setParams p).predict hourOfDay)).length ≤ 9 ↔ Narrow p hourOfDay := by
  have hzero : (dtostrf (ofRat 0 : F)).length ≤ 9 := by
    rw [length_dtostrf_le_iff finite_zero value_zero.ge, value_zero]
    norm_num
  rw [predict_setParams, Narrow]
  generalize formula p hourOfDay = w
  by_cases hfinite : finite w
  · by_cases hneg : value w < 0
    · rw [if_pos ((lt_zero_iff w hfinite).2 hneg)]
      exact iff_of_true hzero fun _ => hneg.trans (by norm_num)
    · rw [if_neg (mt (lt_zero_iff w hfinite).1 hneg), length_dtostrf_le_iff hfinite (not_lt.1 hneg)]
      exact ⟨fun h _ => h, fun h => h hfinite⟩
  · refine iff_of_true ?_ fun h => absurd h hfinite
    split
    · exact hzero
    · exact (dtostrf_word w hfinite).trans (by decide)

end ConsumptionSignature

/-! ### From the message to the record -/

namespace WaterboxFsm

open ConsumptionSignature GsmMqttClient

variable [CFloat F]

omit [CFloat F] in
theorem signature_portStable (sig : ConsumptionSignature F) :
    PortStable fun s : Sys F => s.board.signature = sig where
  after _ _ _ _ h := (Board.after_signature _ _).trans h
  later _ _ h := h
  radio _ _ _ h := h
  packet _ h := h

/-- An accepted message leaves its signature. -/
theorem signature_of_message {s t : Sys F} (hs : Listening s) {payload : CString}
    {params : Params F} (hread : parseFingerprint (copyMsg (strip payload)) = some params)
    (h : onMessage handlers s.board.radio.topicFp payload s = (some (), t)) :
    t.board.signature = setParams params := by
  let I (u : Sys F) : Prop := u.board.signature = setParams params
  have hsaved : Triple (fun _ : Sys F => True) (onFingerprint params) (fun _ => I)
      (fun _ => True) := by
    refine Triple.bind (Q := fun _ => I) (fun _ _ => rfl) fun _ => ?_
    refine Triple.bind (Q := fun _ => I) ?_ fun _ => emit_keeps fun _ h => h
    exact eepromPut_keeps (signature_portStable _) (fun _ _ => trivial) (fun _ _ h => h) _
  rw [onMessage_fingerprint hs, hread] at h
  exact wp_finished (m := onFingerprint params) (hsaved s trivial) h

/-- What `evaluateSignature()` leaves where the signature is valid and the clock answers. -/
theorem modelLm_of_evaluate {u v : Sys F} {hour : F} (hhour : hourRead u = some hour)
    (h : evaluateSignature u = (some (), v)) :
    v.board.telemetry.modelLm = u.board.signature.predict hour := by
  let cleared : WaterboxFsm F :=
    { u.board.fsm with modelLm := ofRat 0, leakFlag := 0, overFlag := 0 }
  have hvalid : u.board.signature.valid = true := by
    by_contra hinvalid
    rw [hourRead, if_neg hinvalid] at hhour
    cases hhour
  have hrun : verdict (u.withFsm cleared) = (some (), v) := h
  obtain ⟨b, _, hlook, hrun⟩ := bind_finished hrun
  cases hlook
  have hif : (u.withFsm cleared).board.signature.valid = true := hvalid
  simp only [id_eq, hif, if_true] at hrun
  obtain ⟨read, w, hread, hrest⟩ := bind_finished hrun
  have hsome : read = some hour := by
    rw [← hourRead_withFsm cleared, hourRead, if_pos hif, hread] at hhour
    exact hhour
  subst hsome
  obtain ⟨_, w', hset, hflags⟩ := bind_finished hrest
  have hmodel : w'.board.fsm.modelLm = u.board.signature.predict hour := by
    cases hset
    rfl
  rw [← hmodel]
  -- the flags are set afterwards
  generalize ConsumptionSignature.classify (F := F) _ _ _ = verdict at hflags
  cases verdict <;> cases hflags <;> rfl

variable [DecimalText F]

/-- The model flow that `evaluateSignature()` computes from an accepted message, at an hour that the
    clock gives, is written with at most nine characters if and only if `W(t)` of the message is
    below a million there. -/
theorem model_text_fits_iff (payload : CString) (params : Params F)
    (hread : parseFingerprint (copyMsg (strip payload)) = some params) (s t : Sys F)
    (hs : Listening s)
    (hmessage : onMessage handlers s.board.radio.topicFp payload s = (some (), t))
    (u v : Sys F) (hsignature : u.board.signature = t.board.signature) (hour : F)
    (hhour : hourRead u = some hour) (heval : evaluateSignature u = (some (), v)) :
    (dtostrf v.board.telemetry.modelLm).length ≤ 9 ↔ Narrow params hour := by
  rw [signature_of_message hs hread hmessage] at hsignature
  rw [modelLm_of_evaluate hhour heval, hsignature]
  exact length_predict_le_iff params hour

theorem value_nonpos_of_sign {x : Single} (h : x.bits.getLsbD 31 = true) : x.value ≤ 0 := by
  unfold Single.value
  simp only [h, if_true, neg_nonpos]
  split
  · positivity
  · exact mul_nonneg (by positivity) (zpow_nonneg (by norm_num) _)

/-- The numbers of the device. -/
instance : DecimalText Single where
  finite x := x.isFinite = true
  value := Single.value
  negative x := x.bits.getLsbD 31
  value_nonpos _ := value_nonpos_of_sign
  finite_zero := by decide +kernel
  value_zero := by decide +kernel
  lt_zero_iff x hx := by
    have hzero : Single.value (ofRat 0) = 0 := by decide +kernel
    have hfinite : (Single.isNan (ofRat 0)) = false := by decide +kernel
    have hnan : x.isNan = false := by rw [Single.isNan, hx, Bool.not_true, Bool.false_and]
    show Single.compare (fun x y => x < y) x (ofRat 0) = true ↔ _
    rw [Single.compare, hnan, hfinite, hzero]
    exact decide_eq_true_iff
  dtostrf_finite x hx := by
    show Single.text x = _
    rw [Single.text, if_pos hx]
  dtostrf_word x hx := by
    show (Single.text x).length ≤ 4
    rw [Single.text, if_neg hx]
    split
    · decide
    · cases x.bits.getLsbD 31 <;> decide

/-- A step of the environment in which the clock shows eight in the morning. -/
def morning : Env := { willing with rtc := DateTime.ofFields 2026 1 1 8 0 0 }

/-- What the device makes of a message, and of the clock after it. -/
def afterMessage (payload : CString) : Sys Single :=
  (onMessage handlers (topic [] "fp".toList) payload
    (heard blank false (List.replicate 3 morning))).2

def afterEvaluation (payload : CString) : Sys Single := (evaluateSignature (afterMessage payload)).2

/-- The coefficients of a household. -/
def modest : Params Single :=
  ⟨ofRat (25 / 2), ofRat 3, ofRat 0, ofRat 24, ofRat 0, ofRat 0, ofRat 12⟩

theorem model_text_fits_morning :
    let payload := "\x7b\"w\":12.5,\"a1\":3\x7d".toList
    (dtostrf (afterEvaluation payload).board.telemetry.modelLm).length ≤ 9 := by
  intro payload
  have hheard : Listening (heard (F := Single) blank false (List.replicate 3 morning)) :=
    listening_heard _ _ _
  have hread : parseFingerprint (copyMsg (strip payload)) = some modest := by decide +kernel
  have hmessage : onMessage handlers (topic [] "fp".toList) payload
      (heard blank false (List.replicate 3 morning)) = (some (), afterMessage payload) :=
    Prod.ext (by decide +kernel) rfl
  have hhour : hourRead (afterMessage payload) = some (ofRat 8) := by decide +kernel
  have heval : evaluateSignature (afterMessage payload) = (some (), afterEvaluation payload) :=
    Prod.ext (by decide +kernel) rfl
  refine (model_text_fits_iff payload modest hread _ _ hheard hmessage _ _ rfl _ hhour heval).2 ?_
  exact fun _ => by decide +kernel

/-- A mean of a million takes ten characters, and the terminator an eleventh. -/
theorem model_text_overflows :
    let payload := "\x7b\"w\":1000000\x7d".toList
    (parseFingerprint (copyMsg (strip payload)) : Option (Params Single)).isSome = true ∧
      ¬(dtostrf (afterEvaluation payload).board.telemetry.modelLm).length ≤ 9 := by
  decide +kernel

end WaterboxFsm

end Waterbox
