import Mathlib.Data.Real.Basic
import Waterbox.Firmware.Rounds
import Waterbox.Firmware.Single

namespace Waterbox

/-!
# The verdict in a telemetry record

`service()` refreshes `modelLm`, `leakFlag` and `overFlag` together; `tick()` publishes them later
in the same round, with the flow they were computed from.

* `ExactFloat` — arithmetic without rounding.
* `documented` — the verdict as `SIGNATURE.md` states it, without the floor of the flow.
* `Evaluated` — the fields of a record come from one evaluation.
* `ConsumptionSignature.classify_eq` — the code's verdict is the documented one.
* `WaterboxFsm.service_telling`, `tick_evaluated` — one call of `service()`, one round.
* `WaterboxFsm.records_evaluated` — whole runs.
-/

open Cut CFloat

variable {F : Type}

/-- Numbers that are added and compared without rounding. -/
class ExactFloat (F : Type) [CFloat F] where
  value : F → ℝ
  value_ofRat : ∀ q : ℚ, value (ofRat q) = q
  value_add : ∀ x y : F, value (add x y) = value x + value y
  lt_iff : ∀ x y : F, lt x y = true ↔ value x < value y
  le_iff : ∀ x y : F, le x y = true ↔ value x ≤ value y

namespace ExactFloat

variable [CFloat F] [ExactFloat F]

attribute [simp] value_ofRat value_add lt_iff le_iff

/-- The hours from 0 to 5. -/
def Night (hour : F) : Prop := 0 ≤ value hour ∧ value hour < 5

end ExactFloat

open ExactFloat

/-- The verdict of the documentation on a flow, where the model expects `model`. -/
noncomputable def documented [CFloat F] [ExactFloat F] (model lm hour : F) : Verdict :=
  open Classical in
  if Night hour then
    if value model + 15 / 100 < value lm then .nightLeak else .ok
  else if value model + 50 / 100 < value lm then .overuse
  else .ok

section Documented

variable [CFloat F] [ExactFloat F] {model lm hour : F}

theorem documented_leak_iff :
    documented model lm hour = .nightLeak ↔ Night hour ∧ value model + 15 / 100 < value lm := by
  unfold documented
  by_cases hnight : Night hour
  · by_cases hlm : value model + 15 / 100 < value lm <;> simp [hnight, hlm]
  · by_cases hlm : value model + 50 / 100 < value lm <;> simp [hnight, hlm]

theorem documented_over_iff :
    documented model lm hour = .overuse ↔ ¬Night hour ∧ value model + 50 / 100 < value lm := by
  unfold documented
  by_cases hnight : Night hour
  · by_cases hlm : value model + 15 / 100 < value lm <;> simp [hnight, hlm]
  · by_cases hlm : value model + 50 / 100 < value lm <;> simp [hnight, hlm]

end Documented

namespace ConsumptionSignature

variable [CFloat F] [ExactFloat F]

theorem isNight_iff (hour : F) : isNight hour = true ↔ Night hour := by
  have horder : Settings.sigNightStartH ≤ Settings.sigNightEndH := by decide +kernel
  rw [isNight, if_pos horder, Bool.and_eq_true, le_iff, lt_iff, value_ofRat, value_ofRat]
  simp only [Night, Settings.sigNightStartH, Settings.sigNightEndH, Rat.cast_zero, Rat.cast_ofNat]

/-- The model is cut off at zero. -/
theorem predict_nonneg (sig : ConsumptionSignature F) (hour : F) :
    0 ≤ value (sig.predict hour) := by
  unfold predict
  dsimp only
  split
  · rw [value_ofRat]
    exact Rat.cast_nonneg.2 le_rfl
  · rename_i hneg
    rw [lt_iff, value_ofRat, not_lt, Rat.cast_zero] at hneg
    exact hneg

/-- A flow above the model by a margin of at least the floor is above the floor. -/
theorem floor_of_margin (sig : ConsumptionSignature F) {lm hour : F} {margin : ℚ}
    (hmargin : Settings.sigFlowFloorLm ≤ margin)
    (h : lt (add (sig.predict hour) (ofRat margin)) lm = true) :
    le (ofRat Settings.sigFlowFloorLm) lm = true := by
  rw [lt_iff, value_add, value_ofRat] at h
  rw [le_iff, value_ofRat]
  have hfloor : (Settings.sigFlowFloorLm : ℝ) ≤ (margin : ℝ) := Rat.cast_le.2 hmargin
  linarith [sig.predict_nonneg hour]

/-- The floor of the flow never decides. -/
theorem floored (sig : ConsumptionSignature F) (lm hour : F) {margin : ℚ}
    (hmargin : Settings.sigFlowFloorLm ≤ margin) :
    (le (ofRat Settings.sigFlowFloorLm) lm &&
      lt (add (sig.predict hour) (ofRat margin)) lm) = true ↔
      value (sig.predict hour) + margin < value lm := by
  rw [Bool.and_eq_true]
  constructor
  · rintro ⟨-, h⟩
    rwa [lt_iff, value_add, value_ofRat] at h
  · intro h
    have hlt : lt (add (sig.predict hour) (ofRat margin)) lm = true := by
      rw [lt_iff, value_add, value_ofRat]
      exact h
    exact ⟨sig.floor_of_margin hmargin hlt, hlt⟩

/-- The code's verdict is the documented one. -/
theorem classify_eq (sig : ConsumptionSignature F) (hvalid : sig.valid = true) (lm hour : F) :
    sig.classify lm hour = documented (sig.predict hour) lm hour := by
  have hleakMargin : Settings.sigFlowFloorLm ≤ Settings.sigLeakMarginLm := by decide +kernel
  have hoverMargin : Settings.sigFlowFloorLm ≤ Settings.sigOverMarginLm := by decide +kernel
  have hleak := sig.floored lm hour hleakMargin
  have hover := sig.floored lm hour hoverMargin
  have hleakValue : ((Settings.sigLeakMarginLm : ℚ) : ℝ) = 15 / 100 := by
    norm_num [Settings.sigLeakMarginLm]
  have hoverValue : ((Settings.sigOverMarginLm : ℚ) : ℝ) = 50 / 100 := by
    norm_num [Settings.sigOverMarginLm]
  rw [hleakValue] at hleak
  rw [hoverValue] at hover
  unfold classify documented
  rw [hvalid]
  simp only [Bool.not_true, Bool.false_eq_true, if_false, hleak, hover]
  by_cases hnight : isNight hour = true
  · rw [if_pos hnight, if_pos ((isNight_iff hour).1 hnight)]
  · rw [if_neg hnight, if_neg fun h => hnight ((isNight_iff hour).2 h)]

end ConsumptionSignature

/-- A record whose verdict comes from one evaluation of the flow it reports, by a signature and at
    an hour; `none` where there was no valid signature or no time. -/
structure Evaluated [CFloat F] [ExactFloat F] (sig : ConsumptionSignature F) (hour : Option F)
    (r : Telemetry F) : Prop where
  flags : (r.leak = 0 ∨ r.leak = 1) ∧ (r.overuse = 0 ∨ r.overuse = 1)
  apart : ¬(r.leak = 1 ∧ r.overuse = 1)
  unread : hour = none → r.modelLm = ofRat 0 ∧ r.leak = 0 ∧ r.overuse = 0
  read : ∀ h, hour = some h → r.modelLm = sig.predict h ∧
    (r.leak = 1 ↔ Night h ∧ value r.modelLm + 15 / 100 < value r.litresPerMinute) ∧
    (r.overuse = 1 ↔ ¬Night h ∧ value r.modelLm + 50 / 100 < value r.litresPerMinute)

namespace Evaluated

variable [CFloat F] [ExactFloat F] {sig : ConsumptionSignature F} {hour : Option F}
  {r r' : Telemetry F}

/-- Only the flow and the fields of the verdict matter. -/
theorem congr (h : Evaluated sig hour r) (hlm : r'.litresPerMinute = r.litresPerMinute)
    (hmodel : r'.modelLm = r.modelLm) (hleak : r'.leak = r.leak)
    (hover : r'.overuse = r.overuse) : Evaluated sig hour r' := by
  constructor
  · rw [hleak, hover]
    exact h.flags
  · rw [hleak, hover]
    exact h.apart
  · rw [hmodel, hleak, hover]
    exact h.unread
  · rw [hmodel, hleak, hover, hlm]
    exact h.read

/-- Without an hour nothing is flagged. -/
theorem of_unread (hmodel : r.modelLm = ofRat 0) (hleak : r.leak = 0) (hover : r.overuse = 0) :
    Evaluated sig none r := by
  refine ⟨⟨.inl hleak, .inl hover⟩, ?_, fun _ => ⟨hmodel, hleak, hover⟩, fun h hh => nomatch hh⟩
  rw [hleak]
  exact fun h => absurd h.1 (by decide)

/-- With an hour the flags are those of the documented verdict. -/
theorem of_read {h : F} {v : Verdict} (hmodel : r.modelLm = sig.predict h)
    (hv : documented (sig.predict h) r.litresPerMinute h = v)
    (hleak : r.leak = if v = .nightLeak then 1 else 0)
    (hover : r.overuse = if v = .overuse then 1 else 0) : Evaluated sig (some h) r := by
  have hone : ∀ c : Prop, [Decidable c] → ((if c then (1 : U8) else 0) = 1 ↔ c) := by
    intro c _
    by_cases hc : c <;> simp [hc]
  have hbit : ∀ c : Prop, [Decidable c] →
      (if c then (1 : U8) else 0) = 0 ∨ (if c then (1 : U8) else 0) = 1 := by
    intro c _
    by_cases hc : c <;> simp [hc]
  refine ⟨?_, ?_, ?_, ?_⟩
  · rw [hleak, hover]
    exact ⟨hbit _, hbit _⟩
  · -- the verdict is one of the two at most
    rw [hleak, hover, hone, hone]
    rintro ⟨rfl, ho⟩
    cases ho
  · exact fun hnone => nomatch hnone
  · rintro _ ⟨rfl⟩
    rw [hmodel, hleak, hover, hone, hone]
    rw [← hv]
    exact ⟨rfl, documented_leak_iff, documented_over_iff⟩

end Evaluated

/-! ### One call of `service()` -/

namespace WaterboxFsm

variable [CFloat F]

/-- The hour that `evaluateSignature()` reads in a state. -/
def hourRead (t : Sys F) : Option F :=
  if t.board.signature.valid then ((GsmMqttClient.hourOfDay t).1).join else none

/-- The hour that is read does not depend on the FSM. -/
theorem hourRead_withFsm (f : WaterboxFsm F) (s : Sys F) : hourRead (s.withFsm f) = hourRead s := by
  obtain ⟨board, tape, log⟩ := s
  cases tape with
  | nil => rfl
  | cons e tape =>
    cases tape with
    | nil => rfl
    | cons reply rest =>
      obtain ⟨-, -, ok, -, rtc, -, -, -, -, -, -⟩ := reply
      cases ok with
      | false => rfl
      | true => cases rtc <;> rfl

/-- The signature that a call of `service()` looks at, and the hour it reads from the clock, where
    the signature is valid and the clock answers; `none` where the power fails before. -/
def evaluation (s : Sys F) : Option (ConsumptionSignature F × Option F) :=
  match meterAndSave s with
  | (none, _) => none
  | (some _, t) => some (t.board.signature, hourRead t)

/-- Flow and FSM are those of a board. -/
def Frozen (b : Board F) (s : Sys F) : Prop :=
  s.board.flow.litresPerMinute = b.flow.litresPerMinute ∧ s.board.fsm = b.fsm

omit [CFloat F] in
theorem Frozen.commandStable (b : Board F) : CommandStable (Frozen b) where
  after s e rest _ h := by
    refine ⟨?_, ?_⟩
    · show (s.board.after e).flow.litresPerMinute = _
      rw [Board.after_litresPerMinute]
      exact h.1
    · show (s.board.after e).fsm = _
      rw [Board.after_fsm]
      exact h.2
  later _ _ h := h
  radio _ _ _ h := h
  packet _ h := h
  command _ _ h := h

variable [ExactFloat F]

/-- The telemetry of the moment comes from one evaluation, and the FSM is in the state `st`. -/
def Telling (sig : ConsumptionSignature F) (hour : Option F) (st : State) (s : Sys F) : Prop :=
  Evaluated sig hour s.board.telemetry ∧ s.board.fsm.state = st

theorem Telling.frame {sig : ConsumptionSignature F} {hour : Option F} {st : State} {s t : Sys F}
    (h : Telling sig hour st s) (hfrozen : Frozen s.board t) : Telling sig hour st t := by
  refine ⟨h.1.congr hfrozen.1 ?_ ?_ ?_, ?_⟩
  · exact congrArg WaterboxFsm.modelLm hfrozen.2
  · exact congrArg WaterboxFsm.leakFlag hfrozen.2
  · exact congrArg WaterboxFsm.overFlag hfrozen.2
  · rw [hfrozen.2]
    exact h.2

theorem verdict_triple (t : Sys F) (hmodel : t.board.fsm.modelLm = ofRat 0)
    (hleak : t.board.fsm.leakFlag = 0) (hover : t.board.fsm.overFlag = 0) :
    wp verdict (fun _ => Telling t.board.signature (hourRead t) t.board.fsm.state)
      (fun _ => True) t := by
  refine wp_bind.2 ?_
  show wp (if t.board.signature.valid then _ else _) _ _ t
  by_cases hvalid : t.board.signature.valid = true
  · rw [if_pos hvalid]
    refine wp_bind.2 (wp_mono ?_ (fun _ h => h) (wp_run (GsmMqttClient.hourOfDay_keeps
      (C := fun _ => True) (Frozen.commandStable t.board) (fun _ _ => trivial) t ⟨rfl, rfl⟩)))
    rintro hour u ⟨hrun, hlm, hfsm⟩
    have hread : hourRead t = hour := by
      rw [hourRead, if_pos hvalid, hrun]
      rfl
    rw [hread]
    cases hour with
    | none =>
      -- the clock does not answer
      refine ⟨Evaluated.of_unread ?_ ?_ ?_, ?_⟩
      · rw [← hmodel, ← hfsm]
        rfl
      · rw [← hleak, ← hfsm]
        rfl
      · rw [← hover, ← hfsm]
        rfl
      · rw [hfsm]
    | some hod =>
      refine wp_bind.2 ?_
      have hclass := t.board.signature.classify_eq hvalid t.board.flow.litresPerMinute hod
      have hdocumented : documented (t.board.signature.predict hod) u.board.flow.litresPerMinute
          hod = t.board.signature.classify t.board.flow.litresPerMinute hod := by
        rw [hlm, hclass]
      have hleak : u.board.fsm.leakFlag = 0 := by rw [hfsm, hleak]
      have hover : u.board.fsm.overFlag = 0 := by rw [hfsm, hover]
      have hstate : u.board.fsm.state = t.board.fsm.state := by rw [hfsm]
      dsimp only [id]
      cases hv : t.board.signature.classify t.board.flow.litresPerMinute hod with
      | ok => exact ⟨Evaluated.of_read rfl (hdocumented.trans hv) hleak hover, hstate⟩
      | nightLeak => exact ⟨Evaluated.of_read rfl (hdocumented.trans hv) rfl hover, hstate⟩
      | overuse => exact ⟨Evaluated.of_read rfl (hdocumented.trans hv) hleak rfl, hstate⟩
  · rw [if_neg hvalid]
    have hread : hourRead t = none := by rw [hourRead, if_neg hvalid]
    rw [hread]
    exact ⟨Evaluated.of_unread hmodel hleak hover, rfl⟩

theorem Telling.modemStable {sig : ConsumptionSignature F} {hour : Option F} {st : State} :
    ModemStable (Telling sig hour st) where
  after s e rest htape h := h.frame ((Frozen.commandStable s.board).after s e rest htape ⟨rfl, rfl⟩)
  later _ _ h := h.frame ⟨rfl, rfl⟩
  radio _ _ _ h := h.frame ⟨rfl, rfl⟩
  packet _ h := h.frame ⟨rfl, rfl⟩
  command _ _ h := h.frame ⟨rfl, rfl⟩
  lowered _ _ _ _ h := h.frame ⟨rfl, rfl⟩

/-- Whatever the FSM told before. -/
theorem evaluateSignature_triple (t : Sys F) :
    wp evaluateSignature (fun _ => Telling t.board.signature (hourRead t) t.board.fsm.state)
      (fun _ => True) t := by
  let cleared : WaterboxFsm F :=
    { t.board.fsm with modelLm := ofRat 0, leakFlag := 0, overFlag := 0 }
  have h := verdict_triple (t.withFsm cleared) rfl rfl rfl
  rw [hourRead_withFsm] at h
  exact wp_bind.2 h

omit [ExactFloat F] in
theorem meterAndSave_keeps_state (st : State) :
    Keeps (fun s : Sys F => s.board.fsm.state = st) (fun _ => True) meterAndSave := by
  let I (s : Sys F) : Prop := s.board.fsm.state = st
  have hI : PortStable I :=
    { after := fun s e rest _ h => (congrArg WaterboxFsm.state (s.board.after_fsm e)).trans h
      later := fun _ _ h => h
      radio := fun _ _ _ h => h
      packet := fun _ h => h }
  have hC : ∀ s, I s → True := fun _ _ => trivial
  refine Keeps.bind (FlowMeter.update_keeps hI hC (fun _ _ h => h) fun _ h => h) fun _ => ?_
  refine Keeps.bind (FlowMeter.consumeDirty_keeps hI hC fun _ _ h => h) fun dirty => ?_
  refine Keeps.bind (Keeps.when (MeterStore.markDirty_keeps fun _ _ h => h)) fun _ => ?_
  exact Keeps.bind (look_keeps _) fun b => saveIfDue_keeps hI hC _ _ _
    (MeterStore.save_keeps hI hC (fun _ _ h => h) (fun _ _ h => h) (fun _ h => h) _ _)

/-- One call of `service()` leaves the verdict on the flow it leaves, by the signature and at the
    hour of this call. -/
theorem service_telling (s : Sys F) :
    wp service (fun _ t => ∃ e, evaluation s = some e ∧ Telling e.1 e.2 s.board.fsm.state t)
      (fun _ => True) s := by
  refine wp_bind.2 (wp_bind.2 ?_)
  refine wp_mono ?_ (fun _ h => h) (wp_run (meterAndSave_keeps_state _ s rfl))
  rintro since t ⟨hrun, hstate⟩
  have heval : evaluation s = some (t.board.signature, hourRead t) := by rw [evaluation, hrun]
  refine wp_bind.2 (wp_mono ?_ (fun _ h => h) (evaluateSignature_triple t))
  intro _ u hu
  rw [hstate] at hu
  -- only the LED is left
  have hM : ModemStable (Telling t.board.signature (hourRead t) s.board.fsm.state) :=
    Telling.modemStable
  have hled : ∀ f, Keeps (Telling t.board.signature (hourRead t) s.board.fsm.state)
      (fun _ => True) (StatusLed.set f) := fun f => change_keeps fun _ h => h.frame ⟨rfl, rfl⟩
  have hupdate : Keeps (Telling t.board.signature (hourRead t) s.board.fsm.state)
      (fun _ => True) updateLed := by
    refine Keeps.bind (look_keeps _) fun b => Keeps.bind (hled _) fun _ => ?_
    exact Keeps.bind (hM.millis fun _ _ => trivial) fun _ => hled _
  have hend : Keeps (Telling t.board.signature (hourRead t) s.board.fsm.state) (fun _ => True)
      (updateLed >>= fun _ => emit (.serviced s.board.time)) :=
    Keeps.bind hupdate fun _ => emit_keeps fun _ h => h.frame ⟨rfl, rfl⟩
  exact wp_mono (fun _ _ h => ⟨_, heval, h⟩) (fun _ h => h) (hend u hu)

/-! ### Rounds -/

/-- A telemetry record among the entries of a round that began in `s` is published in the state
    Publish, and its verdict is that of the round's call of `service()`. -/
def RecordOf (s : Sys F) (x : Event F × Board F) : Prop :=
  ∀ r, x.1 = .telemetry r →
    s.board.fsm.state = .publish ∧ ∃ e, evaluation s = some e ∧ Evaluated e.1 e.2 r

theorem recordOf_other {s : Sys F} {ev : Event F} {b : Board F} (hev : ev.isTelemetry = false) :
    RecordOf s (ev, b) := by
  rintro r rfl
  cases hev

omit [CFloat F] [ExactFloat F] in
theorem isTelemetry_of_note {ev : Event F} (hev : ev.isNote = true) : ev.isTelemetry = false := by
  cases ev <;> first | rfl | cases hev

omit [CFloat F] [ExactFloat F] in
theorem isTelemetry_of_own {ev : Event F} (hev : ev.isOwn = true) : ev.isTelemetry = false := by
  cases ev <;> first | rfl | cases hev

theorem recordOf_fsmStable {s : Sys F} {old : List (Event F × Board F)} :
    FsmStable (Grown (RecordOf s) old) :=
  Grown.fsmStable fun _ _ hev => recordOf_other (isTelemetry_of_note hev)

theorem recordOf_deviceStable {s : Sys F} {old : List (Event F × Board F)} :
    DeviceStable (Grown (RecordOf s) old) :=
  Grown.deviceStable fun _ _ hev => recordOf_other (isTelemetry_of_own hev)

/-- What comes to the log in the Publish state, where the board tells one evaluation. -/
theorem tickPublish_evaluated {s : Sys F} {e : ConsumptionSignature F × Option F}
    (hstate : s.board.fsm.state = .publish) (he : evaluation s = some e) (now : U32) :
    Triple (fun t => Grown (RecordOf s) s.log t ∧ Telling e.1 e.2 .publish t)
      (tickPublish now : Fw F Unit) (fun _ => Grown (RecordOf s) s.log)
      (Grown (RecordOf s) s.log) := by
  let I : Sys F → Prop := Grown (RecordOf s) s.log
  have hI : FsmStable I := recordOf_fsmStable
  have hD : DeviceStable I := recordOf_deviceStable
  have hM : ModemStable fun t => I t ∧ Telling e.1 e.2 .publish t :=
    hI.toModemStable.and Telling.modemStable
  refine Triple.bind
    (publishInfo_triple hM (fun _ h => h.1) (fun t topic payload h => ?_) fun t h => ?_)
    fun _ => ?_
  · exact ⟨h.1.logged (recordOf_other rfl), h.2.frame ⟨rfl, rfl⟩⟩
  · exact ⟨h.1.logged (recordOf_other rfl), h.2.frame ⟨rfl, rfl⟩⟩
  refine Triple.bind (publishTelemetry_triple hI.toModemStable (fun _ h => h)
    (fun t topic payload h => h.logged (recordOf_other rfl)) fun t h => ?_) fun ok => ?_
  · -- the record is made of what the board tells
    refine h.1.logged ?_
    rintro _ ⟨rfl⟩
    exact ⟨hstate, e, he, h.2.1⟩
  refine Triple.bind (Keeps.when (persistNow_stable hI.toPortStable (fun _ h => h) hD)) fun _ => ?_
  refine Triple.bind (heartbeatIfDue_keeps hI.toModemStable (fun _ h => h)
    (fun t topic payload h => h.logged (recordOf_other rfl)) hI.toServiceStable
    (fun t up h => h.logged (recordOf_other rfl)) now) fun _ => ?_
  refine Triple.bind (hI.millis fun _ h => h) fun start => ?_
  exact Triple.bind (set_keeps hI.toServiceStable _ fun _ => rfl) fun _ => enter_keeps hI _

/-- One round. -/
theorem tick_evaluated (s : Sys F) :
    ∃ new, (tick s).2.log = new ++ s.log ∧ ∀ x ∈ new, RecordOf s x := by
  let I : Sys F → Prop := Grown (RecordOf s) s.log
  have hI : FsmStable I := recordOf_fsmStable
  have hD : DeviceStable I := recordOf_deviceStable
  have hC : ∀ s, I s → I s := fun _ h => h
  have hk : Kept I I := Kept.of_stable hI.toServiceStable.verdictStable hC hD
  have hservice := wp_and (hk.service s (Grown.refl s)) (service_telling s)
  refine wp_snd (I := I) (m := tick) ?_
  refine wp_bind.2 (wp_mono ?_ (fun _ h => h.1) hservice)
  rintro _ t ⟨ht, e, he, htell⟩
  have hM : ModemStable fun t => I t ∧ Telling e.1 e.2 s.board.fsm.state t :=
    hI.toModemStable.and Telling.modemStable
  refine Triple.bind (hM.millis (C := I) fun _ h => h.1) (fun now => look_bind fun b => ?_) t
    ⟨ht, htell⟩
  rintro u ⟨⟨hu, htell⟩, rfl⟩
  rw [htell.2]
  -- only a round that publishes builds a record, from the evaluation of its `service()`
  cases hstate : s.board.fsm.state with
  | publish => exact tickPublish_evaluated hstate he now u ⟨hu, hstate ▸ htell⟩
  | haltAuth => exact hu
  | waitModem => exact tickWaitModem_keeps hI hC hk.service now u hu
  | idle => exact tickIdle_keeps hI now u hu
  | connect => exact tickConnect_keeps hI hC hk.service now u hu
  | listen => exact tickListen_keeps hI hC hk now u hu
  | disconnect => exact tickDisconnect_keeps hI hC u hu

/-! ### Runs -/

omit [ExactFloat F] in
/-- `begin()` publishes nothing. -/
theorem begin_silent {s : Sys F} (hs : s.log = []) :
    ∀ x ∈ (begin s).2.log, x.1.isTelemetry = false := by
  obtain ⟨new, hlog, hnew⟩ := begin_grown (K := fun x => x.1.isTelemetry = false)
    (fun _ _ hev => isTelemetry_of_note hev) s
  rw [hlog, hs, List.append_nil]
  exact hnew

/-- The code's verdict is the documented one, so the floor of the flow never decides; and in every
    run, every telemetry record was published by a round that began in the state Publish, and its
    verdict is the one on the flow it reports, by the signature and at the hour of the call of
    `service()` in that round. -/
theorem records_evaluated :
    (∀ (sig : ConsumptionSignature F) (lm hour : F), sig.valid = true →
      sig.classify lm hour = documented (sig.predict hour) lm hour) ∧
    ∀ (eeprom : Nat → U8) (latch : Bool) (start : Nat) (tape : List Env) (n : Nat),
      let boot := Sys.powerUp (F := F) eeprom latch start tape
      ∀ x ∈ (firmware n boot).2.log, ∀ r, x.1 = .telemetry r →
        ∃ k < n, ∃ s, firmware k boot = (some (), s) ∧ s.board.fsm.state = .publish ∧
          (∃ new, (tick s).2.log = new ++ s.log ∧ x ∈ new) ∧
          ∃ e, evaluation s = some e ∧ Evaluated e.1 e.2 r := by
  refine ⟨fun sig lm hour hvalid => sig.classify_eq hvalid lm hour, ?_⟩
  intro eeprom latch start tape n boot x hx r hr
  -- `begin` builds no record
  have hquiet : x ∉ (begin boot).2.log := by
    intro hbegin
    have hsilent := begin_silent rfl x hbegin
    rw [hr] at hsilent
    cases hsilent
  rcases hbegin : begin boot with ⟨_ | _, u⟩
  · rw [firmware, bind_of_cut hbegin] at hx
    rw [hbegin] at hquiet
    exact absurd hx hquiet
  · rw [firmware, bind_of_finished hbegin] at hx
    rw [hbegin] at hquiet
    rcases times_entry tick_evaluated hx with hx | ⟨k, hk, s, hs, hnew, hrecord⟩
    · exact absurd hx hquiet
    · obtain ⟨hstate, e, he, hev⟩ := hrecord r hr
      refine ⟨k, hk, s, ?_, hstate, hnew, e, he, hev⟩
      rw [firmware, bind_of_finished hbegin]
      exact hs

/-- Rational numbers, which the device stores in single precision. -/
instance : CFloat ℚ where
  ofRat q := q
  add x y := x + y
  mul x y := x * y
  div x y := x / y
  lt x y := x < y
  le x y := x ≤ y
  beq x y := x = y
  -- the first three terms of the series
  sinf x := x - x ^ 3 / 6 + x ^ 5 / 120
  pi := 355 / 113
  dtostrf x := Single.text (Single.ofValue x)
  atof := Text.strtod
  bits x := (Single.ofValue x).bits
  ofBits w := Single.value ⟨w⟩

instance : ExactFloat ℚ where
  value x := x
  value_ofRat _ := rfl
  value_add x y := Rat.cast_add x y
  lt_iff _ _ := decide_eq_true_iff.trans Rat.cast_lt.symm
  le_iff _ _ := decide_eq_true_iff.trans Rat.cast_le.symm

/-- A household that should use no water, and a tap that drips at three in the morning. -/
def noUse : Nat → U8 :=
  writeBytes blank MeterStore.eepromFpBase
    (MeterStore.fingerprintImage (F := ℚ) ⟨0, 0, 0, 24, 0, 0, 12⟩)

def dripping : List Env :=
  List.replicate 400
    { willing with
      elapsed := 1000
      pulses := 1
      rtc := DateTime.ofFields 2026 1 1 3 0 0 }

/-- Whether an event reports a leak. -/
def reportsLeak : Event ℚ → Bool
  | .telemetry r => r.leak = 1
  | _ => false

/-- The leak is reported, by a verdict on the flow that the record shows. -/
theorem records_evaluated_dripping :
    ∃ x ∈ (firmware (F := ℚ) 5 (Sys.powerUp noUse false 0 dripping)).2.log,
      ∃ r, x.1 = .telemetry r ∧ r.leak = 1 ∧
        ∃ s e, evaluation s = some e ∧ Evaluated e.1 e.2 r := by
  have hleak : (firmware (F := ℚ) 5 (Sys.powerUp noUse false 0 dripping)).2.log.any
      (fun x => reportsLeak x.1) = true := by decide +kernel
  obtain ⟨x, hx, hreports⟩ := List.any_eq_true.1 hleak
  cases hev : x.1 with
  | telemetry r =>
    obtain ⟨k, -, s, -, -, -, e, he⟩ := records_evaluated.2 noUse false 0 dripping 5 x hx r hev
    rw [hev] at hreports
    exact ⟨x, hx, r, hev, of_decide_eq_true hreports, s, e, he⟩
  | _ =>
    rw [hev] at hreports
    cases hreports

end WaterboxFsm

end Waterbox
