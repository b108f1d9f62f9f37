import Waterbox.Firmware.Stable

namespace Waterbox

/-!
# The rounds of `loop()`, for an arbitrary invariant

An invariant that does not look at the radio, at the members of the FSM or at the LED is
preserved by `tick()` as soon as the few functions that concern it are known to preserve it:
`service()`, the two handlers, and the Publish state.

* `FsmStable I` — what `I` must not depend on.
* `tick_keeps`, `ticks_keeps` — one round, and any number of them.
* `begin_triple`, `firmware_triple` — `begin()` in front of them.
-/

open Cut

variable {F : Type} {I C D P : Sys F → Prop}

/-- The system with other members of the FSM. -/
def Sys.withFsm (s : Sys F) (f : WaterboxFsm F) : Sys F :=
  { s with board := { s.board with fsm := f } }

/-- The system with another state of the LED. -/
def Sys.withLed (s : Sys F) (l : StatusLed) : Sys F := { s with board := { s.board with led := l } }

/-- The events of the radio and of `tick()` besides what is published. -/
def Event.isNote : Event F → Bool
  | .atCommand _ | .mqttWrite | .radioBegin | .radioBegun _ | .radioConnect | .radioConnected _
  | .radioDisconnect
  | .radioLoop | .entered _ => true
  | _ => false

/-- `I` survives the verdict of `service()` on the flow, and changes of the LED; the other members
    of the FSM it may look at. -/
structure VerdictStable (I : Sys F → Prop) : Prop extends CommandStable I where
  verdict : ∀ s lm leak overuse, I s →
    I (s.withFsm { s.board.fsm with modelLm := lm, leakFlag := leak, overFlag := overuse })
  led : ∀ s l, I s → I (s.withLed l)

/-- `I` survives what `service()` does to FSM and LED; the state of the FSM it may look at. -/
structure ServiceStable (I : Sys F → Prop) : Prop extends CommandStable I where
  fsm : ∀ s f, f.state = s.board.fsm.state → I s → I (s.withFsm f)
  led : ∀ s l, I s → I (s.withLed l)

/-- The verdict is a write to the FSM that leaves its state. -/
theorem ServiceStable.verdictStable (hI : ServiceStable I) : VerdictStable I where
  toCommandStable := hI.toCommandStable
  verdict s _ _ _ hs := hI.fsm s _ rfl hs
  led := hI.led

/-- `I` does not look at radio, FSM and LED, and survives the events of `tick()`. -/
structure FsmStable (I : Sys F → Prop) : Prop extends RadioStable I, ServiceStable I where
  state : ∀ s st, I s → I (s.withFsm { s.board.fsm with state := st })
  note : ∀ s ev, ev.isNote = true → I s → I (s.logged ev)

/-- An invariant that does not look at radio, FSM and LED at all. -/
theorem FsmStable.of_unseen (hafter : ∀ s e rest, s.tape = e :: rest → I s → I (s.after e rest))
    (hlater : ∀ s ms, I s → I (s.later ms)) (hradio : ∀ s r, I s → I (s.withRadio r))
    (hfsm : ∀ s f, I s → I (s.withFsm f)) (hled : ∀ s l, I s → I (s.withLed l))
    (hnote : ∀ s ev, ev.isNote = true → I s → I (s.logged ev)) : FsmStable I where
  after := hafter
  later := hlater
  radio s r _ := hradio s r
  packet s := hnote s _ rfl
  command s _ := hnote s _ rfl
  lowered s r _ _ := hradio s r
  registered s r _ := hradio s r
  opened := hradio
  fsm s f _ := hfsm s f
  led := hled
  state s _ := hfsm s _
  note := hnote

/-- The events of `service()` and of the two handlers. -/
def Event.isOwn : Event F → Bool
  | .sampled | .saved | .commanded _ | .fingerprinted | .serviced _ => true
  | _ => false

/-- The calls of `publishTelemetry`. -/
def Event.isTelemetry : Event F → Bool
  | .telemetry _ => true
  | _ => false

/-- A computation that goes on with a part of the board may use the board it was read from. -/
theorem look_bind {α β : Type} {g : Board F → α} {k : α → Fw F β} {Q : β → Sys F → Prop}
    (h : ∀ b, Triple (fun s => P s ∧ s.board = b) (k (g b)) Q C) : Triple P (look g >>= k) Q C :=
  fun s hs => h s.board s ⟨hs, rfl⟩

/-- The system with another flow meter. -/
def Sys.withFlow (s : Sys F) (fm : FlowMeter F) : Sys F :=
  { s with board := { s.board with flow := fm } }

/-- The system with another valve driver, and the latch in another position. -/
def Sys.withValve (s : Sys F) (v : LatchingValve) (latchOpen : Bool) : Sys F :=
  { s with board := { s.board with valve := v, latchOpen := latchOpen } }

/-- The system with another state of the store. -/
def Sys.withStore (s : Sys F) (st : MeterStore) : Sys F :=
  { s with board := { s.board with store := st } }

/-- The system with another content of the EEPROM. -/
def Sys.withEeprom (s : Sys F) (eeprom : Nat → U8) : Sys F :=
  { s with board := { s.board with eeprom := eeprom } }

/-- The system with another signature. -/
def Sys.withSignature (s : Sys F) (sig : ConsumptionSignature F) : Sys F :=
  { s with board := { s.board with signature := sig } }

/-- `I` looks at none of flow meter, valve, store, EEPROM and signature, and survives the events of
    `service()` and of the handlers. -/
structure DeviceStable (I : Sys F → Prop) : Prop where
  flow : ∀ s fm, I s → I (s.withFlow fm)
  valve : ∀ s v l, I s → I (s.withValve v l)
  store : ∀ s st, I s → I (s.withStore st)
  eeprom : ∀ s eeprom, I s → I (s.withEeprom eeprom)
  signature : ∀ s sig, I s → I (s.withSignature sig)
  own : ∀ s ev, ev.isOwn = true → I s → I (s.logged ev)

/-! ### What is new in the log -/

/-- Every entry that has come to the log `old` has the property `P`. -/
def Grown (P : Event F × Board F → Prop) (old : List (Event F × Board F)) (s : Sys F) : Prop :=
  ∃ new, s.log = new ++ old ∧ ∀ x ∈ new, P x

namespace Grown

variable {P : Event F × Board F → Prop} {old : List (Event F × Board F)} {s : Sys F}

/-- Nothing has come yet. -/
theorem refl (s : Sys F) : Grown P s.log s := ⟨[], rfl, fun _ hx => nomatch hx⟩

/-- One entry more. -/
theorem logged (h : Grown P old s) {ev : Event F} (hev : P (ev, s.board)) :
    Grown P old (s.logged ev) := by
  obtain ⟨new, hlog, hnew⟩ := h
  refine ⟨(ev, s.board) :: new, ?_, fun x hx => ?_⟩
  · show (ev, s.board) :: s.log = _
    rw [hlog]
    rfl
  · rcases List.mem_cons.1 hx with rfl | hx
    · exact hev
    · exact hnew x hx

/-- Only the log counts, and the events of the FSM have the property. -/
theorem fsmStable (hP : ∀ ev b, ev.isNote = true → P (ev, b)) : FsmStable (Grown P old) :=
  FsmStable.of_unseen (fun _ _ _ _ h => h) (fun _ _ h => h) (fun _ _ h => h) (fun _ _ h => h)
    (fun _ _ h => h) fun _ _ hev h => h.logged (hP _ _ hev)

/-- So do those of the other objects. -/
theorem deviceStable (hP : ∀ ev b, ev.isOwn = true → P (ev, b)) : DeviceStable (Grown P old) where
  flow _ _ h := h
  valve _ _ _ h := h
  store _ _ h := h
  eeprom _ _ h := h
  signature _ _ h := h
  own _ _ hev h := h.logged (hP _ _ hev)

end Grown

/-! ### Classes an invariant does not look at -/

section Unseen

variable (hI : PortStable I) (hC : ∀ s, I s → C s)
include hI hC

omit hI in
/-- `EEPROM.put` writes the whole image, or a part of it before the power is lost. -/
theorem eepromPut_triple {Q : Sys F → Prop} {base : Nat} {image : List U8}
    (hafter : ∀ s e rest, s.tape = e :: rest → I s → I (s.after e rest))
    (hwhole : ∀ s, I s → Q (s.withEeprom (writeBytes s.board.eeprom base image)))
    (htorn : ∀ s k, I s → C (s.withEeprom (writeBytes s.board.eeprom base (image.take k)))) :
    Triple I (eepromPut base image : Fw F Unit) (fun _ => Q) C := by
  refine Triple.bind (next_keeps hC hafter) fun e => ?_
  cases e.torn with
  | none => exact hwhole
  | some k => exact Triple.bind (Q := fun _ => C) (fun s hs => htorn s k hs) fun _ _ hs => hs

/-- A write that may stop anywhere, where any bytes in any place do no harm. -/
theorem eepromPut_keeps {base : Nat}
    (h : ∀ s bytes, I s → I (s.withEeprom (writeBytes s.board.eeprom base bytes)))
    (image : List U8) : Keeps I C (eepromPut base image : Fw F Unit) :=
  eepromPut_triple hC hI.after (fun s hs => h s image hs)
    (fun s k hs => hC _ (h s (image.take k) hs))

omit hI hC in
/-- The members of the store. -/
theorem MeterStore.set_keeps (hstore : ∀ s st, I s → I (s.withStore st))
    (f : MeterStore → MeterStore) : Keeps I C (MeterStore.set f : Fw F Unit) :=
  change_keeps fun s hs => hstore s _ hs

omit hI hC in
/-- `markDirty()` sets one of them. -/
theorem MeterStore.markDirty_keeps (hstore : ∀ s st, I s → I (s.withStore st)) :
    Keeps I C (MeterStore.markDirty : Fw F Unit) := MeterStore.set_keeps hstore _

/-- `save()`: the image, the members of the store, the clock. -/
theorem MeterStore.save_keeps (heeprom : ∀ s eeprom, I s → I (s.withEeprom eeprom))
    (hstore : ∀ s st, I s → I (s.withStore st)) (hsaved : ∀ s, I s → I (s.logged .saved))
    (pulses : U32) (v : Bool) : Keeps I C (MeterStore.save pulses v : Fw F Unit) := by
  refine Keeps.bind (eepromPut_keeps hI hC (fun s _ => heeprom s _) _) fun _ => ?_
  refine Keeps.bind (MeterStore.set_keeps hstore _) fun _ => ?_
  refine Keeps.bind (emit_keeps hsaved) fun _ => Keeps.bind (hI.millis hC) fun _ => ?_
  exact MeterStore.set_keeps hstore _

/-- A pulse moves the latch, and takes its time. -/
theorem LatchingValve.pulse_keeps (h : ∀ s v l, I s → I (s.withValve v l)) (ia ib : U8) :
    Keeps I C (LatchingValve.pulse ia ib : Fw F Unit) := by
  refine Keeps.bind (look_keeps _) fun _ => Keeps.bind (hI.delay hC _) fun _ => ?_
  exact change_keeps fun s hs => h s _ _ hs

/-- `open()` is a pulse, and the flag after it. -/
theorem LatchingValve.opens_keeps (h : ∀ s v l, I s → I (s.withValve v l)) :
    Keeps I C (LatchingValve.opens : Fw F Unit) := by
  refine Keeps.bind (look_keeps _) fun _ => ?_
  refine Keeps.bind (LatchingValve.pulse_keeps hI hC h _ _) fun _ => ?_
  exact change_keeps fun s hs => h s _ _ hs

/-- So is `close()`, with the other polarity. -/
theorem LatchingValve.close_keeps (h : ∀ s v l, I s → I (s.withValve v l)) :
    Keeps I C (LatchingValve.close : Fw F Unit) := by
  refine Keeps.bind (look_keeps _) fun _ => ?_
  refine Keeps.bind (LatchingValve.pulse_keeps hI hC h _ _) fun _ => ?_
  exact change_keeps fun s hs => h s _ _ hs

omit hI hC in
/-- The members of the flow meter. -/
theorem FlowMeter.set_keeps (hflow : ∀ s fm, I s → I (s.withFlow fm))
    (f : FlowMeter F → FlowMeter F) : Keeps I C (FlowMeter.set f) :=
  change_keeps fun s hs => hflow s _ hs

/-- `consumeDirty()` clears one of them. -/
theorem FlowMeter.consumeDirty_keeps (hflow : ∀ s fm, I s → I (s.withFlow fm)) :
    Keeps I C (FlowMeter.consumeDirty : Fw F Bool) := by
  refine Keeps.bind (look_keeps _) fun _ => Keeps.bind (preempt_keeps hC hI.after) fun _ => ?_
  exact Keeps.bind (FlowMeter.set_keeps hflow _) fun _ => Keeps.pure _

/-- `update()` takes the pulses, and a sample where it is due. -/
theorem FlowMeter.update_keeps [CFloat F] (hflow : ∀ s fm, I s → I (s.withFlow fm))
    (hsampled : ∀ s, I s → I (s.logged .sampled)) :
    Keeps I C (FlowMeter.update : Fw F Unit) := by
  have hset : ∀ f, Keeps I C (FlowMeter.set f : Fw F Unit) := FlowMeter.set_keeps hflow
  have hpre : Keeps I C (preempt : Fw F Unit) := preempt_keeps hC hI.after
  refine Keeps.bind (hI.millis hC) fun now => Keeps.bind (look_keeps _) fun fm => ?_
  refine Keeps.ite (Keeps.pure _) ?_
  refine Keeps.bind ?_ fun pulses => ?_
  · exact Keeps.bind (look_keeps _) fun _ => Keeps.bind (hset _) fun _ => Keeps.pure _
  refine Keeps.bind (emit_keeps hsampled) fun _ => Keeps.bind hpre fun _ => ?_
  refine Keeps.bind (hset _) fun _ => Keeps.bind hpre fun _ => Keeps.bind ?_ fun _ => ?_
  · refine Keeps.ite ?_ (hset _)
    exact Keeps.bind (hset _) fun _ => Keeps.bind hpre fun _ => hset _
  · exact Keeps.bind hpre fun _ => hset _

end Unseen

/-! ### `service()` -/

namespace WaterboxFsm

section Service

variable (hI : VerdictStable I) (hC : ∀ s, I s → C s)
include hI

omit hI in
/-- Members of the FSM but its state. -/
theorem set_keeps (hI : ServiceStable I) (f : WaterboxFsm F → WaterboxFsm F)
    (hf : ∀ fsm, (f fsm).state = fsm.state) : Keeps I C (set f) :=
  change_keeps fun s hs => hI.fsm s _ (hf _) hs

omit hI in
/-- `saveIfDue()` is `save()`, or only a look at the store and the clock. -/
theorem saveIfDue_keeps (hI : PortStable I) (hC : ∀ s, I s → C s) (pulses : U32) (v : Bool)
    (ms : U32) (h : Keeps I C (MeterStore.save pulses v : Fw F Unit)) :
    Keeps I C (MeterStore.saveIfDue pulses v ms : Fw F Unit) := by
  refine Keeps.bind (look_keeps _) fun _ => Keeps.ite (Keeps.pure _) ?_
  refine Keeps.bind (hI.millis hC) fun _ => Keeps.bind (look_keeps _) fun _ => ?_
  exact Keeps.ite (Keeps.pure _) h

/-- The members of the LED. -/
theorem ledSet_keeps (f : StatusLed → StatusLed) : Keeps I C (StatusLed.set f : Fw F Unit) :=
  change_keeps fun s hs => hI.led s _ hs

include hC

/-- The LED blinks by the clock. -/
theorem ledUpdate_keeps : Keeps I C (StatusLed.update : Fw F Unit) :=
  Keeps.bind (hI.millis hC) fun _ => ledSet_keeps hI _

variable [CFloat F]

/-- The verdict is cleared, and set again where the modem gives the hour. -/
theorem evaluateSignature_keeps : Keeps I C (evaluateSignature : Fw F Unit) := by
  refine Keeps.bind (fun s hs => hI.verdict s _ _ _ hs) fun _ => ?_
  refine Keeps.bind (look_keeps _) fun b => Keeps.ite ?_ (Keeps.pure _)
  refine Keeps.bind (GsmMqttClient.hourOfDay_keeps hI.toCommandStable hC) fun t => ?_
  cases t with
  | none => exact Keeps.pure _
  | some hod =>
    refine Keeps.bind (change_keeps fun s hs => hI.verdict s _ _ _ hs) fun _ => ?_
    cases b.signature.classify b.flow.litresPerMinute hod with
    | ok => exact Keeps.pure _
    | nightLeak => exact change_keeps fun s hs => hI.verdict s _ _ _ hs
    | overuse => exact change_keeps fun s hs => hI.verdict s _ _ _ hs

/-- `service()` tells the LED what the FSM does. -/
theorem updateLed_keeps : Keeps I C (updateLed : Fw F Unit) :=
  Keeps.bind (look_keeps _) fun _ =>
    Keeps.bind (ledSet_keeps hI _) fun _ => ledUpdate_keeps hI hC

/-- Behind the metering and the saving. -/
theorem service_keeps_of_meter (hmeter : Keeps I C (meterAndSave : Fw F Unit))
    (hserviced : ∀ s since, I s → I (s.logged (.serviced since))) :
    Keeps I C (service : Fw F Unit) := by
  refine Keeps.bind (look_keeps _) fun since => Keeps.bind hmeter fun _ => ?_
  refine Keeps.bind (evaluateSignature_keeps hI hC) fun _ => ?_
  exact Keeps.bind (updateLed_keeps hI hC) fun _ => emit_keeps fun s => hserviced s since

/-- `service()`, given what it does with flow meter and store. -/
theorem service_keeps (hupdate : Keeps I C (FlowMeter.update : Fw F Unit))
    (hdirty : Keeps I C (FlowMeter.consumeDirty : Fw F Bool))
    (hmark : Keeps I C (MeterStore.markDirty : Fw F Unit))
    (hsave : ∀ p v, Keeps I C (MeterStore.save p v : Fw F Unit))
    (hserviced : ∀ s since, I s → I (s.logged (.serviced since))) :
    Keeps I C (service : Fw F Unit) := by
  refine service_keeps_of_meter hI hC ?_ hserviced
  refine Keeps.bind hupdate fun _ => Keeps.bind hdirty fun _ => Keeps.bind (Keeps.when hmark) ?_
  exact fun _ => Keeps.bind (look_keeps _) fun b =>
    saveIfDue_keeps hI.toPortStable hC _ _ _ (hsave _ _)

end Service

/-! ### The states of `tick()` -/

/-- `enter(next)`: what holds with the new state, and survives the event. -/
theorem enter_triple {Q : Sys F → Prop} (st : State)
    (hQ : ∀ s, Q s → Q (s.logged (.entered st)))
    (h : ∀ s, I s → Q (s.withFsm { s.board.fsm with state := st })) :
    Triple I (enter st : Fw F Unit) (fun _ => Q) C :=
  Triple.bind (Q := fun _ => Q) h fun _ => emit_keeps hQ

variable (hI : FsmStable I) (hC : ∀ s, I s → C s)
include hI

/-- A state that is entered. -/
theorem enter_keeps (st : State) : Keeps I C (enter st : Fw F Unit) :=
  enter_triple st (fun s => hI.note s _ rfl) fun s hs => hI.state s st hs

include hC

variable [CFloat F]

/-- What the calls to the FSM's own functions must preserve. -/
structure Kept (I C : Sys F → Prop) : Prop where
  service : Keeps I C (service : Fw F Unit)
  command : ∀ cmd, Keeps I C (onCommand cmd : Fw F Unit)
  fingerprint : ∀ params, Keeps I C (onFingerprint params : Fw F Unit)

omit hI hC in
/-- The three functions that the radio calls back. -/
theorem Kept.handlers (h : Kept I C) : (handlers : GsmMqttClient.Handlers F).Keep I C where
  yield := h.service
  command := h.command
  fingerprint := h.fingerprint

omit hI hC [CFloat F] in
/-- A command drives the valve and saves its position. -/
theorem onCommand_keeps (hopens : Keeps I C (LatchingValve.opens : Fw F Unit))
    (hclose : Keeps I C (LatchingValve.close : Fw F Unit))
    (hpersist : Keeps I C (persistNow : Fw F Unit))
    (hlog : ∀ s cmd, I s → I (s.logged (.commanded cmd))) (cmd : Command) :
    Keeps I C (onCommand cmd : Fw F Unit) := by
  refine Keeps.bind ?_ fun _ => emit_keeps fun s => hlog s cmd
  cases cmd with
  | none => exact Keeps.pure _
  | on => exact Keeps.bind hopens fun _ => hpersist
  | off => exact Keeps.bind hclose fun _ => hpersist

omit hI hC in
/-- The coefficients of a message are used, then saved. -/
theorem onFingerprint_keeps (hI : PortStable I) (hC : ∀ s, I s → C s)
    (heeprom : ∀ s bytes, I s →
      I (s.withEeprom (writeBytes s.board.eeprom MeterStore.eepromFpBase bytes)))
    (hsig : ∀ s sig, I s → I (s.withSignature sig)) (hlog : ∀ s, I s → I (s.logged .fingerprinted))
    (params : Params F) : Keeps I C (onFingerprint params : Fw F Unit) := by
  refine Keeps.bind (change_keeps fun s hs => hsig s _ hs) fun _ => ?_
  refine Keeps.bind (eepromPut_keeps hI hC heeprom _) fun _ => ?_
  exact emit_keeps hlog

omit hI hC [CFloat F] in
/-- A save outside `service()`. -/
theorem persistNow_stable (hI : PortStable I) (hC : ∀ s, I s → C s) (hD : DeviceStable I) :
    Keeps I C (persistNow : Fw F Unit) :=
  Keeps.bind (look_keeps _) fun _ =>
    MeterStore.save_keeps hI hC hD.eeprom hD.store (fun s => hD.own s _ rfl) _ _

omit hI hC in
/-- What looks at none of the objects that `service()` and the handlers work on is preserved by
    them. -/
theorem Kept.of_stable (hI : VerdictStable I) (hC : ∀ s, I s → C s) (hD : DeviceStable I) :
    Kept I C where
  service := by
    refine service_keeps hI hC ?_ ?_ ?_ ?_ fun s _ => hD.own s _ rfl
    · exact FlowMeter.update_keeps hI.toPortStable hC hD.flow fun s => hD.own s _ rfl
    · exact FlowMeter.consumeDirty_keeps hI.toPortStable hC hD.flow
    · exact MeterStore.markDirty_keeps hD.store
    · exact MeterStore.save_keeps hI.toPortStable hC hD.eeprom hD.store fun s => hD.own s _ rfl
  command :=
    onCommand_keeps (LatchingValve.opens_keeps hI.toPortStable hC hD.valve)
      (LatchingValve.close_keeps hI.toPortStable hC hD.valve)
      (persistNow_stable hI.toPortStable hC hD) fun s _ => hD.own s _ rfl
  fingerprint :=
    onFingerprint_keeps hI.toPortStable hC (fun s _ => hD.eeprom s _) hD.signature
      fun s => hD.own s _ rfl

/-- WaitModem: the modem is initialised when the interval is over. -/
theorem tickWaitModem_keeps (hs : Keeps I C (service : Fw F Unit)) (now : U32) :
    Keeps I C (tickWaitModem now : Fw F Unit) := by
  refine Keeps.bind (look_keeps _) fun _ => Keeps.ite ?_ (Keeps.pure _)
  refine Keeps.bind (set_keeps hI.toServiceStable _ fun _ => rfl) fun _ => ?_
  refine Keeps.bind (emit_keeps fun s => hI.note s _ rfl) fun _ => ?_
  refine Keeps.bind (GsmMqttClient.begin_keeps hI.toModemStable hC hs) fun ok => ?_
  refine Keeps.bind (emit_keeps fun s => hI.note s _ rfl) fun _ => ?_
  refine Keeps.ite ?_ (Keeps.pure _)
  exact Keeps.bind (set_keeps hI.toServiceStable _ fun _ => rfl) fun _ => enter_keeps hI _

omit hC [CFloat F] in
/-- Idle goes on to Connect when its interval is over. -/
theorem tickIdle_keeps (now : U32) : Keeps I C (tickIdle now : Fw F Unit) :=
  Keeps.bind (look_keeps _) fun _ => Keeps.ite (enter_keeps hI _) (Keeps.pure _)

/-- Connect: one call of `connect()`, and the state that follows it. -/
theorem tickConnect_keeps (hs : Keeps I C (service : Fw F Unit)) (now : U32) :
    Keeps I C (tickConnect now : Fw F Unit) := by
  refine Keeps.bind (emit_keeps fun s => hI.note s _ rfl) fun _ => ?_
  refine Keeps.bind (GsmMqttClient.connect_keeps hI.toRadioStable hC hs) fun ok => ?_
  refine Keeps.bind (emit_keeps fun s => hI.note s _ rfl) fun _ => ?_
  refine Keeps.ite (enter_keeps hI _) ?_
  exact Keeps.bind (set_keeps hI.toServiceStable _ fun _ => rfl) fun _ => enter_keeps hI _

/-- Listen: messages are taken until the time is over or the session is lost. -/
theorem tickListen_keeps (hk : Kept I C) (now : U32) : Keeps I C (tickListen now : Fw F Unit) := by
  refine Keeps.bind (emit_keeps fun s => hI.note s _ rfl) fun _ => ?_
  refine Keeps.bind (GsmMqttClient.loop_keeps hI.toModemStable hC hk.handlers) fun _ => ?_
  exact Keeps.bind (look_keeps _) fun _ => Keeps.ite (enter_keeps hI _) (Keeps.pure _)

omit [CFloat F] in
/-- Disconnect ends the session and goes on in Idle. -/
theorem tickDisconnect_keeps : Keeps I C (tickDisconnect : Fw F Unit) := by
  refine Keeps.bind (emit_keeps fun s => hI.note s _ rfl) fun _ => ?_
  refine Keeps.bind (GsmMqttClient.disconnect_keeps hI.toModemStable hC) fun _ => ?_
  refine Keeps.bind (hI.millis hC) fun _ => ?_
  exact Keeps.bind (set_keeps hI.toServiceStable _ fun _ => rfl) fun _ => enter_keeps hI _

/-- The invariant survives the records `tick()` publishes. -/
structure Reported (I : Sys F → Prop) : Prop where
  telemetry : ∀ s, I s → I (s.logged (.telemetry s.board.telemetry))
  info : ∀ s, I s → I (s.logged (.info s.board.info))
  heartbeat : ∀ s up, I s → I (s.logged (.heartbeat (s.board.heartbeat up)))
  published : ∀ s topic payload, I s → I (s.logged (.published topic payload))

section Record

variable {Q : Sys F → Prop} (hQ : ModemStable Q) (hQC : ∀ s, Q s → C s)
  (hpub : ∀ s topic payload, Q s → Q (s.logged (.published topic payload)))
include hQ hQC hpub

omit hI hC [CFloat F] in
/-- The record is noted first; then the packet is written. -/
theorem publishInfo_triple (h : ∀ s, I s → Q (s.logged (.info s.board.info))) :
    Triple I (publishInfo : Fw F Bool) (fun _ => Q) C := by
  refine look_bind fun b => Triple.bind (Q := fun _ => Q) ?_ fun _ => ?_
  · rintro s ⟨hs, rfl⟩
    exact h s hs
  · refine Keeps.bind (look_keeps _) fun _ => ?_
    exact PubSubClient.publish_keeps hQ hQC fun s => hpub s _ _

omit hI hC in
/-- The record is that of the moment; the packet is written after it. -/
theorem publishTelemetry_triple (h : ∀ s, I s → Q (s.logged (.telemetry s.board.telemetry))) :
    Triple I (publishTelemetry : Fw F Bool) (fun _ => Q) C := by
  refine look_bind fun b => Triple.bind (Q := fun _ => Q) ?_ fun _ => ?_
  · rintro s ⟨hs, rfl⟩
    exact h s hs
  · refine Keeps.bind (GsmMqttClient.formatTimestamp_keeps hQ.toCommandStable hQC _) fun _ => ?_
    refine Keeps.bind (look_keeps _) fun _ => ?_
    exact PubSubClient.publish_keeps hQ hQC fun s => hpub s _ _

omit hI hC [CFloat F] in
/-- A heartbeat with the uptime of the moment. -/
theorem publishHeartbeat_keeps
    (h : ∀ s up, Q s → Q (s.logged (.heartbeat (s.board.heartbeat up)))) :
    Keeps Q C (publishHeartbeat : Fw F Bool) := by
  refine Keeps.bind (hQ.millis hQC) fun up => ?_
  refine look_bind fun b => Triple.bind (Q := fun _ => Q) ?_ fun _ => ?_
  · rintro s ⟨hs, rfl⟩
    exact h s _ hs
  · refine Keeps.bind (GsmMqttClient.formatTimestamp_keeps hQ.toCommandStable hQC _) fun _ => ?_
    refine Keeps.bind (look_keeps _) fun _ => ?_
    exact PubSubClient.publish_keeps hQ hQC fun s => hpub s _ _

omit hI hC [CFloat F] in
/-- The heartbeat, where its interval is over. -/
theorem heartbeatIfDue_keeps (hS : ServiceStable Q)
    (h : ∀ s up, Q s → Q (s.logged (.heartbeat (s.board.heartbeat up)))) (now : U32) :
    Keeps Q C (heartbeatIfDue now : Fw F Unit) := by
  refine Keeps.bind (look_keeps _) fun _ => Keeps.ite ?_ (Keeps.pure _)
  refine Keeps.bind (publishHeartbeat_keeps hQ hQC hpub h) fun _ => ?_
  exact Keeps.when (set_keeps hS _ fun _ => rfl)

end Record

/-- Publish: the two records, a heartbeat perhaps, and a save. -/
theorem tickPublish_keeps (hr : Reported I) (hpersist : Keeps I C (persistNow : Fw F Unit))
    (now : U32) : Keeps I C (tickPublish now : Fw F Unit) := by
  have hM := hI.toModemStable
  refine Keeps.bind (publishInfo_triple hM hC hr.published hr.info) fun _ => ?_
  refine Keeps.bind (publishTelemetry_triple hM hC hr.published hr.telemetry) fun _ => ?_
  refine Keeps.bind (Keeps.when hpersist) fun _ => ?_
  refine Keeps.bind (heartbeatIfDue_keeps hM hC hr.published hI.toServiceStable hr.heartbeat now)
    fun _ => ?_
  refine Keeps.bind (hI.millis hC) fun _ => ?_
  exact Keeps.bind (set_keeps hI.toServiceStable _ fun _ => rfl) fun _ => enter_keeps hI _

/-! ### Rounds -/

/-- The branch of `tick()` for a state. -/
theorem step_keeps (hk : Kept I C) (hp : ∀ now, Keeps I C (tickPublish now : Fw F Unit))
    (now : U32) (st : State) : Keeps I C (step now st : Fw F Unit) := by
  cases st with
  | haltAuth => exact Keeps.pure _
  | waitModem => exact tickWaitModem_keeps hI hC hk.service now
  | idle => exact tickIdle_keeps hI now
  | connect => exact tickConnect_keeps hI hC hk.service now
  | publish => exact hp now
  | listen => exact tickListen_keeps hI hC hk now
  | disconnect => exact tickDisconnect_keeps hI hC

/-- One call of `tick()`. -/
theorem tick_keeps (hk : Kept I C) (hp : ∀ now, Keeps I C (tickPublish now : Fw F Unit)) :
    Keeps I C (tick : Fw F Unit) := by
  refine Keeps.bind hk.service fun _ => Keeps.bind (hI.millis hC) fun now => ?_
  exact Keeps.bind (look_keeps _) fun fsm => step_keeps hI hC hk hp now fsm.state

/-- Some calls of `tick()`, one after the other. -/
theorem ticks_keeps (hk : Kept I C)
    (hp : ∀ now, Keeps I C (tickPublish now : Fw F Unit)) (n : Nat) :
    Keeps I C (Cut.times tick n : Fw F Unit) :=
  Keeps.times (tick_keeps hI hC hk hp) n

/-! ### `begin()` -/

omit hI hC [CFloat F] in
/-- `load()` returns what the EEPROM holds. -/
theorem load_triple (hC : ∀ s, I s → C s)
    (hafter : ∀ s e rest, s.tape = e :: rest → I s → I (s.after e rest))
    (hstore : ∀ s st, I s → I (s.withStore st)) :
    Triple I (MeterStore.load : Fw F (Option (U32 × Bool)))
      (fun r s => I s ∧ r = MeterStore.stored s.board.eeprom) C := by
  refine Triple.bind (MeterStore.set_keeps hstore _) fun _ => ?_
  refine Triple.bind (millis_keeps hC hafter) fun _ => ?_
  exact Triple.bind (MeterStore.set_keeps hstore _) fun _ s hs => ⟨hs, rfl⟩

section Restore

variable (hafter : ∀ s e rest, s.tape = e :: rest → I s → I (s.after e rest))
include hafter

omit hI [CFloat F] in
/-- The valve is driven to the position that was loaded. -/
theorem restoreValve_keeps (hlater : ∀ s ms, I s → I (s.later ms))
    (hvalve : ∀ s v l, I s → I (s.withValve v l)) (r : Option (U32 × Bool)) :
    Keeps I C (restoreValve r : Fw F Unit) := by
  have hpulse : ∀ ia ib, Keeps I C (LatchingValve.pulse ia ib : Fw F Unit) := by
    intro ia ib
    refine Keeps.bind (look_keeps _) fun ms => ?_
    refine Keeps.bind (delay_keeps hC hafter ms fun s => hlater s ms) fun _ => ?_
    exact change_keeps fun s hs => hvalve s _ _ hs
  have hset : ∀ f, Keeps I C (LatchingValve.set f : Fw F Unit) := fun f =>
    change_keeps fun s hs => hvalve s _ _ hs
  match r with
  | none => exact Keeps.pure _
  | some (_, true) =>
    exact Keeps.bind (look_keeps _) fun _ => Keeps.bind (hpulse _ _) fun _ => hset _
  | some (_, false) =>
    exact Keeps.bind (look_keeps _) fun _ => Keeps.bind (hpulse _ _) fun _ => hset _

omit hI in
/-- The flow meter starts at zero and attaches its interrupt. -/
theorem flowBegin_keeps (hflow : ∀ s fm, I s → I (s.withFlow fm))
    (hattach : ∀ s, I s → I { s with board := { s.board with attached := true, edges := 0 } })
    (ppl : U16) (ms : U32) : Keeps I C (FlowMeter.begin ppl ms : Fw F Unit) := by
  have hset : ∀ f, Keeps I C (FlowMeter.set f : Fw F Unit) := FlowMeter.set_keeps hflow
  refine Keeps.bind (hset _) fun _ => Keeps.bind (millis_keeps hC hafter) fun _ => ?_
  refine Keeps.bind (hset _) fun _ => Keeps.bind (preempt_keeps hC hafter) fun _ => ?_
  exact Keeps.bind (change_keeps hattach) fun _ => preempt_keeps hC hafter

omit hI [CFloat F] in
/-- The total that was loaded is set. -/
theorem restoreTotal_keeps (hflow : ∀ s fm, I s → I (s.withFlow fm)) (r : Option (U32 × Bool)) :
    Keeps I C (restoreTotal r : Fw F Unit) := by
  cases r with
  | none => exact Keeps.pure _
  | some _ => exact Keeps.bind (preempt_keeps hC hafter) fun _ => FlowMeter.set_keeps hflow _

omit hI hC hafter in
/-- The coefficients are loaded, and used where the image is whole. -/
theorem restoreSignature_keeps (hsig : ∀ s sig, I s → I (s.withSignature sig))
    (fp : Option (Params F)) : Keeps I C (restoreSignature fp : Fw F Unit) := by
  cases fp with
  | none => exact Keeps.pure _
  | some params =>
    simp only [restoreSignature]
    exact change_keeps fun s hs => hsig s _ hs

omit hI in
/-- What `begin()` restores after the valve. -/
theorem restoreRest_keeps (hflow : ∀ s fm, I s → I (s.withFlow fm))
    (hattach : ∀ s, I s → I { s with board := { s.board with attached := true, edges := 0 } })
    (hsig : ∀ s sig, I s → I (s.withSignature sig)) (r : Option (U32 × Bool)) :
    Keeps I C (do
      FlowMeter.begin pulsesPerLiter Settings.flowSampleMs
      restoreTotal r
      let fp ← MeterStore.loadFingerprint
      restoreSignature fp : Fw F Unit) := by
  refine Keeps.bind (flowBegin_keeps hC hafter hflow hattach _ _) fun _ => ?_
  refine Keeps.bind (restoreTotal_keeps hC hafter hflow r) fun _ => ?_
  exact Keeps.bind (look_keeps _) fun fp => restoreSignature_keeps hsig fp

omit hI in
/-- An invariant of the log alone survives the restoring. -/
theorem restore_keeps (hlater : ∀ s ms, I s → I (s.later ms))
    (hvalve : ∀ s v l, I s → I (s.withValve v l)) (hflow : ∀ s fm, I s → I (s.withFlow fm))
    (hattach : ∀ s, I s → I { s with board := { s.board with attached := true, edges := 0 } })
    (hstore : ∀ s st, I s → I (s.withStore st)) (hsig : ∀ s sig, I s → I (s.withSignature sig)) :
    Keeps I C (restore : Fw F Unit) := by
  have hload : Keeps I C (MeterStore.load : Fw F (Option (U32 × Bool))) :=
    (load_triple hC hafter hstore).conseq (fun _ h => h) (fun _ _ h => h.1) (fun _ h => h)
  refine Keeps.bind hload fun r => ?_
  refine Keeps.bind (restoreValve_keeps hC hafter hlater hvalve r) fun _ => ?_
  exact restoreRest_keeps hC hafter hflow hattach hsig r

end Restore

/-- The system where `begin()` starts to restore. -/
def cleared (s : Sys F) : Sys F :=
  { s with board :=
      { s.board with
        fsm := reset
        led := { mode := .error, flowing := false, lit := true }
        valve :=
          { speed := Settings.valveSpeed, pulseMs := Settings.valvePulseMs, isOpen := false } } }

omit hI hC in
/-- The constructors and the first statements of `begin()`. -/
theorem begin_cleared {Q : Unit → Sys F → Prop}
    (h : Triple (fun s => ∃ s₀, P s₀ ∧ s = cleared s₀) (do
      restore
      if GsmMqttClient.authConfigured then
        enter .waitModem
        let now ← millis
        set fun fsm => { fsm with lastModemTryMs := now - Settings.simRetryMs }
      else enter .haltAuth : Fw F Unit) Q C) : Triple P (begin : Fw F Unit) Q C := by
  refine Triple.bind (Q := fun _ s => ∃ s₀, P s₀ ∧
    s = { s₀ with board := { s₀.board with fsm := reset } }) (fun s hs => ⟨s, hs, rfl⟩) fun _ => ?_
  refine Triple.bind (Q := fun _ s => ∃ s₀, P s₀ ∧ s = { s₀ with board := { s₀.board with
    fsm := reset, led := { mode := .error, flowing := false, lit := true } } }) ?_ fun _ => ?_
  · rintro _ ⟨s₀, hs, rfl⟩
    exact ⟨s₀, hs, rfl⟩
  refine Triple.bind (Q := fun _ s => ∃ s₀, P s₀ ∧ s = cleared s₀) ?_ fun _ => h
  rintro _ ⟨s₀, hs, rfl⟩
  exact ⟨s₀, hs, rfl⟩

/-- `begin()` from what the restoring establishes. -/
theorem begin_triple (h : Triple (fun s => ∃ s₀, P s₀ ∧ s = cleared s₀) restore (fun _ => I) C) :
    Triple P (begin : Fw F Unit) (fun _ => I) C := by
  refine begin_cleared (Triple.bind h fun _ => Keeps.ite ?_ (enter_keeps hI _))
  refine Keeps.bind (enter_keeps hI _) fun _ => Keeps.bind (hI.millis hC) fun _ => ?_
  exact set_keeps hI.toServiceStable _ fun _ => rfl

omit hI hC in
/-- What `begin()` adds to the log are notes of the FSM. -/
theorem begin_grown {K : Event F × Board F → Prop} (hK : ∀ ev b, ev.isNote = true → K (ev, b))
    (s : Sys F) : Grown K s.log (begin s).2 := by
  have hI : FsmStable (Grown K s.log) := Grown.fsmStable hK
  have hC : ∀ t, Grown K s.log t → Grown K s.log t := fun _ h => h
  refine wp_snd (begin_triple (P := Grown K s.log) hI hC ?_ s (Grown.refl s))
  refine Triple.conseq (restore_keeps (I := Grown K s.log) hC (fun _ _ _ _ h => h)
    (fun _ _ h => h) (fun _ _ _ h => h) (fun _ _ h => h) (fun _ h => h) (fun _ _ h => h)
    fun _ _ h => h) ?_ (fun _ _ h => h) (fun _ h => h)
  rintro _ ⟨s₀, h, rfl⟩
  exact h

/-- `begin()` and some calls of `tick()`. -/
theorem firmware_triple (h : Triple (fun s => ∃ s₀, P s₀ ∧ s = cleared s₀) restore (fun _ => I) C)
    (hk : Kept I C) (hp : ∀ now, Keeps I C (tickPublish now : Fw F Unit)) (n : Nat) :
    Triple P (firmware n : Fw F Unit) (fun _ => I) C :=
  Triple.bind (begin_triple hI hC h) fun _ => ticks_keeps hI hC hk hp n

end WaterboxFsm

/-! ### Lives -/

/-- What every boot preserves holds after every life. -/
theorem life_induction [CFloat F] {J : Sys F → Prop} {ok : Sys F → Boot → Prop}
    (hboot : ∀ s b, J s → ok s b → J (s.boot b).2) (boots : List Boot) (s : Sys F) (hs : J s)
    (hok : ∀ k (hk : k < boots.length), ok (life (boots.take k) s) boots[k]) :
    J (life boots s) := by
  induction boots generalizing s with
  | nil => exact hs
  | cons b boots ih =>
    have hfirst : J (s.boot b).2 := hboot s b hs (hok 0 (Nat.succ_pos _))
    exact ih (s.boot b).2 hfirst fun k hk => hok (k + 1) (Nat.succ_lt_succ hk)

end Waterbox
