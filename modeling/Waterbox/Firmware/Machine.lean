import Waterbox.Lib.Calendar
import Waterbox.Lib.Cut
import Waterbox.Firmware.Device

namespace Waterbox

/-!
# The machine the firmware runs on

A run of the firmware is a computation `Fw F` on a state `Sys F`:

* `Board` — the RAM of the firmware's objects, and the world around the processor that the
  firmware acts on: the EEPROM, the valve's latch, the clock, the flow sensor's interrupt.
* `Env` — what the environment does during one step of the main program: how much time passes,
  how many pulses the flow sensor delivers, and what the modem, the broker or the real-time
  clock answers where the step asks for something.
* `tape` — the `Env`s still to come.  A step that finds the tape empty is cut off: the power is
  lost there.  Letting the tape range over all lists gives every behaviour of the environment
  and every place where the power can fail.
* `log` — what happened, newest first, each event with the board at that moment.

`next` is the one step on which time passes; it is also the only point where the flow sensor's
interrupt is served, so the main program calls it (through `millis`, `delay`, `preempt`, an
exchange with the modem, …) wherever the source lets interrupts in.
-/

/-- An MQTT packet received from the broker. -/
inductive Packet
  | connack (code : U8)
  | publish (qos1 : Bool) (topic payload : CString)
  | pingreq
  | pingresp
  /-- Any other packet, of `len` bytes in all, with its fourth byte. -/
  | other (len : Nat) (byte3 : U8)

/-- The environment's share in one step. -/
structure Env where
  /-- Milliseconds that pass. -/
  elapsed : Nat := 0
  /-- Falling edges on the flow pin. -/
  pulses : Nat := 0
  /-- Whether the modem sent the reply that was waited for. -/
  ok : Bool := true
  /-- Whether the reply's text has the form that is looked for in it. -/
  found : Bool := true
  /-- The modem's clock, as `year(t)` … `second(t)` of the Time library give it; `none` where
      `RTCget` gives 0. -/
  rtc : Option DateTime := none
  imei : CString := []
  rssi : Int := 99
  /-- Whether the client's receive buffer holds a byte. -/
  available : Bool := false
  /-- The packet that arrives; `none` for a timeout or an oversized packet. -/
  packet : Option Packet := none
  /-- Whether the serial port took all bytes of a packet. -/
  written : Bool := true
  /-- The power is lost after this many bytes of an EEPROM write. -/
  torn : Option Nat := none

/-- RAM and surroundings. -/
structure Board (F : Type) where
  fsm : WaterboxFsm F
  flow : FlowMeter F
  valve : LatchingValve
  store : MeterStore
  led : StatusLed
  radio : GsmMqttClient
  signature : ConsumptionSignature F
  eeprom : Nat → U8
  /-- Whether the latch of the valve is in its open position. -/
  latchOpen : Bool
  /-- The clock that `millis()` shows modulo `2 ^ 32`. -/
  time : Nat
  /-- Whether `attachInterrupt` has been called, and the pulses since then. -/
  attached : Bool
  edges : Nat

/-- The arguments of `publishTelemetry`. -/
structure Telemetry (F : Type) where
  imei : CString
  litresPerMinute : F
  intervalMl : U32
  totalMl : U32
  valveOpen : Bool
  modelLm : F
  leak : U8
  overuse : U8

/-- The arguments of `publishInfo`. -/
structure Info where
  imei : CString
  pulsesPerLiter : U16
  reed : Bool
  valveOpen : Bool
  signatureValid : Bool

/-- The arguments of `publishHeartbeat`. -/
structure Heartbeat where
  imei : CString
  uptimeS : U32
  totalMl : U32
  valveOpen : Bool
  signatureValid : Bool
  leak : U8
  overuse : U8

/-- What an observer of the device sees. -/
inductive Event (F : Type)
  /-- An exchange with the modem starts: the text (an AT command, before which the pending input
      is discarded, or the escape sequence) is written to its serial port. -/
  | atCommand (command : CString)
  /-- The MQTT client has written a packet other than PUBLISH to the serial port. -/
  | mqttWrite
  /-- The MQTT client has handed a PUBLISH packet to the connection. -/
  | published (topic payload : CString)
  | telemetry (record : Telemetry F)
  | info (record : Info)
  | heartbeat (record : Heartbeat)
  /-- `radio_.begin()`, `connect()`, `disconnect()` and `loop()` are called, and the first two
      return. -/
  | radioBegin
  | radioBegun (ok : Bool)
  | radioConnect
  | radioConnected (ok : Bool)
  | radioDisconnect
  | radioLoop
  /-- `enter(next)`. -/
  | entered (next : State)
  /-- A sample of the flow meter is taken. -/
  | sampled
  /-- The image of pulses and valve has been written. -/
  | saved
  /-- `onCommand` resp. `onFingerprint` returns. -/
  | commanded (cmd : Command)
  | fingerprinted
  /-- A call of `service()` that began at the time `since` returns. -/
  | serviced (since : Nat)

structure Sys (F : Type) where
  board : Board F
  tape : List Env
  log : List (Event F × Board F)

/-- Firmware code. -/
abbrev Fw (F : Type) : Type → Type := Cut (Sys F)

variable {F : Type}

/-! ### Time and interrupts -/

/-- `FlowMeter::onPulse`. -/
def FlowMeter.onPulse (fm : FlowMeter F) : FlowMeter F :=
  { fm with pulseCount := fm.pulseCount + 1 }

/-- `n` pulses add `n` to the counter and change nothing else. -/
theorem FlowMeter.onPulse_iterate (fm : FlowMeter F) (n : Nat) :
    FlowMeter.onPulse^[n] fm = { fm with pulseCount := fm.pulseCount + BitVec.ofNat 32 n } := by
  induction n generalizing fm with
  | zero => simp
  | succ n ih =>
    rw [Function.iterate_succ_apply, ih, onPulse]
    congr 1
    rw [BitVec.add_assoc, BitVec.ofNat_add, BitVec.add_comm (1 : U32)]
    rfl

/-- The board after a step of the environment: the interrupt counts the pulses that arrived. -/
def Board.after (b : Board F) (e : Env) : Board F :=
  if b.attached then
    { b with
      time := b.time + e.elapsed
      edges := b.edges + e.pulses
      flow := FlowMeter.onPulse^[e.pulses] b.flow }
  else
    { b with time := b.time + e.elapsed }

section After

variable (b : Board F) (e : Env)

@[simp] theorem Board.after_fsm : (b.after e).fsm = b.fsm := by unfold Board.after; split <;> rfl

@[simp] theorem Board.after_valve : (b.after e).valve = b.valve := by
  unfold Board.after; split <;> rfl

@[simp] theorem Board.after_store : (b.after e).store = b.store := by
  unfold Board.after; split <;> rfl

@[simp] theorem Board.after_radio : (b.after e).radio = b.radio := by
  unfold Board.after; split <;> rfl

@[simp] theorem Board.after_signature : (b.after e).signature = b.signature := by
  unfold Board.after; split <;> rfl

@[simp] theorem Board.after_eeprom : (b.after e).eeprom = b.eeprom := by
  unfold Board.after; split <;> rfl

@[simp] theorem Board.after_latchOpen : (b.after e).latchOpen = b.latchOpen := by
  unfold Board.after; split <;> rfl

/-- An interrupt is all that can change the flow meter. -/
theorem Board.after_flow : ∃ n, (b.after e).flow = FlowMeter.onPulse^[n] b.flow := by
  unfold Board.after
  split
  · exact ⟨e.pulses, rfl⟩
  · exact ⟨0, rfl⟩

@[simp] theorem Board.after_totalPulses : (b.after e).flow.totalPulses = b.flow.totalPulses := by
  obtain ⟨n, hn⟩ := b.after_flow e
  rw [hn, FlowMeter.onPulse_iterate]

@[simp] theorem Board.after_dirty : (b.after e).flow.dirty = b.flow.dirty := by
  obtain ⟨n, hn⟩ := b.after_flow e
  rw [hn, FlowMeter.onPulse_iterate]

@[simp] theorem Board.after_litresPerMinute :
    (b.after e).flow.litresPerMinute = b.flow.litresPerMinute := by
  obtain ⟨n, hn⟩ := b.after_flow e
  rw [hn, FlowMeter.onPulse_iterate]

@[simp] theorem Board.after_intervalMilliLitres :
    (b.after e).flow.intervalMilliLitres = b.flow.intervalMilliLitres := by
  obtain ⟨n, hn⟩ := b.after_flow e
  rw [hn, FlowMeter.onPulse_iterate]

@[simp] theorem Board.after_pulsesPerLiter :
    (b.after e).flow.pulsesPerLiter = b.flow.pulsesPerLiter := by
  obtain ⟨n, hn⟩ := b.after_flow e
  rw [hn, FlowMeter.onPulse_iterate]

@[simp] theorem Board.after_time : (b.after e).time = b.time + e.elapsed := by
  unfold Board.after; split <;> rfl

end After

/-- The system after the first step of the tape. -/
def Sys.after (s : Sys F) (e : Env) (rest : List Env) : Sys F :=
  { s with board := s.board.after e, tape := rest }

/-- With the interrupt attached, each pulse of the step is counted. -/
theorem Sys.board_after_of_attached {s : Sys F} (h : s.board.attached = true) (e : Env)
    (rest : List Env) : (s.after e rest).board = { s.board with
      time := s.board.time + e.elapsed
      edges := s.board.edges + e.pulses
      flow := FlowMeter.onPulse^[e.pulses] s.board.flow } := by
  simp only [Sys.after, Board.after, h, if_true]

/-- One step of the environment; with an empty tape the power is lost. -/
def next : Fw F Env := fun s =>
  match s.tape with
  | [] => (none, s)
  | e :: rest => (some e, s.after e rest)

/-- A point between two statements where an interrupt can strike. -/
def preempt : Fw F Unit := do
  let _ ← next
  pure ()

/-- A part of the board. -/
def look {α : Type} (f : Board F → α) : Fw F α := Cut.read fun s => f s.board

/-- A statement that changes the board. -/
def change (f : Board F → Board F) : Fw F Unit := Cut.update fun s => { s with board := f s.board }

/-- Record an event. -/
def emit (ev : Event F) : Fw F Unit := Cut.update fun s => { s with log := (ev, s.board) :: s.log }

/-- `millis()`. -/
def millis : Fw F U32 := do
  let _ ← next
  look fun b => BitVec.ofNat 32 b.time

/-- `delay(ms)`, which lasts at least `ms`. -/
def delay (ms : Nat) : Fw F Unit := do
  let _ ← next
  change fun b => { b with time := b.time + ms }

/-- A loop of the firmware that ends when its body yields a value.  Its body takes a step of
    the environment in every round, so the tape bounds the rounds. -/
def forever {α : Type} (body : Fw F (Option α)) : Fw F α :=
  Cut.repeatUntil (fun s => s.tape.length) body

/-! ### EEPROM -/

/-- The EEPROM after `bytes` have been written at `base`. -/
def writeBytes (eeprom : Nat → U8) (base : Nat) (bytes : List U8) : Nat → U8 := fun a =>
  if base ≤ a then (bytes[a - base]?).getD (eeprom a) else eeprom a

/-- `n` bytes of the EEPROM from `base`. -/
def readBytes (eeprom : Nat → U8) (base n : Nat) : List U8 :=
  (List.range n).map fun i => eeprom (base + i)

/-- `EEPROM.put(base, image)`: the bytes are written in ascending order, and the power can fail
    after any of them. -/
def eepromPut (base : Nat) (image : List U8) : Fw F Unit := do
  let e ← next
  match e.torn with
  | none => change fun b => { b with eeprom := writeBytes b.eeprom base image }
  -- the power fails after `k` bytes
  | some k => do
    change fun b => { b with eeprom := writeBytes b.eeprom base (image.take k) }
    Cut.halt

theorem readBytes_writeBytes (eeprom : Nat → U8) (base : Nat) (bytes : List U8) :
    readBytes (writeBytes eeprom base bytes) base bytes.length = bytes := by
  apply List.ext_getElem?
  intro i
  simp only [readBytes, writeBytes, List.getElem?_map]
  by_cases hi : i < bytes.length
  · simp [hi]
  · simp [hi]

/-- Writing below or above a range leaves it alone. -/
theorem readBytes_writeBytes_disjoint (eeprom : Nat → U8) (base base' n : Nat) (bytes : List U8)
    (h : base + bytes.length ≤ base' ∨ base' + n ≤ base) :
    readBytes (writeBytes eeprom base bytes) base' n = readBytes eeprom base' n := by
  simp only [readBytes, List.map_inj_left, List.mem_range]
  intro i hi
  simp only [writeBytes]
  rcases h with h | h
  · rw [if_pos (by omega), List.getElem?_eq_none (by omega)]
    rfl
  · rw [if_neg (by omega)]

end Waterbox
