import Waterbox.Firmware.ConsumptionSignature
import Waterbox.Firmware.FlowMeter
import Waterbox.Firmware.GsmMqttClient
import Waterbox.Firmware.LatchingValve
import Waterbox.Firmware.MeterStore

namespace Waterbox

/-!
# `WaterboxFsm.cpp`, `StatusLed.cpp`

`begin` and `tick`, and the runs built from them: one boot of the device (`firmware`), and a
life of several boots between which only the EEPROM and the position of the latch survive
(`life`).
-/

variable {F : Type} [CFloat F]

namespace StatusLed

def reset : StatusLed where
  mode := .error
  flowing := false
  lit := false

def set (f : StatusLed → StatusLed) : Fw F Unit := change fun b => { b with led := f b.led }

def begin : Fw F Unit := set fun _ => { mode := .error, flowing := false, lit := true }

def update : Fw F Unit := do
  let now ← millis
  set fun led =>
    let phase := now.toNat % 2000
    { led with
      lit :=
        match led.mode with
        | .radio => true
        | .error => now.toNat / 200 % 2 = 1
        -- one short flash in two seconds, a second one while water flows
        | .idle => phase < 80 || (led.flowing && 250 ≤ phase && phase < 330) }

end StatusLed

/-! ### The values that are published -/

/-- The arguments `tick()` passes to `publishTelemetry`. -/
def Board.telemetry (b : Board F) : Telemetry F where
  imei := b.radio.imeicode
  litresPerMinute := b.flow.litresPerMinute
  intervalMl := b.flow.intervalMilliLitres
  totalMl := b.flow.totalMilliLitres
  valveOpen := b.valve.isOpen
  modelLm := b.fsm.modelLm
  leak := b.fsm.leakFlag
  overuse := b.fsm.overFlag

/-- `pulsesPerLiter()`. -/
def WaterboxFsm.pulsesPerLiter : U16 :=
  if Settings.flowSensorReed then Settings.pulsesPerLiterReed else Settings.pulsesPerLiterHall

/-- The arguments `tick()` passes to `publishInfo`. -/
def Board.info (b : Board F) : Info where
  imei := b.radio.imeicode
  pulsesPerLiter := WaterboxFsm.pulsesPerLiter
  reed := Settings.flowSensorReed
  valveOpen := b.valve.isOpen
  signatureValid := b.signature.valid

/-- The arguments `tick()` passes to `publishHeartbeat`. -/
def Board.heartbeat (b : Board F) (uptimeS : U32) : Heartbeat where
  imei := b.radio.imeicode
  uptimeS := uptimeS
  totalMl := b.flow.totalMilliLitres
  valveOpen := b.valve.isOpen
  signatureValid := b.signature.valid
  leak := b.fsm.leakFlag
  overuse := b.fsm.overFlag

namespace WaterboxFsm

/-- The members as the loader leaves them. -/
def reset : WaterboxFsm F where
  state := .waitModem
  lastPublishMs := 0
  lastHeartbeatMs := 0
  listenStartMs := 0
  lastModemTryMs := 0
  modelLm := CFloat.ofRat 0
  leakFlag := 0
  overFlag := 0

def set (f : WaterboxFsm F → WaterboxFsm F) : Fw F Unit := change fun b => { b with fsm := f b.fsm }

/-- `evaluateSignature()` clears the last verdict first. -/
def clearVerdict : Fw F Unit :=
  set fun fsm => { fsm with modelLm := CFloat.ofRat 0, leakFlag := 0, overFlag := 0 }

/-- The verdict on the flow, where the signature is valid and the clock of the modem is set. -/
def verdict : Fw F Unit := do
  let b ← look id
  if b.signature.valid then
    match ← GsmMqttClient.hourOfDay with
    | none => pure ()
    | some hod =>
      set fun fsm => { fsm with modelLm := b.signature.predict hod }
      match b.signature.classify b.flow.litresPerMinute hod with
      | .nightLeak => set fun fsm => { fsm with leakFlag := 1 }
      | .overuse => set fun fsm => { fsm with overFlag := 1 }
      | .ok => pure ()
  else pure ()

/-- The verdict of this call alone: one that was not renewed is gone. -/
def evaluateSignature : Fw F Unit := do
  clearVerdict
  verdict

/-- The LED mode `service()` selects for a state. -/
def ledMode : State → LedMode
  | .haltAuth | .waitModem => .error
  | .listen | .publish | .connect => .radio
  | .idle | .disconnect => .idle

/-- `service()` before `evaluateSignature()`. -/
def meterAndSave : Fw F Unit := do
  FlowMeter.update
  let dirty ← FlowMeter.consumeDirty
  Cut.when dirty MeterStore.markDirty
  let b ← look id
  MeterStore.saveIfDue b.flow.totalPulses b.valve.isOpen Settings.eepromSaveMs

/-- `service()` after it. -/
def updateLed : Fw F Unit := do
  let b ← look id
  StatusLed.set fun led =>
    { led with
      flowing := CFloat.lt (CFloat.ofRat (5 / 100)) b.flow.litresPerMinute
      mode := ledMode b.fsm.state }
  StatusLed.update

/-- What runs in every round, and in the pauses of a waiting radio as its `yield` callback. -/
def service : Fw F Unit := do
  -- `since` is for the log: when this call began
  let since ← look (·.time)
  meterAndSave
  evaluateSignature
  updateLed
  emit (.serviced since)

/-- The total and the position of the valve, as they are now. -/
def persistNow : Fw F Unit := do
  let b ← look id
  MeterStore.save b.flow.totalPulses b.valve.isOpen

/-- A change of state, for the log. -/
def enter (next : State) : Fw F Unit := do
  set fun fsm => { fsm with state := next }
  emit (.entered next)

/-- A command moves the valve and is saved at once; `none` does neither. -/
def actuate : Command → Fw F Unit
  | .on => do
    LatchingValve.opens
    persistNow
  | .off => do
    LatchingValve.close
    persistNow
  | .none => pure ()

/-- The command handler of the radio. -/
def onCommand (cmd : Command) : Fw F Unit := do
  actuate cmd
  emit (.commanded cmd)

/-- The fingerprint handler of the radio: the parameters are in use at once, and saved. -/
def onFingerprint (params : Params F) : Fw F Unit := do
  change fun b => { b with signature := .setParams params }
  MeterStore.saveFingerprint params
  emit .fingerprinted

/-- The functions `begin()` attaches to the radio. -/
def handlers : GsmMqttClient.Handlers F where
  yield := service
  command := onCommand
  fingerprint := onFingerprint

/-- `begin()`: the valve takes the position that was loaded. -/
def restoreValve : Option (U32 × Bool) → Fw F Unit
  | some (_, valveOpen) => LatchingValve.apply valveOpen
  | none => pure ()

/-- `begin()`: the flow meter takes the total that was loaded. -/
def restoreTotal : Option (U32 × Bool) → Fw F Unit
  | some (pulses, _) => FlowMeter.setTotalPulses pulses
  | none => pure ()

/-- `begin()`: the signature takes the parameters that were loaded. -/
def restoreSignature : Option (Params F) → Fw F Unit
  | some fp => change fun b => { b with signature := .setParams fp }
  | none => pure ()

/-- The part of `begin()` that brings back what the EEPROM holds. -/
def restore : Fw F Unit := do
  let restored ← MeterStore.load
  restoreValve restored
  FlowMeter.begin pulsesPerLiter Settings.flowSampleMs
  restoreTotal restored
  let fp ← MeterStore.loadFingerprint
  restoreSignature fp

def begin : Fw F Unit := do
  set fun _ => reset
  StatusLed.begin
  LatchingValve.begin Settings.valveSpeed Settings.valvePulseMs
  restore
  if GsmMqttClient.authConfigured then
    enter .waitModem
    let now ← millis
    -- the first try is due at once
    set fun fsm => { fsm with lastModemTryMs := now - Settings.simRetryMs }
  -- without credentials the radio stays off for good
  else enter .haltAuth

/-! ### `tick`, one state at a time -/

/-- WaitModem: `radio_.begin()` every `SIM_RETRY_MS` until it succeeds. -/
def tickWaitModem (now : U32) : Fw F Unit := do
  let fsm ← look (·.fsm)
  if Settings.simRetryMs ≤ now - fsm.lastModemTryMs then
    set fun fsm => { fsm with lastModemTryMs := now }
    emit .radioBegin
    let ok ← GsmMqttClient.begin handlers
    emit (.radioBegun ok)
    if ok then
      set fun fsm =>
        { fsm with
          -- both are due at once
          lastPublishMs := now - Settings.publishIntervalMs
          lastHeartbeatMs := now - Settings.heartbeatIntervalMs }
      enter .idle
    else pure ()
  else pure ()

/-- Idle: until the next record is due. -/
def tickIdle (now : U32) : Fw F Unit := do
  let fsm ← look (·.fsm)
  if Settings.publishIntervalMs ≤ now - fsm.lastPublishMs then enter .connect else pure ()

/-- Connect: on to Publish, or back to Idle. -/
def tickConnect (now : U32) : Fw F Unit := do
  emit .radioConnect
  let ok ← GsmMqttClient.connect handlers
  emit (.radioConnected ok)
  if ok then enter .publish
  else
    -- `now` is the start of the round, before the tries
    set fun fsm => { fsm with lastPublishMs := now }
    enter .idle

/-- The calls of `publishTelemetry`, `publishInfo` and `publishHeartbeat` with the values of the
    moment. -/
def publishTelemetry : Fw F Bool := do
  let b ← look id
  GsmMqttClient.publishTelemetry b.telemetry

def publishInfo : Fw F Bool := do
  let b ← look id
  GsmMqttClient.publishInfo b.info

def publishHeartbeat : Fw F Bool := do
  let up ← millis
  let b ← look id
  GsmMqttClient.publishHeartbeat (b.heartbeat (up / 1000))

/-- The heartbeat of the Publish state, where one is due. -/
def heartbeatIfDue (now : U32) : Fw F Unit := do
  let fsm ← look (·.fsm)
  if Settings.heartbeatIntervalMs ≤ now - fsm.lastHeartbeatMs then
    let ok ← publishHeartbeat
    -- a heartbeat that failed is due again in the next cycle
    Cut.when ok (set fun fsm => { fsm with lastHeartbeatMs := now })
  else pure ()

/-- Publish: info, telemetry and, where it is due, a heartbeat. -/
def tickPublish (now : U32) : Fw F Unit := do
  let _ ← publishInfo
  let ok ← publishTelemetry
  -- what the cloud was told survives a power cut
  Cut.when ok persistNow
  heartbeatIfDue now
  let start ← millis
  set fun fsm => { fsm with listenStartMs := start }
  enter .listen

/-- Listen: `radio_.loop()` until the window for commands is over. -/
def tickListen (now : U32) : Fw F Unit := do
  emit .radioLoop
  let _ ← GsmMqttClient.loop handlers
  let fsm ← look (·.fsm)
  if Settings.cmdListenMs ≤ now - fsm.listenStartMs then enter .disconnect else pure ()

/-- Disconnect: the radio goes down, and the pause in Idle begins. -/
def tickDisconnect : Fw F Unit := do
  emit .radioDisconnect
  GsmMqttClient.disconnect
  -- the time after the radio has gone down
  let now ← millis
  set fun fsm => { fsm with lastPublishMs := now }
  enter .idle

/-- The `switch` of `tick()`. -/
def step (now : U32) : State → Fw F Unit
  | .haltAuth => pure ()
  | .waitModem => tickWaitModem now
  | .idle => tickIdle now
  | .connect => tickConnect now
  | .publish => tickPublish now
  | .listen => tickListen now
  | .disconnect => tickDisconnect

/-- One round of `loop()`: `now` is read after `service()`. -/
def tick : Fw F Unit := do
  service
  let now ← millis
  let fsm ← look (·.fsm)
  step now fsm.state

/-! ### Runs -/

/-- `setup()` and the first `n` rounds of `loop()`. -/
def firmware (n : Nat) : Fw F Unit := do
  begin
  Cut.times tick n

end WaterboxFsm

/-- The board when power comes up: RAM as the loader and the constructors leave it, the clock
    at `start`; EEPROM and latch are what they were. -/
def Board.powerUp (eeprom : Nat → U8) (latchOpen : Bool) (start : Nat) : Board F where
  fsm := .reset
  flow := .reset
  valve := .reset
  store := { dirty := false, lastSaveMs := 0 }
  led := .reset
  radio := .reset
  signature := .clear
  eeprom := eeprom
  latchOpen := latchOpen
  time := start
  attached := false
  edges := 0

/-- The system when power comes up with nothing logged before. -/
def Sys.powerUp (eeprom : Nat → U8) (latchOpen : Bool) (start : Nat) (tape : List Env) : Sys F where
  board := .powerUp eeprom latchOpen start
  tape := tape
  log := []

/-- One boot: where the clock starts, what the environment does until the power fails (or the
    observation ends), and how many rounds of `loop()` are run at most. -/
structure Boot where
  start : Nat
  tape : List Env
  rounds : Nat

/-- Power comes up on what the last boot left in EEPROM and latch. -/
def Sys.powerOn (s : Sys F) (b : Boot) : Sys F where
  board := .powerUp s.board.eeprom s.board.latchOpen b.start
  tape := b.tape
  log := s.log

/-- Power comes up and the firmware runs. -/
def Sys.boot (s : Sys F) (b : Boot) : Option Unit × Sys F :=
  WaterboxFsm.firmware b.rounds (s.powerOn b)

/-- A life of the device: one boot after the other. -/
def life (boots : List Boot) (s : Sys F) : Sys F :=
  boots.foldl (fun s b => (s.boot b).2) s

end Waterbox
