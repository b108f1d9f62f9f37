import Waterbox.Lib.Text
import Waterbox.Firmware.PubSubClient

namespace Waterbox

/-!
# `GsmMqttClient.cpp`

The radio: SIM800 and MQTT client, the texts that are published, and the parsing of what
arrives.  The function pointers the FSM attaches are the fields of `Handlers`.
-/

open Text

namespace GsmMqttClient

variable {F : Type} [CFloat F]

/-- `yield_`, `handler_` and `fingerprintHandler_`. -/
structure Handlers (F : Type) where
  yield : Fw F Unit
  command : Command → Fw F Unit
  fingerprint : Params F → Fw F Unit

/-- `sizeof(msg_)`. -/
def msgSize : Nat := 180

/-- The object as its constructor leaves it. -/
def reset : GsmMqttClient where
  modem := Sim800.reset
  mqtt := PubSubClient.reset
  imeicode := []
  topicData := []
  topicCmd := []
  topicInfo := []
  topicFp := []
  topicHb := []
  rssi := 99

def set (f : GsmMqttClient → GsmMqttClient) : Fw F Unit :=
  change fun b => { b with radio := f b.radio }

/-- `snprintf` into a buffer of `n` bytes. -/
def snprintf (n : Nat) (text : CString) : CString := text.take (n - 1)

/-- `wait(ms)`. -/
def wait (h : Handlers F) (ms : U32) : Fw F Unit := do
  let start ← millis
  forever do
    let now ← millis
    -- `service()` goes on while the radio waits
    if now - start < ms then
      h.yield
      pure none
    else pure (some ())

def authConfigured : Bool :=
  if Settings.mqttAllowAnonymous then true
  else !Settings.mqttUser.isEmpty && !Settings.mqttPass.isEmpty

/-! ### Texts -/

/-- The topic `waterbox/<imei>/<leaf>`, in a buffer of 40 bytes. -/
def topic (imei leaf : CString) : CString :=
  snprintf 40 (Settings.topicRoot ++ '/' :: imei ++ '/' :: leaf)

def buildTopics (c : GsmMqttClient) : GsmMqttClient :=
  { c with
    topicData := topic c.imeicode "data".toList
    topicCmd := topic c.imeicode "cmd".toList
    topicInfo := topic c.imeicode "info".toList
    topicFp := topic c.imeicode "fp".toList
    topicHb := topic c.imeicode "hb".toList }

/-- What `formatTimestamp` writes for the time `RTCget` gave. -/
def timestamp : Option DateTime → CString
  | none => "unset".toList
  | some t => t.iso

/-- `formatTimestamp(out, n)`. -/
def formatTimestamp (n : Nat) : Fw F CString := do
  let t ← Sim800.rtcGet
  pure (snprintf n (timestamp t))

def flag (b : Bool) : CString := if b then ['1'] else ['0']

/-- The text of `publishTelemetry`. -/
def telemetryText (r : Telemetry F) (ts : CString) : CString :=
  "\x7b\"imei\":\"".toList ++ r.imei ++
    "\",\"lm\":".toList ++ CFloat.dtostrf r.litresPerMinute ++
    ",\"mls\":".toList ++ udec r.intervalMl.toNat ++
    ",\"tl_ml\":".toList ++ udec r.totalMl.toNat ++
    ",\"ts\":\"".toList ++ ts ++
    "\",\"v\":".toList ++ flag r.valveOpen ++
    ",\"wm\":".toList ++ CFloat.dtostrf r.modelLm ++
    ",\"lk\":".toList ++ udec r.leak.toNat ++
    ",\"oc\":".toList ++ udec r.overuse.toNat ++ "\x7d".toList

/-- The text of `publishInfo`. -/
def infoText (r : Info) : CString :=
  "\x7b\"imei\":\"".toList ++ r.imei ++
    "\",\"ppl\":".toList ++ udec r.pulsesPerLiter.toNat ++
    ",\"reed\":".toList ++ flag r.reed ++
    ",\"v\":".toList ++ flag r.valveOpen ++
    ",\"fp\":".toList ++ flag r.signatureValid ++ "\x7d".toList

/-- The text of `publishHeartbeat`. -/
def heartbeatText (r : Heartbeat) (ts : CString) (rssi : Int) : CString :=
  "\x7b\"imei\":\"".toList ++ r.imei ++
    "\",\"ts\":\"".toList ++ ts ++
    "\",\"up\":".toList ++ udec r.uptimeS.toNat ++
    ",\"v\":".toList ++ flag r.valveOpen ++
    ",\"fp\":".toList ++ flag r.signatureValid ++
    ",\"lk\":".toList ++ udec r.leak.toNat ++
    ",\"oc\":".toList ++ udec r.overuse.toNat ++
    ",\"rssi\":".toList ++ sdec rssi ++
    ",\"tl_ml\":".toList ++ udec r.totalMl.toNat ++
    ",\"ok\":1\x7d".toList

/-- `publishTelemetry`. -/
def publishTelemetry (r : Telemetry F) : Fw F Bool := do
  emit (.telemetry r)
  let ts ← formatTimestamp 21
  let radio ← look (·.radio)
  PubSubClient.publish radio.topicData (snprintf msgSize (telemetryText r ts))

/-- `publishInfo`. -/
def publishInfo (r : Info) : Fw F Bool := do
  emit (.info r)
  let radio ← look (·.radio)
  PubSubClient.publish radio.topicInfo (snprintf msgSize (infoText r))

/-- `publishHeartbeat`. -/
def publishHeartbeat (r : Heartbeat) : Fw F Bool := do
  emit (.heartbeat r)
  let ts ← formatTimestamp 21
  let radio ← look (·.radio)
  PubSubClient.publish radio.topicHb (snprintf msgSize (heartbeatText r ts radio.rssi))

/-! ### Messages that arrive -/

/-- `jsonFloat(json, key, out)`: the number after the first colon after the first occurrence of
    `key`. -/
def jsonFloat (json key : CString) : Option F :=
  match strstr key json with
  | none => none
  | some p =>
    match strchr ':' p with
    | none => none
    | some q => some (CFloat.atof q.tail)

/-- The payload as it lies in `msg_`, cut to the size of the buffer and read up to a NUL. -/
def copyMsg (payload : CString) : CString := cstr (payload.take (msgSize - 1))

def parseCommand (payload : CString) : Command :=
  if payload = "on".toList ∨ payload = "open".toList ∨ payload = "1".toList then .on
  else if payload = "off".toList ∨ payload = "close".toList ∨ payload = "0".toList then .off
  -- no shorter object names a `v`
  else if 5 ≤ payload.length ∧ payload.head? = some '{' then
    match (jsonFloat (copyMsg payload) "\"v\"".toList : Option F) with
    -- `atof` gives 0 for what is no number
    | some v => if CFloat.le (CFloat.ofRat (1 / 2)) v then .on else .off
    | none => .none
  else .none

/-- `parseFingerprint`: `none` where the key `w` is missing. -/
def parseFingerprint (json : CString) : Option (Params F) :=
  let get (key : CString) (default : ℚ) : F := (jsonFloat json key).getD (CFloat.ofRat default)
  if (jsonFloat json "\"w\"".toList : Option F).isSome then
    some
      { mean := get "\"w\"".toList 0
        a1 := get "\"a1\"".toList 0
        phi1 := get "\"p1\"".toList 0
        t1 := get "\"t1\"".toList Settings.sigT1H
        a2 := get "\"a2\"".toList 0
        phi2 := get "\"p2\"".toList 0
        t2 := get "\"t2\"".toList Settings.sigT2H }
  else none

def isBlank (c : Char) : Bool := c = ' ' || c = '\t' || c = '\r' || c = '\n'

/-- The payload without white space at its ends (and without NULs at its end). -/
def strip (payload : CString) : CString :=
  ((payload.dropWhile isBlank).reverse.dropWhile fun c => isBlank c || c = '\x00').reverse

/-- `onMessage(topic, payload, length)`. -/
def onMessage (h : Handlers F) (topic payload : CString) : Fw F Unit := do
  let radio ← look (·.radio)
  let payload := strip payload
  -- before `buildTopics` both topics are empty
  if radio.topicFp ≠ [] ∧ topic = radio.topicFp then
    match parseFingerprint (copyMsg payload) with
    | some params => h.fingerprint params
    | none => pure ()
  else if radio.topicCmd ≠ [] ∧ topic = radio.topicCmd then
    match parseCommand (F := F) payload with
    | .none => pure ()
    | cmd => h.command cmd
  else pure ()

/-! ### Session -/

def hourOfDay : Fw F (Option F) := do
  match ← Sim800.rtcGet with
  | none => pure none
  | some t =>
    let minutes := CFloat.div (CFloat.ofRat t.minute) (CFloat.ofRat 60)
    let seconds := CFloat.div (CFloat.ofRat t.second) (CFloat.ofRat 3600)
    pure (some (CFloat.add (CFloat.add (CFloat.ofRat t.hour) minutes) seconds))

/-- `mqttConnect()`. -/
def mqttConnect : Fw F Bool :=
  if authConfigured then PubSubClient.connect Settings.mqttServer Settings.mqttPort else pure false

/-- The loop of `begin()` over the tries to initialise the modem. -/
def initTries (h : Handlers F) : Nat → Fw F Unit
  | 0 => pure ()
  | n + 1 => do
    h.yield
    if ← Sim800.init then pure ()
    else
      wait h 1000
      initTries h n

def begin (h : Handlers F) : Fw F Bool := do
  initTries h Settings.simInitTries
  let radio ← look (·.radio)
  if radio.modem.initialized then
    Sim800.stop
    let _ ← Sim800.tcpStop
    let (imei, ok) ← Sim800.getImei
    if ok then
      set fun c => buildTopics { c with imeicode := imei.take 15 }
      -- a modem that is not registered yet is no failure
      let _ ← Sim800.setup
      pure true
    else
      -- the topics stay as they were
      set fun c => { c with imeicode := "unknown".toList }
      pure false
  else pure false

/-- The retry loop of `connect()`, with `n` attempts left. -/
def connectTries (h : Handlers F) : Nat → Fw F Bool
  | 0 => pure false
  | n + 1 => do
    h.yield
    if ← Sim800.tcpStart Settings.gsmApn Settings.gsmUser Settings.gsmPassword then
      h.yield
      let rssi ← Sim800.getSignalQualityReport
      -- 99 is the modem's value for an unknown strength
      set fun c => { c with rssi := rssi.getD 99 }
      if ← mqttConnect then
        let radio ← look (·.radio)
        -- whether the broker has the subscriptions is not looked at
        let _ ← PubSubClient.subscribe radio.topicCmd
        let _ ← PubSubClient.subscribe radio.topicFp
        pure true
      else
        Sim800.stop
        let _ ← Sim800.tcpStop
        wait h Settings.radioRetryDelayMs
        connectTries h n
    else
      let _ ← Sim800.tcpStop
      wait h Settings.radioRetryDelayMs
      connectTries h n

def connect (h : Handlers F) : Fw F Bool :=
  if authConfigured then connectTries h Settings.radioRetryMax else pure false

def disconnect : Fw F Unit := do
  let up ← PubSubClient.connected
  -- the modem is stopped also where the session was lost
  Cut.when up PubSubClient.disconnect
  Sim800.stop
  let _ ← Sim800.tcpStop
  pure ()

def loop (h : Handlers F) : Fw F Bool := PubSubClient.loop (onMessage h)

end GsmMqttClient

end Waterbox
