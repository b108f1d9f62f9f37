import Waterbox.Firmware.Sim800

namespace Waterbox

/-!
# `GSMPubSubClient.cpp`

The MQTT client on top of the modem, at the level of packets: what the broker sends is a
`Packet` of the environment.
-/

/-- The bytes the length field of a packet takes. -/
def Packet.lengthLength (remaining : Nat) : Nat :=
  if remaining < 128 then 1
  else if remaining < 16384 then 2
  else if remaining < 2097152 then 3
  else 4

/-- The value `readPacket` returns for a packet that fits the buffer. -/
def Packet.len : Packet → Nat
  | .connack _ => 4
  | .publish qos1 topic payload =>
    let remaining := 2 + topic.length + (if qos1 then 2 else 0) + payload.length
    1 + lengthLength remaining + remaining
  | .pingreq => 2
  | .pingresp => 2
  | .other len _ => len

/-- `buffer[3]` of a packet of four bytes. -/
def Packet.byte3 : Packet → U8
  | .connack code => code
  | .publish _ topic _ => BitVec.ofNat 8 topic.length
  | .other _ byte => byte
  | _ => 0

namespace PubSubClient

variable {F : Type}

def maxPacketSize : Nat := 256
def keepAliveMs : U32 := 60000
def socketTimeoutMs : U32 := 30000

/-- The object as its constructor leaves it. -/
def reset : PubSubClient where
  state := .disconnected
  lastOutActivity := 0
  lastInActivity := 0
  pingOutstanding := false
  nextMsgId := 0

def set (f : PubSubClient → PubSubClient) : Fw F Unit :=
  change fun b => { b with radio := { b.radio with mqtt := f b.radio.mqtt } }

/-- `connected()`, which also notices a lost session. -/
def connected : Fw F Bool := do
  let radio ← look (·.radio)
  if radio.modem.tcpConnected then pure true
  else if radio.mqtt.state = .connected then
    -- the TCP session has gone without a `disconnect()`
    set fun c => { c with state := .connectionLost }
    Sim800.stop
    pure false
  else pure false

/-- `write(header, buf, length)` of the packet `ev`: whether the serial port took all of it. -/
def write (ev : Event F) : Fw F Bool := do
  let e ← next
  Cut.when e.written (emit ev)
  let now ← millis
  set fun c => { c with lastOutActivity := now }
  pure e.written

/-- Wait for the first byte of the CONNACK; `false` when the socket timeout is over. -/
def awaitReply : Fw F Bool :=
  forever do
    let e ← next
    if e.available then pure (some true)
    else
      let t ← millis
      let c ← look (·.radio.mqtt)
      if socketTimeoutMs ≤ t - c.lastInActivity then pure (some false) else pure none

/-- `readPacket`: `none` stands for the length 0. -/
def readPacket : Fw F (Option Packet) := do
  let e ← next
  match e.packet with
  | some p => pure (if p.len ≤ maxPacketSize then some p else none)
  | none => pure none

/-- `connect(id, user, pass)`. -/
def connect (server : CString) (port : Nat) : Fw F Bool := do
  if ← connected then pure true
  else if ← Sim800.tcpConnect server port then
    set fun c => { c with nextMsgId := 1 }
    let _ ← write .mqttWrite
    let now ← millis
    set fun c => { c with lastInActivity := now, lastOutActivity := now }
    if ← awaitReply then
      match ← readPacket with
      | some p =>
        -- a CONNACK, or any other packet of four bytes
        if p.len = 4 then
          if p.byte3 = 0 then
            let now ← millis
            set fun c =>
              { c with lastInActivity := now, pingOutstanding := false, state := .connected }
            pure true
          else
            set fun c => { c with state := .refused p.byte3 }
            Sim800.stop
            pure false
        else
          Sim800.stop
          pure false
      | none =>
        Sim800.stop
        pure false
    else
      set fun c => { c with state := .connectionTimeout }
      Sim800.stop
      pure false
  else
    set fun c => { c with state := .connectFailed }
    pure false

/-- `publish(topic, payload)`. -/
def publish (topic payload : CString) : Fw F Bool := do
  if ← connected then
    -- the packet would not fit the buffer
    if maxPacketSize < 5 + 2 + topic.length + payload.length then pure false
    else write (.published topic payload)
  else pure false

/-- `subscribe(topic)`. -/
def subscribe (topic : CString) : Fw F Bool := do
  if maxPacketSize < 9 + topic.length then pure false
  else if ← connected then
    set fun c =>
      let id := c.nextMsgId + 1
      { c with nextMsgId := if id = 0 then 1 else id }
    write .mqttWrite
  else pure false

def disconnect : Fw F Unit := do
  let _ ← next
  emit .mqttWrite
  set fun c => { c with state := .disconnected }
  Sim800.stop
  let now ← millis
  set fun c => { c with lastInActivity := now, lastOutActivity := now }

/-- What `loop()` does with a packet that arrived, at the time `t`. -/
def receive (callback : CString → CString → Fw F Unit) (t : U32) : Packet → Fw F Unit
  | .publish qos1 topic payload => do
    -- the answer of QoS 1 follows when the callback has returned
    callback topic payload
    if qos1 then
      let _ ← next
      emit .mqttWrite
      set fun c => { c with lastOutActivity := t }
    else pure ()
  | .pingreq => do
    let _ ← next
    emit .mqttWrite
  | .pingresp => set fun c => { c with pingOutstanding := false }
  | _ => pure ()

/-- The part of `loop()` that reads the input. -/
def poll (callback : CString → CString → Fw F Unit) (t : U32) : Fw F Bool := do
  let e ← next
  if e.available then
    match ← readPacket with
    | some p =>
      set fun c => { c with lastInActivity := t }
      receive callback t p
      pure true
    | none => pure true
  else pure true

/-- `loop()`. -/
def loop (callback : CString → CString → Fw F Unit) : Fw F Bool := do
  if ← connected then
    let t ← millis
    let c ← look (·.radio.mqtt)
    if keepAliveMs < t - c.lastInActivity ∨ keepAliveMs < t - c.lastOutActivity then
      -- the last PINGREQ is still without answer
      if c.pingOutstanding then
        set fun c => { c with state := .connectionTimeout }
        Sim800.stop
        pure false
      else
        let _ ← next
        emit .mqttWrite
        set fun c => { c with lastOutActivity := t, lastInActivity := t, pingOutstanding := true }
        poll callback t
    else poll callback t
  else pure false

end PubSubClient

end Waterbox
