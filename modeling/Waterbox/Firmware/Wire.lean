import Waterbox.Lib.Mqtt
import Waterbox.Lib.Text
import Waterbox.Firmware.PubSubClient

namespace Waterbox

/-!
# `GSMPubSubClient.cpp`, byte by byte

The same client below the level of packets: what it reads from the modem, what lies in its
buffer, and what it writes.  A run is a computation `Cut Wire`; it is cut off where the source
would read or write outside of `buffer`.  The times of the last activity are left to
`PubSubClient`.
-/

/-- `buffer`, which has `MQTT_MAX_PACKET_SIZE` bytes. -/
structure Buffer where
  bytes : List U8
  length_bytes : bytes.length = PubSubClient.maxPacketSize
deriving DecidableEq

/-- `buffer[i] = b`. -/
def Buffer.set (buffer : Buffer) (i : Nat) (b : U8) : Buffer :=
  ⟨buffer.bytes.set i b, (List.length_set ..).trans buffer.length_bytes⟩

/-- The client with both ends of its connection. -/
structure Wire where
  buffer : Buffer
  /-- What the calls of `readByte` meet one after the other: a byte, or none within the socket
      timeout.  Nothing comes behind the end of the list. -/
  input : List (Option U8)
  /-- The bytes written to the connection. -/
  output : List U8
  /-- The calls of the callback. -/
  calls : List (CString × CString)
  nextMsgId : U16
  pingOutstanding : Bool
deriving DecidableEq

namespace Wire

/-- The client after a reset, which zeroes it. -/
def reset : Wire where
  buffer := ⟨List.replicate PubSubClient.maxPacketSize 0, List.length_replicate⟩
  input := []
  output := []
  calls := []
  nextMsgId := 0
  pingOutstanding := false

/-- A byte as a character of a C string. -/
def toChar (b : U8) : Char := Char.ofNat b.toNat

/-! ### The buffer -/

/-- `buffer[i] = b`. -/
def store (i : Nat) (b : U8) : Cut Wire Unit := fun w =>
  if i < PubSubClient.maxPacketSize then (some (), { w with buffer := w.buffer.set i b })
  else (none, w)

/-- `buffer[i]`. -/
def load (i : Nat) : Cut Wire U8 := fun w => (w.buffer.bytes[i]?, w)

/-- The `n` bytes from `buffer[i]` on. -/
def loadBytes (i n : Nat) : Cut Wire (List U8) := fun w =>
  if i + n ≤ PubSubClient.maxPacketSize then (some ((w.buffer.bytes.drop i).take n), w)
  else (none, w)

/-- Bytes stored one behind the other from `buffer[i]` on; the index behind the last. -/
def storeBytes (i : Nat) : List U8 → Cut Wire Nat
  | [] => pure i
  | b :: bs => do
    store i b
    storeBytes (i + 1) bs

/-- `_client->write(buffer + i, n)`; the port takes all bytes. -/
def send (i n : Nat) : Cut Wire Unit := do
  let bytes ← loadBytes i n
  Cut.update fun w => { w with output := w.output ++ bytes }

/-! ### Reading -/

/-- `readByte(result)`: `none` after the socket timeout. -/
def readByte : Cut Wire (Option U8) := fun w =>
  match w.input with
  | [] => (some none, w)
  | e :: rest => (some e, { w with input := rest })

/-- `readByte(buffer, &len)`. -/
def readByteAt (len : U16) : Cut Wire Bool := do
  match ← readByte with
  | some b =>
    store len.toNat b
    pure true
  | none => pure false

/-- The loop of `readPacket` over the digits of the length: `len` and `length` behind it.  The
    buffer ends before `n` digits have been stored. -/
def readLength : Nat → U16 → U16 → U32 → Cut Wire (Option (U16 × U16))
  | 0, _, _, _ => Cut.halt
  | n + 1, len, length, multiplier => do
    match ← readByte with
    | none => pure none
    | some digit =>
      store len.toNat digit
      let length := length + ((digit &&& 127).setWidth 32 * multiplier).setWidth 16
      if digit &&& 128 = 0 then pure (some (len + 1, length))
      else readLength n (len + 1) length (multiplier * 128)

/-- The last loop of `readPacket`, with `n` bytes to read: `len` behind it.  Bytes that the buffer
    has no place for are only counted. -/
def readBody : Nat → U16 → Cut Wire (Option U16)
  | 0, len => pure (some len)
  | n + 1, len => do
    match ← readByte with
    | none => pure none
    | some digit =>
      if len.toNat < PubSubClient.maxPacketSize then
        store len.toNat digit
        readBody n (len + 1)
      else readBody n (len + 1)

/-- Whether the packet in the buffer is a PUBLISH. -/
def isPublish (header : U8) : Bool := header &&& 0xF0 = 0x30

/-- The length of the topic, which `readPacket` reads in front of the body of a PUBLISH, also where
    the packet has no two bytes left: `len` behind it, and where the loop over the body starts. -/
def readTopicLength (header : U8) (len : U16) : Cut Wire (Option (U16 × Nat)) :=
  if isPublish header then do
    if ← readByteAt len then
      if ← readByteAt (len + 1) then pure (some (len + 2, 2)) else pure none
    else pure none
  else pure (some (len, 0))

/-- `readPacket(&llen)`: `llen` and the length returned. -/
def readPacket : Cut Wire (U8 × U16) := do
  if ← readByteAt 0 then
    let header ← load 0
    match ← readLength PubSubClient.maxPacketSize 1 0 1 with
    | none => pure (0, 0)
    | some (len, length) =>
      let llen : U8 := len.setWidth 8 - 1
      match ← readTopicLength header len with
      | none => pure (llen, 0)
      | some (len, start) =>
        match ← readBody (length.toNat - start) len with
        | none => pure (llen, 0)
        | some len =>
          -- a packet that the buffer has no place for is ignored
          pure (llen, if PubSubClient.maxPacketSize < len.toNat then 0 else len)
  else pure (0, 0)

/-- The callback, as it is called. -/
def callback (topic payload : List U8) : Cut Wire Unit :=
  Cut.update fun w =>
    { w with calls := w.calls ++ [(Text.cstr (topic.map toChar), payload.map toChar)] }

/-- What `loop()` does with a packet of `len` bytes. -/
def dispatch (llen : U8) (len : U16) : Cut Wire Unit := do
  let header ← load 0
  if isPublish header then
    let high ← load (llen.toNat + 1)
    let low ← load (llen.toNat + 2)
    let tl : U16 := high.setWidth 16 <<< 8 + low.setWidth 16
    let start := llen.toNat + 3
    let topic ← loadBytes start tl.toNat
    let rest : U16 := len - llen.setWidth 16 - 3 - tl
    if header &&& 0x06 = 0x02 then
      let idHigh ← load (start + tl.toNat)
      let idLow ← load (start + tl.toNat + 1)
      let payload ← loadBytes (start + tl.toNat + 2) (rest - 2).toNat
      callback topic payload
      let _ ← storeBytes 0 [0x40, 2, idHigh, idLow]
      send 0 4
    else
      let payload ← loadBytes (start + tl.toNat) rest.toNat
      callback topic payload
  else if header &&& 0xF0 = 0xC0 then
    let _ ← storeBytes 0 [0xD0, 0]
    send 0 2
  else if header &&& 0xF0 = 0xD0 then
    Cut.update fun w => { w with pingOutstanding := false }
  else pure ()

/-- The part of `loop()` that reads the input, where a byte is available. -/
def poll : Cut Wire Unit := do
  let (llen, len) ← readPacket
  if len = 0 then pure () else dispatch llen len

/-- What `connect()` reads after its packet: `buffer[3]`, where the answer has four bytes. -/
def readAnswer : Cut Wire (Option U8) := do
  let (_, len) ← readPacket
  if len = 4 then
    let code ← load 3
    pure (some code)
  else pure none

/-! ### Writing -/

/-- The digits `write` finds for a length, in the `n` bytes of `lenBuf` that are left. -/
def lengthDigits : Nat → Nat → List U8
  | 0, _ => []
  | n + 1, len =>
    let digit := BitVec.ofNat 8 (len % 128)
    if 0 < len / 128 then (digit ||| 0x80) :: lengthDigits n (len / 128) else [digit]

/-- `write(header, buffer, length)`, for a packet that lies in the buffer from its sixth byte on. -/
def write (header : U8) (length : Nat) : Cut Wire Bool := do
  let lenBuf := lengthDigits 4 length
  let llen := lenBuf.length
  store (4 - llen) header
  let _ ← storeBytes (5 - llen) lenBuf
  send (4 - llen) (length + 1 + llen)
  pure true

/-- `writeString(string, buffer, pos)`. -/
def writeString (string : List U8) (pos : Nat) : Cut Wire Nat := do
  let pos ← storeBytes (pos + 2) string
  let i := string.length
  store (pos - i - 2) (BitVec.ofNat 8 (i / 256))
  store (pos - i - 1) (BitVec.ofNat 8 (i % 256))
  pure pos

/-- The packet of `publish(topic, payload, retained)`. -/
def publish (topic payload : List U8) (retained : Bool) : Cut Wire Bool :=
  if PubSubClient.maxPacketSize < 5 + 2 + topic.length + payload.length then pure false
  else do
    let length ← writeString topic 5
    let length ← storeBytes length payload
    write (if retained then 0x30 ||| 1 else 0x30) (length - 5)

/-- `nextMsgId++`, which leaves out the 0. -/
def nextId : Cut Wire U16 := do
  Cut.update fun w =>
    { w with nextMsgId := if w.nextMsgId + 1 = 0 then 1 else w.nextMsgId + 1 }
  Cut.read (·.nextMsgId)

/-- The packet of `subscribe(topic, qos)`. -/
def subscribe (topic : List U8) (qos : U8) : Cut Wire Bool :=
  if 1 < qos.toNat then pure false
  else if PubSubClient.maxPacketSize < 9 + topic.length then pure false
  else do
    let id ← nextId
    let length ← storeBytes 5 [(id >>> 8).setWidth 8, id.setWidth 8]
    let length ← writeString topic length
    let length ← storeBytes length [qos]
    write 0x82 (length - 5)

/-- The packet of `unsubscribe(topic)`. -/
def unsubscribe (topic : List U8) : Cut Wire Bool :=
  if PubSubClient.maxPacketSize < 9 + topic.length then pure false
  else do
    let id ← nextId
    let length ← storeBytes 5 [(id >>> 8).setWidth 8, id.setWidth 8]
    let length ← writeString topic length
    write 0xA2 (length - 5)

/-- `MQTT_KEEPALIVE`, in seconds. -/
def keepAlive : U16 := 60

/-- The byte `v` of `connect`. -/
def connectFlags (will : Option Mqtt.Will) (user pass : Option (List U8)) : U8 :=
  let v : U8 :=
    match will with
    | some w =>
      let qos : U8 := BitVec.ofNat 8 w.qos.val
      let retain : U8 := if w.retain then 1 else 0
      (0x06 : U8) ||| qos <<< 3 ||| retain <<< 5
    | none => 0x02
  match user, pass with
  | none, _ => v
  | some _, none => v ||| 0x80
  | some _, some _ => v ||| 0x80 ||| 0x40

/-- `writeString`, where there is a string. -/
def writeOptional (string : Option (List U8)) (pos : Nat) : Cut Wire Nat :=
  match string with
  | some s => writeString s pos
  | none => pure pos

/-- The texts of `connect`, behind the bytes that every such packet starts with. -/
def writeTexts (id : List U8) (user pass : Option (List U8)) (will : Option Mqtt.Will) (pos : Nat) :
    Cut Wire Nat := do
  let length ← writeString id pos
  let length ← writeOptional (will.map (·.topic)) length
  let length ← writeOptional (will.map (·.message)) length
  let length ← writeOptional user length
  -- a password without a user is left out
  writeOptional (user.bind fun _ => pass) length

/-- The packet of `connect(id, user, pass, willTopic, willQos, willRetain, willMessage)`, which is
    not compared with the size of the buffer. -/
def connect (id : List U8) (user pass : Option (List U8)) (will : Option Mqtt.Will) :
    Cut Wire Bool := do
  Cut.update fun w => { w with nextMsgId := 1 }
  let length ← storeBytes 5
    [0, 4, 0x4D, 0x51, 0x54, 0x54, 4, connectFlags will user pass, (keepAlive >>> 8).setWidth 8,
      keepAlive.setWidth 8]
  let length ← writeTexts id user pass will length
  write 0x10 (length - 5)

/-- The PINGREQ of `loop()`. -/
def ping : Cut Wire Unit := do
  let _ ← storeBytes 0 [0xC0, 0]
  send 0 2
  Cut.update fun w => { w with pingOutstanding := true }

/-- The packet of `disconnect()`. -/
def disconnect : Cut Wire Unit := do
  let _ ← storeBytes 0 [0xE0, 0]
  send 0 2

/-! ### What the buffer holds -/

/-- `p` lies at the start of the buffer. -/
def Holds (w : Wire) (p : List U8) : Prop := p <+: w.buffer.bytes

theorem Holds.nil (w : Wire) : w.Holds [] := List.nil_prefix

/-- The client with another buffer, and with the input that is left. -/
def reading (w : Wire) (buffer : Buffer) (input : List (Option U8)) : Wire :=
  { w with buffer := buffer, input := input }

@[simp] theorem reading_reading (w : Wire) (b b' : Buffer) (i i' : List (Option U8)) :
    (w.reading b i).reading b' i' = w.reading b' i' := rfl

@[simp] theorem reading_input (w : Wire) (b : Buffer) (i : List (Option U8)) :
    (w.reading b i).input = i := rfl

/-- The buffer holds more bytes than those that are known. -/
theorem Holds.extend {w : Wire} {p : List U8} (hp : w.Holds p) {n : Nat}
    (h : p.length + n ≤ PubSubClient.maxPacketSize) :
    ∃ x : List U8, x.length = n ∧ w.Holds (p ++ x) := by
  obtain ⟨t, ht⟩ := hp
  have hlen := w.buffer.length_bytes
  rw [← ht, List.length_append] at hlen
  refine ⟨t.take n, by rw [List.length_take]; omega, ⟨t.drop n, ?_⟩⟩
  rw [List.append_assoc, List.take_append_drop, ht]

theorem set_append_cons (p : List U8) (a b : U8) (t : List U8) :
    (p ++ a :: t).set p.length b = p ++ b :: t := by
  simp

/-- A byte stored behind those that the buffer holds. -/
theorem store_run {w : Wire} {p : List U8} (hp : w.Holds p)
    (h : p.length < PubSubClient.maxPacketSize) (b : U8) :
    ∃ buffer, store p.length b w = (some (), w.reading buffer w.input) ∧
      p ++ [b] <+: buffer.bytes := by
  obtain ⟨t, ht⟩ := hp
  have hlen := w.buffer.length_bytes
  cases t with
  | nil =>
    rw [← ht, List.append_nil] at hlen
    omega
  | cons a t =>
    refine ⟨w.buffer.set p.length b, by rw [store, if_pos h]; rfl, ⟨t, ?_⟩⟩
    show p ++ [b] ++ t = w.buffer.bytes.set p.length b
    rw [← ht, set_append_cons, List.append_assoc, List.singleton_append]

theorem load_run {w : Wire} {p : List U8} (hp : w.Holds p) {i : Nat} {b : U8}
    (hi : p[i]? = some b) : load i w = (some b, w) := by
  obtain ⟨t, ht⟩ := hp
  have hlt : i < p.length := (List.getElem?_eq_some_iff.1 hi).1
  rw [load, ← ht, List.getElem?_append_left hlt, hi]

/-- Bytes in the middle of those that the buffer holds. -/
theorem loadBytes_run {w : Wire} {a b c : List U8} (hp : w.Holds (a ++ b ++ c)) :
    loadBytes a.length b.length w = (some b, w) := by
  obtain ⟨t, ht⟩ := hp
  have hle : a.length + b.length ≤ PubSubClient.maxPacketSize := by
    have hlen := w.buffer.length_bytes
    rw [← ht] at hlen
    simp only [List.length_append] at hlen
    omega
  rw [loadBytes, if_pos hle, ← ht, List.append_assoc, List.append_assoc, List.drop_left,
    List.take_left]

/-- Bytes stored one behind the other behind those that the buffer holds. -/
theorem storeBytes_run (bs : List U8) {w : Wire} {p : List U8} (hp : w.Holds p)
    (h : p.length + bs.length ≤ PubSubClient.maxPacketSize) :
    ∃ buffer, storeBytes p.length bs w =
        (some (p ++ bs).length, w.reading buffer w.input) ∧ p ++ bs <+: buffer.bytes := by
  induction bs generalizing w p with
  | nil => exact ⟨w.buffer, by rw [List.append_nil]; rfl, by rwa [List.append_nil]⟩
  | cons b bs ih =>
    rw [List.length_cons] at h
    obtain ⟨b₁, hrun₁, hb₁⟩ := store_run hp (by omega) b
    obtain ⟨b₂, hrun₂, hb₂⟩ := ih (w := w.reading b₁ w.input) (p := p ++ [b]) hb₁
      (by rw [List.length_append, List.length_singleton]; omega)
    rw [List.append_assoc, List.singleton_append] at hrun₂ hb₂
    refine ⟨b₂, ?_, hb₂⟩
    rw [storeBytes, Cut.bind_of_finished hrun₁]
    rw [List.length_append, List.length_singleton] at hrun₂
    exact hrun₂

/-- Bytes stored over others leave what lies before and behind them. -/
theorem storeBytes_replace (new : List U8) {w : Wire} {a old c : List U8}
    (hp : w.Holds (a ++ old ++ c)) (h : new.length = old.length) :
    ∃ buffer, storeBytes a.length new w =
        (some (a ++ new).length, w.reading buffer w.input) ∧ a ++ new ++ c <+: buffer.bytes := by
  induction new generalizing w a old with
  | nil =>
    rw [List.length_eq_zero_iff.1 h.symm] at hp
    exact ⟨w.buffer, by rw [List.append_nil]; rfl, hp⟩
  | cons b bs ih =>
    cases old with
    | nil => simp at h
    | cons o os =>
      have hlt : a.length < PubSubClient.maxPacketSize := by
        have hlen := hp.length_le
        rw [w.buffer.length_bytes] at hlen
        simp only [List.length_append, List.length_cons] at hlen
        omega
      have hset : a ++ [b] ++ os ++ c <+: (w.buffer.set a.length b).bytes := by
        obtain ⟨t, ht⟩ := hp
        refine ⟨t, ?_⟩
        show a ++ [b] ++ os ++ c ++ t = w.buffer.bytes.set a.length b
        rw [← ht]
        simp
      obtain ⟨b₂, hrun₂, hb₂⟩ := ih (w := w.reading (w.buffer.set a.length b) w.input)
        (a := a ++ [b]) hset (by simpa using h)
      rw [List.append_assoc, List.singleton_append] at hrun₂
      refine ⟨b₂, ?_, by rwa [List.append_assoc a, List.singleton_append] at hb₂⟩
      have hstore : store a.length b w =
          (some (), w.reading (w.buffer.set a.length b) w.input) := by
        rw [store, if_pos hlt]
        rfl
      rw [storeBytes, Cut.bind_of_finished hstore]
      rw [List.length_append, List.length_singleton] at hrun₂
      exact hrun₂

/-- The bytes that are sent are those at the start of the buffer. -/
theorem send_run {w : Wire} {a b : List U8} (hp : w.Holds (a ++ b)) :
    send a.length b.length w = (some (), { w with output := w.output ++ b }) := by
  rw [send, Cut.bind_of_finished (loadBytes_run (c := []) (by rwa [List.append_nil]))]
  rfl

end Wire

end Waterbox
