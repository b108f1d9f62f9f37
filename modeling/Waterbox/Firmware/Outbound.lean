import Waterbox.Firmware.Inbound

namespace Waterbox

/-!
# What the MQTT client writes to its connection

* `Request` — what the client is asked for, with the packet it writes (`Request.run`) and the
  message of the protocol (`Request.message`).
* `Wire.requests_sent` — what a sequence of requests writes is read by a broker as the messages of
  these requests, in their order.
* `Wire.request_safe_iff` — the lengths for which a request stays in the buffer.
-/

open Framing

namespace Wire

/-! ### The header -/

/-- The digits `write` finds are those of the length. -/
theorem lengthDigits_eq (k n : Nat) (h : n < 128 ^ (k + 1)) :
    lengthDigits (k + 1) n = varint n := by
  induction k generalizing n with
  | zero =>
    have hn : n < 128 := by simpa using h
    have hdiv : ¬ 0 < n / 128 := by omega
    rw [lengthDigits, if_neg hdiv, varint_of_lt hn, Nat.mod_eq_of_lt hn]
  | succ k ih =>
    by_cases hn : n < 128
    · have hdiv : ¬ 0 < n / 128 := by omega
      rw [lengthDigits, if_neg hdiv, varint_of_lt hn, Nat.mod_eq_of_lt hn]
    · have hor : ∀ i : Fin 128,
          (BitVec.ofNat 8 i.val ||| 0x80 : U8) = BitVec.ofNat 8 (i.val + 128) := by
        decide +kernel
      have hdiv : 0 < n / 128 := by omega
      rw [lengthDigits, if_pos hdiv, varint_of_le (Nat.le_of_not_lt hn),
        hor ⟨n % 128, Nat.mod_lt _ (by decide)⟩, ih (n / 128)]
      exact Nat.div_lt_of_lt_mul (by rw [pow_succ] at h; omega)

/-- A packet whose body lies behind the first five bytes of the buffer is sent as its frame. -/
theorem write_run (header : U8) {w : Wire} {x body : List U8} (hx : x.length = 5)
    (hp : w.Holds (x ++ body)) :
    ∃ buffer, write header body.length w =
      (some true, { w.reading buffer w.input with
        output := w.output ++ (Frame.mk header body).bytes }) := by
  have hlen : body.length ≤ 251 := by
    have := hp.length_le
    rw [w.buffer.length_bytes, List.length_append, hx] at this
    simp only [PubSubClient.maxPacketSize] at this
    omega
  have hdigits : lengthDigits 4 body.length = varint body.length := by
    apply lengthDigits_eq 3
    omega
  have hl : (varint body.length).length ≤ 2 := length_varint_le 1 _ (by omega)
  set l := (varint body.length).length with hldef
  -- the header and the digits end where the body starts
  have hsplit : x.take (4 - l) ++ x.drop (4 - l) ++ body = x ++ body := by
    rw [List.take_append_drop]
  have htake : (x.take (4 - l)).length = 4 - l := by
    rw [List.length_take]
    omega
  rw [← hsplit] at hp
  obtain ⟨b₁, hrun, hb⟩ := storeBytes_replace (header :: varint body.length) hp
    (by rw [List.length_cons, List.length_drop]; omega)
  rw [htake] at hrun
  have hheld : (w.reading b₁ w.input).Holds
      (x.take (4 - l) ++ (Frame.mk header body).bytes) := by
    rw [List.append_assoc] at hb
    exact hb
  have hsend := send_run hheld
  rw [htake, Frame.length_bytes] at hsend
  refine ⟨b₁, ?_⟩
  have hsucc : 5 - l = 4 - l + 1 := by omega
  have hcount : body.length + 1 + l = (Frame.mk header body).size := by
    show body.length + 1 + l = 1 + l + body.length
    omega
  rw [storeBytes] at hrun
  rw [write, hdigits, ← hldef, hsucc, hcount]
  obtain ⟨_, w₁, h₁, h₂⟩ := Cut.bind_finished hrun
  rw [Cut.bind_of_finished h₁, Cut.bind_of_finished h₂, Cut.bind_of_finished hsend]
  rfl

/-- A string is stored with its length before it. -/
theorem writeString_run (s : List U8) {w : Wire} {p : List U8} (hp : w.Holds p)
    (h : p.length + 2 + s.length ≤ PubSubClient.maxPacketSize) :
    ∃ buffer, writeString s p.length w = (some (p ++ text s).length, w.reading buffer w.input) ∧
      p ++ text s <+: buffer.bytes := by
  obtain ⟨x, hx, hpx⟩ := hp.extend (n := 2) (by omega)
  have hpos : (p ++ x).length = p.length + 2 := by rw [List.length_append, hx]
  obtain ⟨b₁, hrun₁, hb₁⟩ := storeBytes_run s hpx (by rw [hpos]; exact h)
  obtain ⟨b₂, hrun₂, hb₂⟩ := storeBytes_replace (word s.length)
    (show (w.reading b₁ w.input).Holds (p ++ x ++ s) from hb₁) hx.symm
  rw [hpos] at hrun₁
  have hend : (p ++ x ++ s).length = p.length + 2 + s.length := by
    rw [List.length_append, hpos]
  refine ⟨b₂, ?_, by rwa [List.append_assoc] at hb₂⟩
  have hhigh : p.length + 2 + s.length - s.length - 2 = p.length := by omega
  have hlow : p.length + 2 + s.length - s.length - 1 = p.length + 1 := by omega
  rw [writeString, Cut.bind_of_finished hrun₁, hend, hhigh, hlow]
  rw [word, storeBytes, storeBytes, storeBytes] at hrun₂
  obtain ⟨_, w₁, h₁, h₂⟩ := Cut.bind_finished hrun₂
  obtain ⟨_, w₂, h₃, h₄⟩ := Cut.bind_finished h₂
  rw [Cut.bind_of_finished h₁, Cut.bind_of_finished h₃]
  have hw : w₂ = w.reading b₂ w.input := congrArg Prod.snd h₄
  rw [hw, List.length_append, length_text, ← Nat.add_assoc]
  rfl

/-! ### Requests -/

/-- What the client is asked to send. -/
inductive Request
  | connect (id : List U8) (user pass : Option (List U8)) (will : Option Mqtt.Will)
  | publish (topic payload : List U8) (retained : Bool)
  | subscribe (topic : List U8) (qos : U8)
  | unsubscribe (topic : List U8)
  | ping
  | disconnect

/-- The value of `nextMsgId` behind another. -/
def bump (id : U16) : U16 := if id + 1 = 0 then 1 else id + 1

namespace Request

/-- The call of the client. -/
def run : Request → Cut Wire Unit
  | connect id user pass will => do
    let _ ← Wire.connect id user pass will
    pure ()
  | publish topic payload retained => do
    let _ ← Wire.publish topic payload retained
    pure ()
  | subscribe topic qos => do
    let _ ← Wire.subscribe topic qos
    pure ()
  | unsubscribe topic => do
    let _ ← Wire.unsubscribe topic
    pure ()
  | ping => Wire.ping
  | disconnect => Wire.disconnect

/-- The message of a request, if it is sent, and the next `nextMsgId`. -/
def sent (next : U16) : Request → Option Mqtt.Message × U16
  | connect id user pass will =>
    (some (.connect keepAlive id will (user.map fun u => ⟨u, pass⟩)), 1)
  | publish topic payload retained =>
    if PubSubClient.maxPacketSize < 7 + topic.length + payload.length then (none, next)
    else (some (.publish false retained none topic payload), next)
  | subscribe topic qos =>
    if 1 < qos.toNat ∨ PubSubClient.maxPacketSize < 9 + topic.length then (none, next)
    else (some (.subscribe (bump next) topic qos), bump next)
  | unsubscribe topic =>
    if PubSubClient.maxPacketSize < 9 + topic.length then (none, next)
    else (some (.unsubscribe (bump next) topic), bump next)
  | ping => (some .pingreq, next)
  | disconnect => (some .disconnect, next)

/-- The length of an optional string, with the two bytes of its length. -/
def room (string : Option (List U8)) : Nat := string.elim 0 fun s => 2 + s.length

/-- Whether the packet has room in the buffer. -/
def Fits : Request → Prop
  | connect id user pass will =>
    15 + (2 + id.length) + room (will.map (·.topic)) + room (will.map (·.message)) + room user +
      room (user.bind fun _ => pass) ≤ PubSubClient.maxPacketSize
  -- the check of `subscribe` forgets the byte for the quality of service
  | subscribe topic qos => 1 < qos.toNat ∨ topic.length ≠ 247
  | _ => True

end Request

/-- The two stores of an id are its bytes, the high one first. -/
theorem word_id (id : U16) :
    [(id >>> 8).setWidth 8, id.setWidth 8] = word id.toNat := by
  have hhigh : (id >>> 8).setWidth 8 = (BitVec.ofNat 8 (id.toNat / 256) : U8) := by
    apply BitVec.eq_of_toNat_eq
    simp [Nat.shiftRight_eq_div_pow]
  have hlow : id.setWidth 8 = (BitVec.ofNat 8 (id.toNat % 256) : U8) := by
    apply BitVec.eq_of_toNat_eq
    simp
  rw [hhigh, hlow, word]

theorem nextId_run (w : Wire) :
    nextId w = (some (bump w.nextMsgId), { w with nextMsgId := bump w.nextMsgId }) := rfl

/-- Five bytes of the buffer, before the body of a packet. -/
theorem exists_front (w : Wire) : ∃ x : List U8, x.length = 5 ∧ w.Holds x := by
  obtain ⟨x, hx, hp⟩ := (Holds.nil w).extend (n := 5) (by decide)
  exact ⟨x, hx, hp⟩

/-- A `publish` that passes the size check writes its packet. -/
theorem publish_run {topic payload : List U8} (retained : Bool) (w : Wire)
    (h : 7 + topic.length + payload.length ≤ PubSubClient.maxPacketSize) :
    ∃ buffer, publish topic payload retained w = (some true, { w.reading buffer w.input with
      output := w.output ++
        (Mqtt.Message.publish false retained none topic payload).frame.bytes }) := by
  obtain ⟨x, hx, hp⟩ := exists_front w
  obtain ⟨b₁, hrun₁, hb₁⟩ := writeString_run topic hp (by omega)
  obtain ⟨b₂, hrun₂, hb₂⟩ := storeBytes_run (w := w.reading b₁ w.input) payload hb₁
    (by rw [List.length_append, length_text]; omega)
  rw [List.append_assoc] at hb₂
  obtain ⟨b₃, hrun₃⟩ := write_run (w := w.reading b₂ w.input)
    (if retained then 0x30 ||| 1 else 0x30) hx hb₂
  have hbody : (x ++ text topic ++ payload).length - 5 = (text topic ++ payload).length := by
    simp only [List.length_append, hx]
    omega
  have hheader : (if retained then 0x30 ||| 1 else 0x30 : U8) =
      Mqtt.Message.publishHeader false retained none := by
    cases retained <;> rfl
  refine ⟨b₃, ?_⟩
  rw [hx] at hrun₁
  rw [publish, if_neg (by omega), Cut.bind_of_finished hrun₁, Cut.bind_of_finished hrun₂,
    reading_reading, reading_input, hbody, hrun₃, hheader]
  rfl

/-- A `subscribe` of a topic that leaves room for the header. -/
theorem subscribe_run {topic : List U8} {qos : U8} (w : Wire) (hqos : ¬ 1 < qos.toNat)
    (h : topic.length ≤ 246) :
    ∃ buffer, subscribe topic qos w = (some true, { w.reading buffer w.input with
      nextMsgId := bump w.nextMsgId
      output := w.output ++
        (Mqtt.Message.subscribe (bump w.nextMsgId) topic qos).frame.bytes }) := by
  set w₀ : Wire := { w with nextMsgId := bump w.nextMsgId } with hw₀
  obtain ⟨x, hx, hp⟩ := exists_front w₀
  obtain ⟨b₁, hrun₁, hb₁⟩ := storeBytes_run (word (bump w.nextMsgId).toNat) hp
    (by simp only [hx, length_word, PubSubClient.maxPacketSize]; omega)
  obtain ⟨b₂, hrun₂, hb₂⟩ := writeString_run (w := w₀.reading b₁ w₀.input) topic hb₁
    (by simp only [hx, length_word, List.length_append, PubSubClient.maxPacketSize]; omega)
  obtain ⟨b₃, hrun₃, hb₃⟩ := storeBytes_run (w := w₀.reading b₂ w₀.input) [qos] hb₂
    (by
      simp only [hx, length_word, length_text, List.length_append, List.length_singleton,
        PubSubClient.maxPacketSize]
      omega)
  rw [List.append_assoc, List.append_assoc] at hb₃
  obtain ⟨b₄, hrun₄⟩ := write_run (w := w₀.reading b₃ w₀.input) 0x82 hx hb₃
  have hbody : (x ++ word (bump w.nextMsgId).toNat ++ text topic ++ [qos]).length - 5 =
      (word (bump w.nextMsgId).toNat ++ (text topic ++ [qos])).length := by
    simp only [List.length_append, hx]
    omega
  refine ⟨b₄, ?_⟩
  rw [hx] at hrun₁
  rw [subscribe, if_neg hqos, if_neg (by simp only [PubSubClient.maxPacketSize]; omega),
    Cut.bind_of_finished (nextId_run w), word_id, Cut.bind_of_finished hrun₁,
    Cut.bind_of_finished hrun₂, reading_reading, reading_input, Cut.bind_of_finished hrun₃,
    reading_reading, reading_input, hbody, hrun₄]
  rfl

/-- And an `unsubscribe`. -/
theorem unsubscribe_run {topic : List U8} (w : Wire) (h : topic.length ≤ 247) :
    ∃ buffer, unsubscribe topic w = (some true, { w.reading buffer w.input with
      nextMsgId := bump w.nextMsgId
      output := w.output ++ (Mqtt.Message.unsubscribe (bump w.nextMsgId) topic).frame.bytes }) := by
  set w₀ : Wire := { w with nextMsgId := bump w.nextMsgId } with hw₀
  obtain ⟨x, hx, hp⟩ := exists_front w₀
  obtain ⟨b₁, hrun₁, hb₁⟩ := storeBytes_run (word (bump w.nextMsgId).toNat) hp
    (by simp only [hx, length_word, PubSubClient.maxPacketSize]; omega)
  obtain ⟨b₂, hrun₂, hb₂⟩ := writeString_run (w := w₀.reading b₁ w₀.input) topic hb₁
    (by simp only [hx, length_word, List.length_append, PubSubClient.maxPacketSize]; omega)
  rw [List.append_assoc] at hb₂
  obtain ⟨b₃, hrun₃⟩ := write_run (w := w₀.reading b₂ w₀.input) 0xA2 hx hb₂
  have hbody : (x ++ word (bump w.nextMsgId).toNat ++ text topic).length - 5 =
      (word (bump w.nextMsgId).toNat ++ text topic).length := by
    simp only [List.length_append, hx]
    omega
  refine ⟨b₃, ?_⟩
  rw [hx] at hrun₁
  rw [unsubscribe, if_neg (by simp only [PubSubClient.maxPacketSize]; omega),
    Cut.bind_of_finished (nextId_run w), word_id, Cut.bind_of_finished hrun₁,
    Cut.bind_of_finished hrun₂, reading_reading, reading_input, hbody, hrun₃]
  rfl

theorem writeOptional_run (string : Option (List U8)) {w : Wire} {p : List U8} (hp : w.Holds p)
    (h : p.length + Request.room string ≤ PubSubClient.maxPacketSize) :
    ∃ buffer, writeOptional string p.length w =
        (some (p ++ string.elim [] text).length, w.reading buffer w.input) ∧
      p ++ string.elim [] text <+: buffer.bytes := by
  cases string with
  | none =>
    refine ⟨w.buffer, ?_, by rwa [Option.elim_none, List.append_nil]⟩
    rw [Option.elim_none, List.append_nil]
    rfl
  | some s => exact writeString_run s hp (by rw [Request.room, Option.elim_some] at h; omega)

/-- The flags, put together by shifts, are those of the protocol. -/
theorem connectFlags_eq (will : Option Mqtt.Will) (user pass : Option (List U8)) :
    connectFlags will user pass =
      BitVec.ofNat 8 (Mqtt.Message.connectFlags will (user.map fun u => ⟨u, pass⟩)) := by
  rcases will with _ | ⟨_, _, qos, _ | _⟩ <;> rcases user with _ | _ <;> rcases pass with _ | _ <;>
    simp only [connectFlags, Mqtt.Message.connectFlags, Option.map_none, Option.map_some,
      Option.isSome_none, Option.isSome_some] <;>
    first | rfl | (revert qos; simp only [Bool.false_eq_true, if_false, if_true]; decide)

/-- The bytes of an optional string. -/
def textOf (string : Option (List U8)) : List U8 := string.elim [] text

theorem length_textOf (string : Option (List U8)) :
    (textOf string).length = Request.room string := by
  cases string with
  | none => rfl
  | some s => exact length_text s

/-- The five texts of a `connect`, one behind the other. -/
theorem writeTexts_run (id : List U8) (user pass : Option (List U8)) (will : Option Mqtt.Will)
    {w : Wire} {p : List U8} (hp : w.Holds p)
    (h : p.length + (2 + id.length) + Request.room (will.map (·.topic)) +
      Request.room (will.map (·.message)) + Request.room user +
        Request.room (user.bind fun _ => pass) ≤ PubSubClient.maxPacketSize) :
    ∃ buffer, writeTexts id user pass will p.length w =
        (some (p ++ text id ++ textOf (will.map (·.topic)) ++ textOf (will.map (·.message)) ++
          textOf user ++ textOf (user.bind fun _ => pass)).length, w.reading buffer w.input) ∧
      p ++ text id ++ textOf (will.map (·.topic)) ++ textOf (will.map (·.message)) ++
          textOf user ++ textOf (user.bind fun _ => pass) <+: buffer.bytes := by
  obtain ⟨b₁, hrun₁, hb₁⟩ := writeString_run id hp (by omega)
  obtain ⟨b₂, hrun₂, hb₂⟩ := writeOptional_run (w := w.reading b₁ w.input)
    (will.map (·.topic)) hb₁ (by rw [List.length_append, length_text]; omega)
  obtain ⟨b₃, hrun₃, hb₃⟩ := writeOptional_run (w := w.reading b₂ w.input)
    (will.map (·.message)) hb₂ (by
      rw [← textOf]
      simp only [List.length_append, length_text, length_textOf]
      omega)
  obtain ⟨b₄, hrun₄, hb₄⟩ := writeOptional_run (w := w.reading b₃ w.input) user hb₃ (by
      rw [← textOf, ← textOf]
      simp only [List.length_append, length_text, length_textOf]
      omega)
  obtain ⟨b₅, hrun₅, hb₅⟩ := writeOptional_run (w := w.reading b₄ w.input)
    (user.bind fun _ => pass) hb₄ (by
      rw [← textOf, ← textOf, ← textOf]
      simp only [List.length_append, length_text, length_textOf]
      omega)
  refine ⟨b₅, ?_, hb₅⟩
  rw [writeTexts, Cut.bind_of_finished hrun₁, Cut.bind_of_finished hrun₂, reading_reading,
    reading_input, Cut.bind_of_finished hrun₃, reading_reading, reading_input,
    Cut.bind_of_finished hrun₄, reading_reading, reading_input, hrun₅]
  rfl

/-- The texts of a `connect` are those the protocol asks for. -/
theorem texts_eq (user pass : Option (List U8)) (will : Option Mqtt.Will) :
    Mqtt.Message.willTexts will ++ Mqtt.Message.loginTexts (user.map fun u => ⟨u, pass⟩) =
      textOf (will.map (·.topic)) ++ textOf (will.map (·.message)) ++ textOf user ++
        textOf (user.bind fun _ => pass) := by
  cases will <;> cases user <;> cases pass <;>
    simp [Mqtt.Message.willTexts, Mqtt.Message.loginTexts, textOf]

/-- A `connect` whose texts fit. -/
theorem connect_run {id : List U8} {user pass : Option (List U8)} {will : Option Mqtt.Will}
    (w : Wire) (h : (Request.connect id user pass will).Fits) :
    ∃ buffer, connect id user pass will w = (some true, { w.reading buffer w.input with
      nextMsgId := 1
      output := w.output ++
        (Mqtt.Message.connect keepAlive id will (user.map fun u => ⟨u, pass⟩)).frame.bytes }) := by
  simp only [Request.Fits] at h
  obtain ⟨x, hx, hp⟩ := exists_front { w with nextMsgId := 1 }
  -- the protocol's name, the flags and the interval
  obtain ⟨b₁, hrun₁, hb₁⟩ := storeBytes_run
    (Mqtt.Message.protocolName ++ connectFlags will user pass :: word keepAlive.toNat) hp
    (by simp [hx, Mqtt.Message.protocolName, PubSubClient.maxPacketSize])
  have hlen : (x ++ (Mqtt.Message.protocolName ++ connectFlags will user pass ::
      word keepAlive.toNat)).length = 15 := by
    simp [hx, Mqtt.Message.protocolName]
  obtain ⟨b₂, hrun₂, hb₂⟩ := writeTexts_run id user pass will
    (w := ({ w with nextMsgId := 1 } : Wire).reading b₁ w.input) hb₁ (by rw [hlen]; exact h)
  -- the body, as the protocol has it
  have hbody : x ++ (Mqtt.Message.protocolName ++ connectFlags will user pass ::
      word keepAlive.toNat) ++ text id ++ textOf (will.map (·.topic)) ++
        textOf (will.map (·.message)) ++ textOf user ++ textOf (user.bind fun _ => pass) =
      x ++ (Mqtt.Message.connect keepAlive id will (user.map fun u => ⟨u, pass⟩)).frame.body := by
    rw [Mqtt.Message.frame, texts_eq, connectFlags_eq]
    simp only [List.append_assoc, List.cons_append]
  rw [hbody] at hrun₂ hb₂
  obtain ⟨b₃, hrun₃⟩ := write_run (w := ({ w with nextMsgId := 1 } : Wire).reading b₂ w.input) 0x10
    hx hb₂
  have hframe : Frame.mk 0x10
      (Mqtt.Message.connect keepAlive id will (user.map fun u => ⟨u, pass⟩)).frame.body =
      (Mqtt.Message.connect keepAlive id will (user.map fun u => ⟨u, pass⟩)).frame := rfl
  rw [hframe] at hrun₃
  rw [hlen] at hrun₁ hrun₂
  rw [hx] at hrun₁
  have hlist : ([0, 4, 0x4D, 0x51, 0x54, 0x54, 4, connectFlags will user pass,
      (keepAlive >>> 8).setWidth 8, keepAlive.setWidth 8] : List U8) =
      Mqtt.Message.protocolName ++ connectFlags will user pass :: word keepAlive.toNat := rfl
  have hcount : (x ++ (Mqtt.Message.connect keepAlive id will
      (user.map fun u => ⟨u, pass⟩)).frame.body).length - 5 =
      (Mqtt.Message.connect keepAlive id will (user.map fun u => ⟨u, pass⟩)).frame.body.length := by
    rw [List.length_append, hx]
    omega
  refine ⟨b₃, ?_⟩
  rw [connect, Cut.bind_of_finished
    (show Cut.update _ w = (some (), ({ w with nextMsgId := 1 } : Wire)) from rfl), hlist,
    Cut.bind_of_finished hrun₁]
  refine (Cut.bind_of_finished hrun₂).trans ?_
  rw [hcount]
  exact hrun₃

/-- A packet of two bytes. -/
theorem bare_run {m : Mqtt.Message} {bs : List U8} (hm : m.frame.bytes = bs) (w : Wire)
    (h : bs.length ≤ PubSubClient.maxPacketSize) :
    ∃ buffer, (storeBytes 0 bs >>= fun _ => send 0 bs.length) w =
      (some (), { w.reading buffer w.input with output := w.output ++ m.frame.bytes }) :=
  answer_run hm w h

/-! ### Sessions -/

/-- A request that fits the buffer is sent as its message, or refused. -/
theorem request_run {r : Request} (h : r.Fits) (w : Wire) :
    ∃ w', r.run w = (some (), w') ∧ w'.nextMsgId = (r.sent w.nextMsgId).2 ∧
      w'.output = w.output ++
        Frame.stream ((r.sent w.nextMsgId).1.toList.map Mqtt.Message.frame) := by
  cases r with
  | connect id user pass will =>
    obtain ⟨buffer, hrun⟩ := connect_run w h
    refine ⟨_, by rw [Request.run, Cut.bind_of_finished hrun]; rfl, rfl, ?_⟩
    simp [Request.sent]
  | publish topic payload retained =>
    by_cases hlen : PubSubClient.maxPacketSize < 7 + topic.length + payload.length
    · refine ⟨w, ?_, by simp only [Request.sent, if_pos hlen], by simp [Request.sent, hlen]⟩
      rw [Request.run, publish, if_pos (by omega)]
      rfl
    · obtain ⟨buffer, hrun⟩ := publish_run retained w
        (show 7 + topic.length + payload.length ≤ PubSubClient.maxPacketSize by omega)
      refine ⟨_, by rw [Request.run, Cut.bind_of_finished hrun]; rfl, ?_, ?_⟩
      · simp only [Request.sent, if_neg hlen]
        rfl
      · simp [Request.sent, hlen]
  | subscribe topic qos =>
    by_cases hqos : 1 < qos.toNat
    · refine ⟨w, ?_, by simp [Request.sent, hqos], by simp [Request.sent, hqos]⟩
      rw [Request.run, subscribe, if_pos hqos]
      rfl
    · by_cases hlen : PubSubClient.maxPacketSize < 9 + topic.length
      · refine ⟨w, ?_, by simp [Request.sent, hlen], by simp [Request.sent, hlen]⟩
        rw [Request.run, subscribe, if_neg hqos, if_pos hlen]
        rfl
      · have hshort : topic.length ≤ 246 := by
          have := h.resolve_left hqos
          simp only [PubSubClient.maxPacketSize] at hlen
          omega
        obtain ⟨buffer, hrun⟩ := subscribe_run w hqos hshort
        refine ⟨_, by rw [Request.run, Cut.bind_of_finished hrun]; rfl, ?_, ?_⟩
        · simp [Request.sent, hqos, hlen]
        · simp [Request.sent, hqos, hlen]
  | unsubscribe topic =>
    by_cases hlen : PubSubClient.maxPacketSize < 9 + topic.length
    · refine ⟨w, ?_, by simp [Request.sent, hlen], by simp [Request.sent, hlen]⟩
      rw [Request.run, unsubscribe, if_pos hlen]
      rfl
    · obtain ⟨buffer, hrun⟩ := unsubscribe_run w (show topic.length ≤ 247 by
        simp only [PubSubClient.maxPacketSize] at hlen; omega)
      refine ⟨_, by rw [Request.run, Cut.bind_of_finished hrun]; rfl, ?_, ?_⟩
      · simp [Request.sent, hlen]
      · simp [Request.sent, hlen]
  | ping =>
    obtain ⟨buffer, hrun⟩ := bare_run (show Mqtt.Message.pingreq.frame.bytes = [0xC0, 0] by
      rw [Frame.bytes_of_lt (by decide)]; rfl) w (by decide)
    obtain ⟨_, w₁, h₁, h₂⟩ := Cut.bind_finished hrun
    refine ⟨{ w.reading buffer w.input with
      output := w.output ++ Mqtt.Message.pingreq.frame.bytes
      pingOutstanding := true }, ?_, rfl, by simp [Request.sent]⟩
    rw [Request.run, ping, Cut.bind_of_finished h₁]
    exact Cut.bind_of_finished h₂
  | disconnect =>
    obtain ⟨buffer, hrun⟩ := bare_run (show Mqtt.Message.disconnect.frame.bytes = [0xE0, 0] by
      rw [Frame.bytes_of_lt (by decide)]; rfl) w (by decide)
    exact ⟨_, hrun, rfl, by simp [Request.sent]⟩

/-- The messages of a sequence of requests. -/
def Request.sentAll (next : U16) : List Request → List Mqtt.Message
  | [] => []
  | r :: rs => (r.sent next).1.toList ++ sentAll (r.sent next).2 rs

/-- What a request sends is well formed. -/
theorem sent_writable {r : Request} (h : r.Fits) {next : U16} {m : Mqtt.Message}
    (hm : m ∈ (r.sent next).1.toList) : m.Writable := by
  cases r with
  | connect id user pass will =>
    obtain rfl : m = .connect keepAlive id will (user.map fun u => ⟨u, pass⟩) := by
      simpa [Request.sent] using hm
    simp only [Request.Fits, PubSubClient.maxPacketSize] at h
    refine ⟨?_, ?_, ?_⟩
    · rw [Mqtt.Message.Fits]
      omega
    · rintro wl rfl
      simp only [Option.map_some, Request.room, Option.elim_some] at h
      constructor <;> rw [Mqtt.Message.Fits] <;> omega
    · intro l hl
      cases user with
      | none => simp at hl
      | some u =>
        obtain rfl : l = ⟨u, pass⟩ := by simpa using hl.symm
        simp only [Option.bind_some, Request.room, Option.elim_some] at h
        refine ⟨show u.length < 65536 by omega, ?_⟩
        rintro p rfl
        simp only [Option.elim_some] at h
        rw [Mqtt.Message.Fits]
        omega
  | publish topic payload retained =>
    simp only [Request.sent] at hm
    split at hm
    · simp at hm
    · rename_i hlen
      obtain rfl : m = .publish false retained none topic payload := by simpa using hm
      simp only [PubSubClient.maxPacketSize] at hlen
      show topic.length < 65536
      omega
  | subscribe topic qos =>
    simp only [Request.sent] at hm
    split at hm
    · simp at hm
    · rename_i hlen
      obtain rfl : m = .subscribe (bump next) topic qos := by simpa using hm
      simp only [PubSubClient.maxPacketSize, not_or] at hlen
      show topic.length < 65536
      omega
  | unsubscribe topic =>
    simp only [Request.sent] at hm
    split at hm
    · simp at hm
    · rename_i hlen
      obtain rfl : m = .unsubscribe (bump next) topic := by simpa using hm
      simp only [PubSubClient.maxPacketSize] at hlen
      show topic.length < 65536
      omega
  | ping =>
    obtain rfl : m = .pingreq := by simpa [Request.sent] using hm
    trivial
  | disconnect =>
    obtain rfl : m = .disconnect := by simpa [Request.sent] using hm
    trivial

/-- So is all that several requests send. -/
theorem sentAll_writable {rs : List Request} (h : ∀ r ∈ rs, r.Fits) (next : U16) :
    ∀ m ∈ Request.sentAll next rs, m.Writable := by
  induction rs generalizing next with
  | nil => simp [Request.sentAll]
  | cons r rs ih =>
    intro m hm
    rcases List.mem_append.1 hm with hm | hm
    · exact sent_writable (h r List.mem_cons_self) hm
    · exact ih (fun r' hr' => h r' (List.mem_cons_of_mem r hr')) _ m hm

/-- The bytes of a sequence of requests are the frames of their messages. -/
theorem requests_run {rs : List Request} (h : ∀ r ∈ rs, r.Fits) (w : Wire) :
    ∃ w', Cut.each Request.run rs w = (some (), w') ∧
      w'.output = w.output ++
        Frame.stream ((Request.sentAll w.nextMsgId rs).map Mqtt.Message.frame) := by
  induction rs generalizing w with
  | nil => exact ⟨w, rfl, by simp [Request.sentAll]⟩
  | cons r rs ih =>
    obtain ⟨w₁, hrun₁, hnext, hout₁⟩ := request_run (h r List.mem_cons_self) w
    obtain ⟨w₂, hrun₂, hout₂⟩ := ih (fun r' hr' => h r' (List.mem_cons_of_mem r hr')) w₁
    refine ⟨w₂, ?_, ?_⟩
    · rw [Cut.each, Cut.bind_of_finished hrun₁, hrun₂]
    · rw [hout₂, hout₁, hnext, Request.sentAll, List.map_append, Frame.stream_append,
        List.append_assoc]

/-- What the client writes for a sequence of requests is read by a broker as exactly their
    messages, in their order; a text that is too long is left out, and the buffer is never left. -/
theorem session_sent {rs : List Request} (h : ∀ r ∈ rs, r.Fits) (w : Wire) :
    ∃ w' bytes, Cut.each Request.run rs w = (some (), w') ∧ w'.output = w.output ++ bytes ∧
      Mqtt.Message.readAll bytes = some (Request.sentAll w.nextMsgId rs) := by
  obtain ⟨w', hrun, hout⟩ := requests_run h w
  exact ⟨w', _, hrun, hout, Mqtt.Message.readAll_stream (sentAll_writable h _)⟩

/-- A session with a publication and a subscription. -/
theorem session_sent_short : ∃ w' bytes,
    Cut.each Request.run [.connect [49] (some [97]) (some [98]) none, .subscribe [99] 0,
      .publish [100] [101] false, .disconnect] reset = (some (), w') ∧
      w'.output = reset.output ++ bytes ∧
      Mqtt.Message.readAll bytes = some (Request.sentAll reset.nextMsgId
        [.connect [49] (some [97]) (some [98]) none, .subscribe [99] 0, .publish [100] [101] false,
          .disconnect]) :=
  session_sent (by simp [Request.Fits, Request.room, PubSubClient.maxPacketSize]) reset

/-! ### The end of the buffer -/

/-- A store that comes off was inside the buffer. -/
theorem store_lt {i : Nat} {b : U8} {w w' : Wire} {u : Unit}
    (h : store i b w = (some u, w')) : i < PubSubClient.maxPacketSize := by
  rw [store] at h
  split at h
  · assumption
  · simp at h

/-- So was every store of a loop. -/
theorem storeBytes_end {bs : List U8} {pos n : Nat} {w w' : Wire}
    (h : storeBytes pos bs w = (some n, w')) :
    n = pos + bs.length ∧ (bs ≠ [] → n ≤ PubSubClient.maxPacketSize) := by
  induction bs generalizing pos w with
  | nil =>
    obtain rfl : pos = n := Option.some.inj (congrArg Prod.fst h)
    exact ⟨rfl, fun hne => absurd rfl hne⟩
  | cons b bs ih =>
    rw [storeBytes] at h
    obtain ⟨_, w₁, hstore, h⟩ := Cut.bind_finished h
    obtain ⟨hn, hle⟩ := ih h
    rw [List.length_cons]
    refine ⟨by omega, fun _ => ?_⟩
    cases bs with
    | nil =>
      have := store_lt hstore
      simp only [List.length_nil] at hn
      omega
    | cons c cs => exact hle (List.cons_ne_nil c cs)

/-- A text that was written whole ends inside the buffer. -/
theorem writeString_end {s : List U8} {pos n : Nat} {w w' : Wire}
    (h : writeString s pos w = (some n, w')) :
    n = pos + (2 + s.length) ∧ n ≤ PubSubClient.maxPacketSize := by
  rw [writeString] at h
  obtain ⟨n₁, w₁, h₁, h⟩ := Cut.bind_finished h
  obtain ⟨_, w₂, _, h⟩ := Cut.bind_finished h
  obtain ⟨_, w₃, h₃, h⟩ := Cut.bind_finished h
  obtain rfl : n₁ = n := Option.some.inj (congrArg Prod.fst h)
  obtain ⟨hn, hle⟩ := storeBytes_end h₁
  -- the second byte of the length is stored last
  have hlast := store_lt h₃
  refine ⟨by omega, ?_⟩
  cases s with
  | nil =>
    simp only [List.length_nil] at hn hlast
    omega
  | cons c cs => exact hle (List.cons_ne_nil c cs)

/-- So does one that may be missing. -/
theorem writeOptional_end {string : Option (List U8)} {pos n : Nat} {w w' : Wire}
    (h : writeOptional string pos w = (some n, w')) (hpos : pos ≤ PubSubClient.maxPacketSize) :
    n = pos + Request.room string ∧ n ≤ PubSubClient.maxPacketSize := by
  cases string with
  | none =>
    obtain rfl : pos = n := Option.some.inj (congrArg Prod.fst h)
    exact ⟨rfl, hpos⟩
  | some s => exact writeString_end h

/-- Therefore the texts of a `connect` that was written fit. -/
theorem writeTexts_end {id : List U8} {user pass : Option (List U8)} {will : Option Mqtt.Will}
    {pos n : Nat} {w w' : Wire} (h : writeTexts id user pass will pos w = (some n, w')) :
    pos + (2 + id.length) + Request.room (will.map (·.topic)) +
      Request.room (will.map (·.message)) + Request.room user +
        Request.room (user.bind fun _ => pass) ≤ PubSubClient.maxPacketSize := by
  rw [writeTexts] at h
  obtain ⟨n₁, w₁, h₁, h⟩ := Cut.bind_finished h
  obtain ⟨n₂, w₂, h₂, h⟩ := Cut.bind_finished h
  obtain ⟨n₃, w₃, h₃, h⟩ := Cut.bind_finished h
  obtain ⟨n₄, w₄, h₄, h⟩ := Cut.bind_finished h
  obtain ⟨e₁, l₁⟩ := writeString_end h₁
  obtain ⟨e₂, l₂⟩ := writeOptional_end h₂ l₁
  obtain ⟨e₃, l₃⟩ := writeOptional_end h₃ l₂
  obtain ⟨e₄, l₄⟩ := writeOptional_end h₄ l₃
  obtain ⟨e₅, l₅⟩ := writeOptional_end h l₄
  omega

/-- A request leaves the buffer exactly where its packet has no room there: `connect`, which makes
    no check, for texts that are too long, and `subscribe`, whose check forgets one byte, for a
    topic of 247 characters. -/
theorem request_safe_iff (r : Request) (w : Wire) : (r.run w).1.isSome = true ↔ r.Fits := by
  constructor
  · intro h
    obtain ⟨u, hu⟩ := Option.isSome_iff_exists.1 h
    have hrun : r.run w = (some u, (r.run w).2) := Prod.ext hu rfl
    cases r with
    | connect id user pass will =>
      rw [Request.run] at hrun
      obtain ⟨_, w₁, hconnect, _⟩ := Cut.bind_finished hrun
      rw [connect] at hconnect
      obtain ⟨_, w₂, _, hconnect⟩ := Cut.bind_finished hconnect
      obtain ⟨n, w₃, hstore, hconnect⟩ := Cut.bind_finished hconnect
      obtain ⟨n', w₄, htexts, _⟩ := Cut.bind_finished hconnect
      obtain ⟨hn, -⟩ := storeBytes_end hstore
      have hle := writeTexts_end htexts
      simp only [List.length_cons, List.length_nil] at hn
      rw [Request.Fits]
      omega
    | subscribe topic qos =>
      rw [Request.Fits]
      by_contra hfits
      rw [not_or, not_not] at hfits
      obtain ⟨hqos, hlen⟩ := hfits
      rw [Request.run] at hrun
      obtain ⟨_, w₁, hsub, _⟩ := Cut.bind_finished hrun
      rw [subscribe, if_neg hqos,
        if_neg (by simp only [PubSubClient.maxPacketSize]; omega)] at hsub
      obtain ⟨_, w₂, _, hsub⟩ := Cut.bind_finished hsub
      obtain ⟨n₁, w₃, hid, hsub⟩ := Cut.bind_finished hsub
      obtain ⟨n₂, w₄, htopic, hsub⟩ := Cut.bind_finished hsub
      obtain ⟨n₃, w₅, hlast, _⟩ := Cut.bind_finished hsub
      obtain ⟨e₁, -⟩ := storeBytes_end hid
      obtain ⟨e₂, -⟩ := writeString_end htopic
      obtain ⟨e₃, hle⟩ := storeBytes_end hlast
      have := hle (List.cons_ne_nil _ _)
      simp only [List.length_cons, List.length_nil, PubSubClient.maxPacketSize] at e₁ e₃ this
      omega
    | _ => trivial
  · intro h
    obtain ⟨w', hrun, _⟩ := request_run h w
    rw [hrun]
    rfl

end Wire

end Waterbox
