import Mathlib.Data.List.TakeWhile
import Waterbox.Firmware.Inbound

namespace Waterbox

/-!
# Packets and bytes

The runs of the firmware are about packets (`PubSubClient`); a connection carries bytes (`Wire`).
A packet of the first kind says of the bytes of the second what the client looks at:

* `packetOf` — the packet that stands for a message; `len_packetOf` and `byte3_packetOf` are its
  length and its fourth byte.
* `receive_actions` — what the client does with the packet.
* `packets_simulate` — on the bytes of a message the client does what it does with the packet.
-/

open Framing

/-- The packet that stands for bytes whose type the client does not look at. -/
def otherPacket (bytes : List U8) : Packet := .other bytes.length ((bytes[3]?).getD 0)

/-- The packet that stands for a message. -/
def packetOf : Mqtt.Message → Packet
  | .connack _ code => .connack code
  | .publish _ _ id topic payload =>
    .publish id.isSome (topic.map Wire.toChar) (payload.map Wire.toChar)
  | .pingreq => .pingreq
  | .pingresp => .pingresp
  | m => otherPacket m.frame.bytes

/-- Whether the topic of a message can be a C string. -/
def PlainTopic : Mqtt.Message → Prop
  | .publish _ _ _ topic _ => (0 : U8) ∉ topic
  | _ => True

theorem length_varint (n : Nat) (h : n < 128 ^ 4) :
    (varint n).length = Packet.lengthLength n := by
  unfold Packet.lengthLength
  split_ifs with h₁ h₂ h₃
  · rw [varint_of_lt h₁, List.length_singleton]
  · rw [varint_of_le (by omega), varint_of_lt (by omega), List.length_cons, List.length_singleton]
  · rw [varint_of_le (by omega), varint_of_le (by omega), varint_of_lt (by omega)]
    rfl
  · rw [varint_of_le (by omega), varint_of_le (by omega), varint_of_le (by omega),
      varint_of_lt (by omega)]
    rfl

/-- A packet has the length of the bytes it stands for. -/
theorem len_packetOf (m : Mqtt.Message) (h : m.frame.size ≤ 65536) :
    (packetOf m).len = m.frame.size := by
  cases m with
  | connack flags code =>
    rw [Frame.size_of_lt (by simp [Mqtt.Message.frame])]
    rfl
  | publish dup retain id topic payload =>
    have hbody : (Mqtt.Message.publish dup retain id topic payload).frame.body.length =
        2 + topic.length + (if id.isSome then 2 else 0) + payload.length := by
      cases id <;> simp [Mqtt.Message.frame, Mqtt.Message.idBytes, Nat.add_assoc]
    have hlt : (Mqtt.Message.publish dup retain id topic payload).frame.body.length < 128 ^ 4 := by
      rw [Frame.size] at h
      omega
    rw [Frame.size, length_varint _ hlt, hbody]
    show 1 + Packet.lengthLength (2 + (topic.map Wire.toChar).length + _ +
      (payload.map Wire.toChar).length) + (2 + (topic.map Wire.toChar).length + _ +
        (payload.map Wire.toChar).length) = _
    rw [List.length_map, List.length_map]
  | pingreq =>
    rw [Frame.size_of_lt (by decide)]
    rfl
  | pingresp =>
    rw [Frame.size_of_lt (by decide)]
    rfl
  | _ => exact Frame.length_bytes _

/-- The fourth byte of a packet of four bytes. -/
theorem byte3_packetOf (m : Mqtt.Message) (h : m.frame.size = 4) :
    m.frame.bytes[3]? = some (packetOf m).byte3 := by
  have hfour : 3 < m.frame.bytes.length := by
    rw [Frame.length_bytes, h]
    decide
  cases m with
  | connack flags code =>
    rw [Frame.bytes_of_lt (by simp [Mqtt.Message.frame])]
    rfl
  | publish dup retain id topic payload =>
    -- both texts are empty
    have hbody : (Mqtt.Message.publish dup retain id topic payload).frame.body.length =
        2 + (topic.length + ((Mqtt.Message.idBytes id).length + payload.length)) := by
      simp [Mqtt.Message.frame, Nat.add_assoc]
    have hpos := List.length_pos_iff.2
      (varint_ne_nil (Mqtt.Message.publish dup retain id topic payload).frame.body.length)
    rw [Frame.size] at h
    have htopic : topic = [] := List.length_eq_zero_iff.1 (by omega)
    have htwo : (Mqtt.Message.publish dup retain id topic payload).frame.body.length = 2 := by omega
    subst htopic
    rw [Frame.bytes, htwo, varint_of_lt (by omega)]
    rfl
  | pingreq =>
    rw [Frame.size_of_lt (by decide)] at h
    exact absurd h (by decide)
  | pingresp =>
    rw [Frame.size_of_lt (by decide)] at h
    exact absurd h (by decide)
  | _ =>
    show _ = some (Packet.byte3 (otherPacket _))
    rw [otherPacket, Packet.byte3, List.getElem?_eq_getElem hfour, Option.getD_some]

namespace PubSubClient

variable {F : Type}

/-- An action of the client, in a run of the firmware. -/
def perform (callback : CString → CString → Fw F Unit) (t : U32) : Wire.Action → Fw F Unit
  | .call topic payload => callback topic payload
  | .answer (.puback _) => do
    let _ ← next
    emit .mqttWrite
    set fun c => { c with lastOutActivity := t }
  | .answer _ => do
    let _ ← next
    emit .mqttWrite
  | .pong => set fun c => { c with pingOutstanding := false }

theorem toNat_toChar (b : U8) : (Wire.toChar b).toNat = b.toNat := by
  have hall : ∀ i : Fin 256, (Char.ofNat i.val).toNat = i.val := by decide +kernel
  exact hall ⟨b.toNat, b.isLt⟩

theorem cstr_of_plain {topic : List U8} (h : (0 : U8) ∉ topic) :
    Text.cstr (topic.map Wire.toChar) = topic.map Wire.toChar := by
  rw [Text.cstr, List.takeWhile_eq_self_iff]
  intro c hc
  obtain ⟨b, hb, rfl⟩ := List.mem_map.1 hc
  have hne : b.toNat ≠ 0 := by
    intro hzero
    have hb0 : b = 0 := BitVec.eq_of_toNat_eq hzero
    exact h (hb0 ▸ hb)
  have hchar : Wire.toChar b ≠ '\x00' := by
    intro heq
    have hval := toNat_toChar b
    rw [heq] at hval
    exact hne hval.symm
  exact decide_eq_true hchar

theorem each_singleton {σ α : Type} (body : α → Cut σ Unit) (a : α) :
    Cut.each body [a] = body a := bind_pure_unit

/-- What `loop()` does with a packet is what the protocol asks for the message. -/
theorem receive_actions (callback : CString → CString → Fw F Unit) (t : U32) {m : Mqtt.Message}
    (h : PlainTopic m) :
    receive callback t (packetOf m) = Cut.each (perform callback t) (Wire.actions m) := by
  cases m with
  | publish dup retain id topic payload =>
    cases id with
    | none =>
      show (callback (topic.map Wire.toChar) (payload.map Wire.toChar) >>= fun _ => pure ()) =
        (callback (Text.cstr (topic.map Wire.toChar)) (payload.map Wire.toChar) >>=
          fun _ => pure ())
      rw [cstr_of_plain h]
    | some id =>
      show (callback (topic.map Wire.toChar) (payload.map Wire.toChar) >>= fun _ => _) =
        (callback (Text.cstr (topic.map Wire.toChar)) (payload.map Wire.toChar) >>= fun _ => _)
      rw [cstr_of_plain h, each_singleton]
      rfl
  | pingreq => exact (each_singleton (perform callback t) (.answer .pingresp)).symm
  | pingresp => exact (each_singleton (perform callback t) .pong).symm
  | _ => rfl

/-- What `connect()` sees of the answer to its packet. -/
theorem readAnswer_run {m : Mqtt.Message} (hsize : m.frame.size ≤ 65536) {w : Wire}
    {rest : List (Option U8)} (h : w.input = m.frame.bytes.map some ++ rest) :
    ∃ buffer, Wire.readAnswer w =
      (some (if (packetOf m).len = 4 then some (packetOf m).byte3 else none),
        w.reading buffer rest) := by
  obtain ⟨buffer, hread, hbuffer⟩ := Wire.readPacket_run m.frame hsize Wire.two_le_body h
  refine ⟨buffer, ?_⟩
  rw [Wire.readAnswer, Cut.bind_of_finished hread, len_packetOf m hsize]
  by_cases hfour : m.frame.size = 4
  · have hload : Wire.load 3 (w.reading buffer rest) =
        (some (packetOf m).byte3, w.reading buffer rest) := by
      apply Wire.load_run (w := w.reading buffer rest) (p := m.frame.bytes.take maxPacketSize)
        hbuffer
      rw [List.getElem?_take_of_lt (by decide), byte3_packetOf m hfour]
    rw [if_pos hfour]
    simp only [hfour, Wire.lengthOf]
    exact Cut.bind_of_finished hload
  · have hne : ¬ Wire.lengthOf m.frame.size = 4 := by
      unfold Wire.lengthOf
      split_ifs with hfits
      · intro heq
        have hnat := congrArg BitVec.toNat heq
        simp only [maxPacketSize] at hfits
        rw [Wire.toNat_ofNat16 (by omega)] at hnat
        exact hfour hnat
      · decide
    simp only [if_neg hfour, if_neg hne]
    rfl

/-- The packets that the runs of the firmware are about stand for the bytes on the connection: on
    the bytes of a message, `connect()` finds the answer that the packet gives, and `loop()` does
    the same actions as with the packet. -/
theorem packets_simulate {m : Mqtt.Message} (hsize : m.frame.size ≤ 65536) (htopic : PlainTopic m)
    {w : Wire} {rest : List (Option U8)} (h : w.input = m.frame.bytes.map some ++ rest) :
    (∃ buffer, Wire.readAnswer w =
      (some (if (packetOf m).len = 4 then some (packetOf m).byte3 else none),
        w.reading buffer rest)) ∧
    ∃ as : List Wire.Action,
      (∃ buffer, Wire.poll w = (some (), (Wire.act as w).reading buffer rest)) ∧
      ∀ (F : Type) (callback : CString → CString → Fw F Unit) (t : U32),
        (if (packetOf m).len ≤ maxPacketSize then receive callback t (packetOf m) else pure ()) =
          Cut.each (perform callback t) as := by
  refine ⟨readAnswer_run hsize h, Wire.handled m, Wire.poll_run hsize h, fun F callback t => ?_⟩
  rw [len_packetOf m hsize, Wire.handled]
  by_cases hfits : m.frame.size ≤ maxPacketSize
  · rw [if_pos hfits, if_pos hfits, receive_actions callback t htopic]
  · rw [if_neg hfits, if_neg hfits]
    rfl

/-- A refused `connect()`. -/
theorem packets_simulate_connack :
    (∃ buffer, Wire.readAnswer { Wire.reset with input := [some 0x20, some 2, some 0, some 5] } =
      (some (if (packetOf (.connack 0 5)).len = 4 then some (packetOf (.connack 0 5)).byte3
        else none),
        Wire.reset.reading buffer [])) ∧
    ∃ as : List Wire.Action,
      (∃ buffer, Wire.poll { Wire.reset with input := [some 0x20, some 2, some 0, some 5] } =
        (some (), (Wire.act as
          { Wire.reset with input := [some 0x20, some 2, some 0, some 5] }).reading buffer [])) ∧
      ∀ (F : Type) (callback : CString → CString → Fw F Unit) (t : U32),
        (if (packetOf (.connack 0 5)).len ≤ maxPacketSize then
          receive callback t (packetOf (.connack 0 5)) else pure ()) =
          Cut.each (perform callback t) as :=
  packets_simulate (m := .connack 0 5) (by rw [Frame.size_of_lt (by decide)]; decide) trivial
    (by rw [Frame.bytes_of_lt (by decide)]; rfl)

end PubSubClient

end Waterbox
