import Mathlib.Tactic.IntervalCases
import Mathlib.Tactic.Ring
import Waterbox.Lib.Mqtt
import Waterbox.Firmware.Wire

namespace Waterbox

/-!
# What the MQTT client reads from its connection

* `Wire.readPacket_run` — a frame is read to its end, whatever its length up to 65536 bytes, and
  as much of it as there is room for lies in the buffer.
* `Wire.session_received` — the callbacks and the answers for a sequence of messages.
-/

open Framing

namespace Wire

/-! ### One byte -/

theorem readByte_run {w : Wire} {b : U8} {rest : List (Option U8)}
    (h : w.input = some b :: rest) : readByte w = (some (some b), w.reading w.buffer rest) := by
  rw [readByte, h]
  rfl

theorem toNat_ofNat16 {n : Nat} (h : n < 65536) : (BitVec.ofNat 16 n).toNat = n := by
  rw [BitVec.toNat_ofNat]
  exact Nat.mod_eq_of_lt h

theorem readByteAt_run {w : Wire} {p : List U8} (hp : w.Holds p)
    (hlen : p.length < PubSubClient.maxPacketSize) {len : U16}
    (hp' : len = BitVec.ofNat 16 p.length)
    {b : U8} {rest : List (Option U8)} (h : w.input = some b :: rest) :
    ∃ buffer, readByteAt len w = (some true, w.reading buffer rest) ∧
      p ++ [b] <+: buffer.bytes := by
  subst hp'
  have hsmall : p.length < 65536 := by
    simp only [PubSubClient.maxPacketSize] at hlen
    omega
  obtain ⟨buffer, hstore, hbuffer⟩ :=
    store_run (w := w.reading w.buffer rest) (p := p) hp hlen b
  refine ⟨buffer, ?_, hbuffer⟩
  rw [readByteAt, Cut.bind_of_finished (readByte_run h)]
  simp only [toNat_ofNat16 hsmall]
  rw [Cut.bind_of_finished hstore]
  rfl

/-! ### The length -/

theorem low_bits {n : Nat} (h : n < 256) : (BitVec.ofNat 8 n &&& 127 : U8).toNat = n % 128 := by
  rw [BitVec.toNat_and, toNat_ofNat_of_lt h]
  exact Nat.and_two_pow_sub_one_eq_mod n 7

theorem high_bit {n : Nat} (h : n < 256) : (BitVec.ofNat 8 n &&& 128 : U8) = 0 ↔ n < 128 := by
  have hall : ∀ i : Fin 256, (BitVec.ofNat 8 i &&& 128 : U8) = 0 ↔ i.val < 128 := by
    decide +kernel
  exact hall ⟨n, h⟩

/-- A digit adds its seven bits at its place. -/
theorem add_digit (length : U16) (multiplier : U32) (digit : U8) (d : Nat)
    (hd : (digit &&& 127).toNat = d) :
    length + ((digit &&& 127).setWidth 32 * multiplier).setWidth 16 =
      length + BitVec.ofNat 16 (d * multiplier.toNat) := by
  have hlt : d < 2 ^ 32 := by
    have := (digit &&& 127).isLt
    omega
  congr 1
  apply BitVec.eq_of_toNat_eq
  rw [BitVec.toNat_setWidth, BitVec.toNat_mul, BitVec.toNat_setWidth, hd, BitVec.toNat_ofNat,
    Nat.mod_eq_of_lt hlt, Nat.mod_mod_of_dvd _ (by decide : 2 ^ 16 ∣ 2 ^ 32)]

/-- The length in front of a body is read, modulo `2 ^ 16`. -/
theorem readLength_run (n : Nat) {k : Nat} {w : Wire} {p : List U8} (hp : w.Holds p)
    (length : U16) (multiplier : U32) {rest : List (Option U8)}
    (hk : (varint n).length ≤ k)
    (hlen : p.length + (varint n).length ≤ PubSubClient.maxPacketSize)
    (h : w.input = (varint n).map some ++ rest) :
    ∃ buffer, readLength k (BitVec.ofNat 16 p.length) length multiplier w =
        (some (some (BitVec.ofNat 16 (p ++ varint n).length,
          length + BitVec.ofNat 16 (n * multiplier.toNat))), w.reading buffer rest) ∧
      p ++ varint n <+: buffer.bytes := by
  induction n using Nat.strongRecOn generalizing k w p length multiplier with
  | ind n ih =>
    have hsmall : p.length < 65536 := by
      simp only [PubSubClient.maxPacketSize] at hlen
      omega
    have hpos : 0 < (varint n).length := List.length_pos_iff.2 (varint_ne_nil n)
    obtain ⟨k, rfl⟩ : ∃ j, k = j + 1 := ⟨k - 1, by omega⟩
    have hnext : BitVec.ofNat 16 p.length + 1 = BitVec.ofNat 16 (p.length + 1) := by
      rw [BitVec.ofNat_add]
      rfl
    by_cases hn : n < 128
    · -- the last digit
      rw [varint_of_lt hn] at h hlen ⊢
      have hin : w.input = some (BitVec.ofNat 8 n) :: rest := h
      have hd : (BitVec.ofNat 8 n &&& 127 : U8).toNat = n := by
        rw [low_bits (by omega), Nat.mod_eq_of_lt hn]
      obtain ⟨buffer, hstore, hbuffer⟩ := store_run
        (w := w.reading w.buffer rest) (p := p) hp (by simp at hlen; omega) (BitVec.ofNat 8 n)
      refine ⟨buffer, ?_, hbuffer⟩
      rw [readLength, Cut.bind_of_finished (readByte_run hin)]
      simp only [toNat_ofNat16 hsmall]
      rw [Cut.bind_of_finished hstore, add_digit _ _ _ n hd, if_pos ((high_bit (by omega)).2 hn),
        hnext, List.length_append]
      rfl
    · -- another digit follows
      have hge : 128 ≤ n := Nat.le_of_not_lt hn
      rw [varint_of_le hge] at h hlen hk
      simp only [List.length_cons] at hlen hk
      have hin : w.input = some (BitVec.ofNat 8 (n % 128 + 128)) ::
          ((varint (n / 128)).map some ++ rest) := h
      have hd : (BitVec.ofNat 8 (n % 128 + 128) &&& 127 : U8).toNat = n % 128 := by
        rw [low_bits (by omega)]
        omega
      obtain ⟨buffer, hstore, hbuffer⟩ := store_run
        (w := w.reading w.buffer ((varint (n / 128)).map some ++ rest)) (p := p) hp (by omega)
        (BitVec.ofNat 8 (n % 128 + 128))
      obtain ⟨buffer', hrun, hbuffer'⟩ := ih (n / 128) (by omega)
        (w := w.reading buffer ((varint (n / 128)).map some ++ rest)) hbuffer
        (length + BitVec.ofNat 16 (n % 128 * multiplier.toNat)) (multiplier * 128)
        (k := k) (by omega) (by simp only [List.length_append, List.length_singleton]; omega) rfl
      have hvalue : length + BitVec.ofNat 16 (n % 128 * multiplier.toNat) +
          BitVec.ofNat 16 (n / 128 * (multiplier * 128).toNat) =
            length + BitVec.ofNat 16 (n * multiplier.toNat) := by
        rw [BitVec.add_assoc, ← BitVec.ofNat_add]
        congr 1
        apply BitVec.eq_of_toNat_eq
        have hmul : (multiplier * 128).toNat = multiplier.toNat * 128 % 2 ^ 32 :=
            BitVec.toNat_mul ..
        have hdvd : n / 128 * (multiplier.toNat * 128 % 2 ^ 32) % 2 ^ 16 =
            n / 128 * (multiplier.toNat * 128) % 2 ^ 16 := by
          rw [Nat.mul_mod, Nat.mod_mod_of_dvd _ (by decide : 2 ^ 16 ∣ 2 ^ 32), ← Nat.mul_mod]
        have hsplit : n % 128 * multiplier.toNat + n / 128 * (multiplier.toNat * 128) =
            n * multiplier.toNat := by
          conv_rhs => rw [← Nat.mod_add_div n 128]
          ring
        rw [BitVec.toNat_ofNat, BitVec.toNat_ofNat, hmul, Nat.add_mod, hdvd, ← Nat.add_mod, hsplit]
      refine ⟨buffer', ?_, ?_⟩
      · rw [readLength, Cut.bind_of_finished (readByte_run hin)]
        simp only [toNat_ofNat16 hsmall]
        rw [Cut.bind_of_finished hstore, add_digit _ _ _ _ hd,
          if_neg (mt (high_bit (by omega)).1 (by omega)), hnext]
        rw [List.length_append, List.length_singleton] at hrun
        rw [reading_reading, reading_input, hrun, hvalue, varint_of_le hge, List.append_assoc,
          List.singleton_append]
        rfl
      · rw [varint_of_le hge]
        rwa [List.append_assoc, List.singleton_append] at hbuffer'

/-! ### The body -/

/-- The body is read to its end, and stored as far as the buffer has room. -/
theorem readBody_run (body : List U8) {w : Wire} {p : List U8}
    (hp : w.Holds (p.take PubSubClient.maxPacketSize)) (hlen : p.length + body.length ≤ 65536)
    {rest : List (Option U8)} (h : w.input = body.map some ++ rest) :
    ∃ buffer, readBody body.length (BitVec.ofNat 16 p.length) w =
        (some (some (BitVec.ofNat 16 (p ++ body).length)), w.reading buffer rest) ∧
      (p ++ body).take PubSubClient.maxPacketSize <+: buffer.bytes := by
  induction body generalizing w p with
  | nil =>
    refine ⟨w.buffer, ?_, by rwa [List.append_nil]⟩
    rw [List.append_nil, List.length_nil, readBody, ← show w.input = rest from h]
    rfl
  | cons b body ih =>
    rw [List.length_cons] at hlen
    have hin : w.input = some b :: (body.map some ++ rest) := h
    have hsmall : p.length < 65536 := by omega
    have hnext : BitVec.ofNat 16 p.length + 1 = BitVec.ofNat 16 (p ++ [b]).length := by
      rw [List.length_append, List.length_singleton, BitVec.ofNat_add]
      rfl
    have hstep : ∃ buffer, (p ++ [b]).take PubSubClient.maxPacketSize <+: buffer.bytes ∧
        readBody (b :: body).length (BitVec.ofNat 16 p.length) w =
          readBody body.length (BitVec.ofNat 16 (p ++ [b]).length)
            (w.reading buffer (body.map some ++ rest)) := by
      by_cases hroom : p.length < PubSubClient.maxPacketSize
      · rw [List.take_of_length_le (Nat.le_of_lt hroom)] at hp
        obtain ⟨buffer, hstore, hbuffer⟩ := store_run
          (w := w.reading w.buffer (body.map some ++ rest)) (p := p) hp hroom b
        refine ⟨buffer, ?_, ?_⟩
        · rwa [List.take_of_length_le]
          rw [List.length_append, List.length_singleton]
          omega
        · rw [List.length_cons, readBody, Cut.bind_of_finished (readByte_run hin)]
          simp only [toNat_ofNat16 hsmall, if_pos hroom]
          rw [Cut.bind_of_finished hstore, hnext]
          rfl
      · -- only counted
        refine ⟨w.buffer, ?_, ?_⟩
        · rwa [List.take_append_of_le_length (Nat.le_of_not_lt hroom)]
        · rw [List.length_cons, readBody, Cut.bind_of_finished (readByte_run hin)]
          simp only [toNat_ofNat16 hsmall, if_neg hroom]
          rw [hnext]
    obtain ⟨buffer, hbuffer, hrun⟩ := hstep
    obtain ⟨buffer', hrun', hbuffer'⟩ := ih
      (w := w.reading buffer (body.map some ++ rest)) (p := p ++ [b]) hbuffer
      (by rw [List.length_append, List.length_singleton]; omega) rfl
    refine ⟨buffer', ?_, by rwa [List.append_assoc, List.singleton_append] at hbuffer'⟩
    rw [hrun, hrun', List.append_assoc, List.singleton_append]
    rfl

/-! ### A packet -/

/-- The length `readPacket` returns for a packet of `size` bytes. -/
def lengthOf (size : Nat) : U16 :=
  if size ≤ PubSubClient.maxPacketSize then BitVec.ofNat 16 size else 0

theorem lengthOf_counted {size : Nat} (h : size ≤ 65536) :
    (if PubSubClient.maxPacketSize < (BitVec.ofNat 16 size).toNat then 0
      else BitVec.ofNat 16 size) =
      lengthOf size := by
  unfold lengthOf
  by_cases hlast : size = 65536
  · subst hlast
    decide
  · rw [toNat_ofNat16 (by omega)]
    by_cases hfits : size ≤ PubSubClient.maxPacketSize
    · rw [if_neg (by omega), if_pos hfits]
    · rw [if_pos (by omega), if_neg hfits]

/-- The number of digits, counted in the bytes read so far. -/
theorem llen_counted {l : Nat} (h : l ≤ 3) :
    (BitVec.ofNat 16 (1 + l)).setWidth 8 - 1 = (BitVec.ofNat 8 l : U8) := by
  interval_cases l <;> rfl

/-- The start of the body: two bytes of a PUBLISH, none of another packet. -/
theorem readTopicLength_run {header : U8} {body : List U8} {w : Wire} {p : List U8} (hp : w.Holds p)
    (hlen : p.length + 2 ≤ PubSubClient.maxPacketSize)
    (hpublish : isPublish header = true → 2 ≤ body.length) {rest : List (Option U8)}
    (h : w.input = body.map some ++ rest) :
    ∃ buffer k, k ≤ 2 ∧ k ≤ body.length ∧ readTopicLength header (BitVec.ofNat 16 p.length) w =
        (some (some (BitVec.ofNat 16 (p ++ body.take k).length, k)),
          w.reading buffer ((body.drop k).map some ++ rest)) ∧
      p ++ body.take k <+: buffer.bytes := by
  by_cases hheader : isPublish header = true
  · -- both bytes are there
    obtain ⟨a, b, body, rfl⟩ : ∃ a b body', body = a :: b :: body' := by
      have htwo := hpublish hheader
      match body, htwo with
      | a :: b :: body', _ => exact ⟨a, b, body', rfl⟩
    have hin : w.input = some a :: (some b :: (body.map some ++ rest)) := h
    obtain ⟨b₁, hrun₁, hb₁⟩ := readByteAt_run hp (by omega) rfl hin
    have hnext : BitVec.ofNat 16 p.length + 1 = BitVec.ofNat 16 (p ++ [a]).length := by
      rw [List.length_append, BitVec.ofNat_add]
      rfl
    obtain ⟨b₂, hrun₂, hb₂⟩ := readByteAt_run
      (w := w.reading b₁ (some b :: (body.map some ++ rest))) (p := p ++ [a]) hb₁
      (by rw [List.length_append, List.length_singleton]; omega) hnext rfl
    refine ⟨b₂, 2, le_refl 2, by simp, ?_, by simpa using hb₂⟩
    have htwo : BitVec.ofNat 16 p.length + 2 = BitVec.ofNat 16 (p ++ [a, b]).length := by
      rw [List.length_append, BitVec.ofNat_add]
      rfl
    rw [readTopicLength, if_pos hheader, Cut.bind_of_finished hrun₁]
    simp only [if_true]
    rw [Cut.bind_of_finished hrun₂, htwo]
    rfl
  · refine ⟨w.buffer, 0, by omega, Nat.zero_le _, ?_, by rwa [List.take_zero, List.append_nil]⟩
    rw [readTopicLength, if_neg hheader, List.take_zero, List.append_nil, List.drop_zero, ← h]
    rfl

/-- A frame is read to its end, and its start lies in the buffer. -/
theorem readPacket_run (f : Frame) {w : Wire} {rest : List (Option U8)} (hsize : f.size ≤ 65536)
    (hpublish : isPublish f.header = true → 2 ≤ f.body.length)
    (h : w.input = f.bytes.map some ++ rest) :
    ∃ buffer, readPacket w = (some (BitVec.ofNat 8 (varint f.body.length).length, lengthOf f.size),
        w.reading buffer rest) ∧
      f.bytes.take PubSubClient.maxPacketSize <+: buffer.bytes := by
  obtain ⟨header, body⟩ := f
  set digits := varint body.length with hdigits
  have hbytes : (Frame.mk header body).bytes = [header] ++ digits ++ body := rfl
  have hsum : (Frame.mk header body).size = ([header] ++ digits ++ body).length := by
    rw [← hbytes, Frame.length_bytes]
  have htotal := hsize
  simp only [hsum, List.length_append, List.length_singleton] at htotal
  have hpos : 0 < digits.length := List.length_pos_iff.2 (varint_ne_nil _)
  have hl : digits.length ≤ 3 := length_varint_le 2 _ (by omega)
  have hinput : w.input = some header :: (digits.map some ++ (body.map some ++ rest)) := by
    rw [h, hbytes]
    simp
  -- the header
  obtain ⟨b₁, hrun₁, hb₁⟩ := readByteAt_run (Holds.nil w) (by decide)
    (show (0 : U16) = BitVec.ofNat 16 ([] : List U8).length from rfl) hinput
  set w₁ := w.reading b₁ (digits.map some ++ (body.map some ++ rest)) with hw₁
  have hheld : w₁.Holds [header] := hb₁
  have hload : load 0 w₁ = (some header, w₁) := load_run hheld rfl
  -- the length
  obtain ⟨b₂, hrun₂, hb₂⟩ := readLength_run body.length hheld 0 1
    (show (varint body.length).length ≤ PubSubClient.maxPacketSize by
      rw [← hdigits]; simp only [PubSubClient.maxPacketSize]; omega)
    (by rw [← hdigits]; simp only [PubSubClient.maxPacketSize, List.length_singleton]; omega)
    (show w₁.input = (varint body.length).map some ++ (body.map some ++ rest) from rfl)
  rw [← hdigits, show BitVec.ofNat 16 [header].length = 1 from rfl] at hrun₂
  rw [← hdigits] at hb₂
  have hlength : (0 + BitVec.ofNat 16 (body.length * (1 : U32).toNat) : U16).toNat =
      body.length := by
    have hone : body.length * (1 : U32).toNat = body.length := Nat.mul_one _
    have hzero : (0 : U16) + BitVec.ofNat 16 body.length = BitVec.ofNat 16 body.length :=
      BitVec.zero_add _
    rw [hone, hzero, toNat_ofNat16 (by omega)]
  have hllen : (BitVec.ofNat 16 ([header] ++ digits).length).setWidth 8 - 1 =
      (BitVec.ofNat 8 digits.length : U8) := by
    rw [List.length_append, List.length_singleton, llen_counted hl]
  -- the start of the body
  obtain ⟨b₃, k, hk, hk', hrun₃, hb₃⟩ := readTopicLength_run
    (w := w₁.reading b₂ (body.map some ++ rest)) (p := [header] ++ digits) hb₂
    (by simp only [PubSubClient.maxPacketSize, List.length_append, List.length_singleton]; omega)
    hpublish rfl
  -- the rest of it
  have hparts : [header] ++ digits ++ body.take k ++ body.drop k = [header] ++ digits ++ body := by
    rw [List.append_assoc, List.take_append_drop]
  obtain ⟨b₄, hrun₄, hb₄⟩ := readBody_run (body.drop k)
    (w := w₁.reading b₃ ((body.drop k).map some ++ rest)) (p := [header] ++ digits ++ body.take k)
    (by
      rw [List.take_of_length_le]
      · exact hb₃
      · simp only [PubSubClient.maxPacketSize, List.length_append, List.length_singleton,
          List.length_take]
        omega)
    (by rw [← List.length_append, hparts, ← hsum]; exact hsize) rfl
  rw [hparts] at hrun₄ hb₄
  rw [List.length_drop] at hrun₄
  refine ⟨b₄, ?_, by rw [hbytes]; exact hb₄⟩
  rw [readPacket, Cut.bind_of_finished hrun₁]
  simp only [if_true]
  rw [Cut.bind_of_finished hload, Cut.bind_of_finished hrun₂]
  simp only [hllen]
  rw [Cut.bind_of_finished hrun₃]
  simp only [hlength]
  rw [reading_reading, Cut.bind_of_finished hrun₄, hsum]
  simp only [lengthOf_counted (hsum ▸ hsize)]
  rfl

/-! ### Messages -/

/-- What a message makes the client do. -/
inductive Action
  | call (topic payload : CString)
  | answer (m : Mqtt.Message)
  | pong

/-- The client after an action, but for its buffer. -/
def Action.apply (w : Wire) : Action → Wire
  | .call topic payload => { w with calls := w.calls ++ [(topic, payload)] }
  | .answer m => { w with output := w.output ++ m.frame.bytes }
  | .pong => { w with pingOutstanding := false }

/-- The client after one action behind the other. -/
def act (as : List Action) (w : Wire) : Wire := as.foldl Action.apply w

/-- The arguments of the callback. -/
def callOf (topic payload : List U8) : Action :=
  .call (Text.cstr (topic.map toChar)) (payload.map toChar)

/-- What the protocol asks of a client that receives `m`. -/
def actions : Mqtt.Message → List Action
  | .publish _ _ none topic payload => [callOf topic payload]
  | .publish _ _ (some id) topic payload => [callOf topic payload, .answer (.puback id)]
  | .pingreq => [.answer .pingresp]
  | .pingresp => [.pong]
  | _ => []

theorem load_at {w : Wire} {p q : List U8} {b : U8} (hp : w.Holds (p ++ b :: q)) {i : Nat}
    (hi : i = p.length) : load i w = (some b, w) := by
  subst hi
  exact load_run hp (by simp)

theorem loadBytes_at {w : Wire} {a b c : List U8} (hp : w.Holds (a ++ b ++ c)) {i n : Nat}
    (hi : i = a.length) (hn : n = b.length) : loadBytes i n w = (some b, w) := by
  subst hi hn
  exact loadBytes_run hp

/-- The two bytes of a length, put together. -/
theorem word_bytes (n : Nat) :
    ((BitVec.ofNat 8 (n / 256) : U8).setWidth 16 <<< 8 +
      (BitVec.ofNat 8 (n % 256) : U8).setWidth 16 : U16) = BitVec.ofNat 16 n := by
  apply BitVec.eq_of_toNat_eq
  simp only [BitVec.toNat_add, BitVec.toNat_shiftLeft, BitVec.toNat_setWidth, BitVec.toNat_ofNat,
    Nat.shiftLeft_eq]
  omega

/-- The bytes behind the topic of a PUBLISH. -/
theorem rest_counted {l n k : Nat} (h : 3 + l + n + k ≤ 256) :
    (BitVec.ofNat 16 (3 + l + n + k) - (BitVec.ofNat 8 l : U8).setWidth 16 - 3 -
      BitVec.ofNat 16 n : U16) = BitVec.ofNat 16 k := by
  have hthree : (3 : U16).toNat = 3 := rfl
  apply BitVec.eq_of_toNat_eq
  simp only [BitVec.toNat_sub, BitVec.toNat_setWidth, BitVec.toNat_ofNat, Nat.reducePow, hthree]
  omega

/-- An answer is written over the start of the buffer and sent. -/
theorem answer_run {m : Mqtt.Message} {bs : List U8} (hm : m.frame.bytes = bs) (w : Wire)
    (h : bs.length ≤ PubSubClient.maxPacketSize) :
    ∃ buffer, (storeBytes 0 bs >>= fun _ => send 0 bs.length) w =
      (some (), (act [.answer m] w).reading buffer w.input) := by
  subst hm
  obtain ⟨buffer, hstore, hbuffer⟩ := storeBytes_run m.frame.bytes (Holds.nil w) (by simpa using h)
  refine ⟨buffer, ?_⟩
  rw [List.length_nil] at hstore
  rw [Cut.bind_of_finished hstore]
  exact send_run (a := []) (w := w.reading buffer w.input) hbuffer

/-- Without an identifier, `loop()` hands topic and payload of a PUBLISH to the callback. -/
theorem dispatch_publish {header : U8} {digits topic payload : List U8} {w : Wire}
    (hheader : isPublish header = true) (hqos : ¬ header &&& 0x06 = 0x02)
    (hsize : 3 + digits.length + topic.length + payload.length ≤ PubSubClient.maxPacketSize)
    (hp : w.Holds (header :: (digits ++ (word topic.length ++ (topic ++ payload))))) :
    dispatch (BitVec.ofNat 8 digits.length)
        (BitVec.ofNat 16 (3 + digits.length + topic.length + payload.length)) w =
      (some (), act [callOf topic payload] w) := by
  simp only [PubSubClient.maxPacketSize] at hsize
  have hl : (BitVec.ofNat 8 digits.length).toNat = digits.length := toNat_ofNat_of_lt (by omega)
  have hn : (BitVec.ofNat 16 topic.length).toNat = topic.length := toNat_ofNat16 (by omega)
  have hk : (BitVec.ofNat 16 payload.length).toNat = payload.length := toNat_ofNat16 (by omega)
  have hhead : load 0 w = (some header, w) := load_at (p := []) hp rfl
  have hhigh : load (digits.length + 1) w = (some (BitVec.ofNat 8 (topic.length / 256)), w) :=
    load_at (p := header :: digits) (q := BitVec.ofNat 8 (topic.length % 256) :: (topic ++ payload))
      (by simpa [word] using hp) (by simp)
  have hlow : load (digits.length + 2) w = (some (BitVec.ofNat 8 (topic.length % 256)), w) :=
    load_at (p := header :: (digits ++ [BitVec.ofNat 8 (topic.length / 256)]))
      (q := topic ++ payload) (by simpa [word] using hp) (by simp)
  have htopic : loadBytes (digits.length + 3) topic.length w = (some topic, w) :=
    loadBytes_at (a := header :: (digits ++ word topic.length)) (c := payload)
      (by simpa [word] using hp) (by simp) rfl
  have hpayload : loadBytes (digits.length + 3 + topic.length) payload.length w =
      (some payload, w) :=
    loadBytes_at (a := header :: (digits ++ word topic.length ++ topic)) (c := [])
      (by simpa [word] using hp) (by simp; omega) rfl
  rw [dispatch, Cut.bind_of_finished hhead]
  simp only [hheader, if_true, hl]
  rw [Cut.bind_of_finished hhigh, Cut.bind_of_finished hlow]
  simp only [word_bytes, hn]
  rw [Cut.bind_of_finished htopic]
  simp only [if_neg hqos, rest_counted hsize, hk]
  rw [Cut.bind_of_finished hpayload]
  rfl

/-- With an identifier, it answers as well. -/
theorem dispatch_publish_id {header : U8} {digits topic payload : List U8} {id : BitVec 16}
    {w : Wire} (hheader : isPublish header = true) (hqos : header &&& 0x06 = 0x02)
    (hsize : 3 + digits.length + topic.length + (2 + payload.length) ≤ PubSubClient.maxPacketSize)
    (hp : w.Holds (header :: (digits ++ (word topic.length ++ (topic ++
      (word id.toNat ++ payload)))))) :
    ∃ buffer, dispatch (BitVec.ofNat 8 digits.length)
        (BitVec.ofNat 16 (3 + digits.length + topic.length + (2 + payload.length))) w =
      (some (), (act [callOf topic payload, .answer (.puback id)] w).reading buffer w.input) := by
  simp only [PubSubClient.maxPacketSize] at hsize
  have hl : (BitVec.ofNat 8 digits.length).toNat = digits.length := toNat_ofNat_of_lt (by omega)
  have hn : (BitVec.ofNat 16 topic.length).toNat = topic.length := toNat_ofNat16 (by omega)
  have hk : (BitVec.ofNat 16 (2 + payload.length) - 2 : U16).toNat = payload.length := by
    have htwo : (2 : U16).toNat = 2 := rfl
    simp only [BitVec.toNat_sub, BitVec.toNat_ofNat, Nat.reducePow, htwo]
    omega
  have hhead : load 0 w = (some header, w) := load_at (p := []) hp rfl
  have hhigh : load (digits.length + 1) w = (some (BitVec.ofNat 8 (topic.length / 256)), w) :=
    load_at (p := header :: digits)
      (q := BitVec.ofNat 8 (topic.length % 256) :: (topic ++ (word id.toNat ++ payload)))
      (by simpa [word] using hp) (by simp)
  have hlow : load (digits.length + 2) w = (some (BitVec.ofNat 8 (topic.length % 256)), w) :=
    load_at (p := header :: (digits ++ [BitVec.ofNat 8 (topic.length / 256)]))
      (q := topic ++ (word id.toNat ++ payload)) (by simpa [word] using hp) (by simp)
  have htopic : loadBytes (digits.length + 3) topic.length w = (some topic, w) :=
    loadBytes_at (a := header :: (digits ++ word topic.length)) (c := word id.toNat ++ payload)
      (by simpa [word] using hp) (by simp) rfl
  have hidHigh : load (digits.length + 3 + topic.length) w =
      (some (BitVec.ofNat 8 (id.toNat / 256)), w) :=
    load_at (p := header :: (digits ++ word topic.length ++ topic))
      (q := BitVec.ofNat 8 (id.toNat % 256) :: payload) (by simpa [word] using hp)
      (by simp; omega)
  have hidLow : load (digits.length + 3 + topic.length + 1) w =
      (some (BitVec.ofNat 8 (id.toNat % 256)), w) :=
    load_at (p := header :: (digits ++ word topic.length ++ topic ++
      [BitVec.ofNat 8 (id.toNat / 256)])) (q := payload) (by simpa [word] using hp) (by simp; omega)
  have hpayload : loadBytes (digits.length + 3 + topic.length + 2) payload.length w =
      (some payload, w) :=
    loadBytes_at (a := header :: (digits ++ word topic.length ++ topic ++ word id.toNat)) (c := [])
      (by simpa [word] using hp) (by simp [word]; omega) rfl
  have hpuback : (Mqtt.Message.puback id).frame.bytes =
      [0x40, 2, BitVec.ofNat 8 (id.toNat / 256), BitVec.ofNat 8 (id.toNat % 256)] := by
    rw [Frame.bytes_of_lt (by simp [Mqtt.Message.frame])]
    rfl
  obtain ⟨buffer, hanswer⟩ := answer_run hpuback (act [callOf topic payload] w)
    (by simp [PubSubClient.maxPacketSize])
  refine ⟨buffer, ?_⟩
  rw [dispatch, Cut.bind_of_finished hhead]
  simp only [hheader, if_true, hl]
  rw [Cut.bind_of_finished hhigh, Cut.bind_of_finished hlow]
  simp only [word_bytes, hn]
  rw [Cut.bind_of_finished htopic]
  simp only [if_pos hqos, rest_counted hsize, hk]
  rw [Cut.bind_of_finished hidHigh, Cut.bind_of_finished hidLow, Cut.bind_of_finished hpayload,
    Cut.bind_of_finished (show callback topic payload w = (some (), act [callOf topic payload] w)
      from rfl)]
  exact hanswer

/-- Any other packet is answered, ends the wait for an answer, or is ignored. -/
theorem dispatch_other {m : Mqtt.Message} (hm : isPublish m.frame.header = false) {w : Wire}
    (hp : w.Holds [m.frame.header]) (llen : U8) (len : U16) :
    ∃ buffer, dispatch llen len w = (some (), (act (actions m) w).reading buffer w.input) := by
  have hhead : load 0 w = (some m.frame.header, w) := load_at (p := []) hp rfl
  have hpong : (Mqtt.Message.pingresp).frame.bytes = [0xD0, 0] := by
    rw [Frame.bytes_of_lt (by decide)]
    rfl
  rw [dispatch, Cut.bind_of_finished hhead]
  cases m with
  | publish dup retain id topic payload =>
    rw [show (Mqtt.Message.publish dup retain id topic payload).frame.header =
      Mqtt.Message.publishHeader dup retain id from rfl] at hm
    cases dup <;> cases retain <;> cases id <;> simp [Mqtt.Message.publishHeader] at hm <;>
      exact absurd hm (by decide)
  | pingreq =>
    obtain ⟨buffer, hanswer⟩ := answer_run hpong w (by simp [PubSubClient.maxPacketSize])
    refine ⟨buffer, ?_⟩
    simp only [hm, Bool.false_eq_true, if_false]
    exact hanswer
  | pingresp =>
    refine ⟨w.buffer, ?_⟩
    simp only [hm, Bool.false_eq_true, if_false]
    rfl
  | _ =>
    -- no other type of packet is looked at
    refine ⟨w.buffer, ?_⟩
    rw [hm, if_neg Bool.false_ne_true, if_neg (by simp [Mqtt.Message.frame]),
      if_neg (by simp [Mqtt.Message.frame])]
    rfl

@[simp] theorem act_reading (as : List Action) (w : Wire) (b b' : Buffer)
    (i i' : List (Option U8)) :
    (act as (w.reading b i)).reading b' i' = (act as w).reading b' i' := by
  induction as generalizing w with
  | nil => rfl
  | cons a as ih =>
    cases a with
    | call topic payload => exact ih (Action.apply w (.call topic payload))
    | answer m => exact ih (Action.apply w (.answer m))
    | pong => exact ih (Action.apply w .pong)

/-- What the client does with a message: one that its buffer has no room for is skipped. -/
def handled (m : Mqtt.Message) : List Action :=
  if m.frame.size ≤ PubSubClient.maxPacketSize then actions m else []

theorem two_le_body {m : Mqtt.Message} (h : isPublish m.frame.header = true) :
    2 ≤ m.frame.body.length := by
  cases m with
  | publish dup retain id topic payload =>
    simp only [Mqtt.Message.frame, List.length_append, length_text]
    omega
  | _ => simp [Mqtt.Message.frame, isPublish] at h

theorem isPublish_header (dup retain : Bool) (id : Option (BitVec 16)) :
    isPublish (Mqtt.Message.publishHeader dup retain id) = true := by
  cases dup <;> cases retain <;> cases id <;> simp [isPublish, Mqtt.Message.publishHeader]

/-- The bits of the header that tell whether there is an identifier. -/
theorem qos_header (dup retain : Bool) (id : Option (BitVec 16)) :
    (Mqtt.Message.publishHeader dup retain id &&& 0x06 : U8) = 0x02 ↔ id.isSome = true := by
  cases dup <;> cases retain <;> cases id <;> simp [Mqtt.Message.publishHeader]

/-- The dispatch of a message whose packet lies in the buffer. -/
theorem dispatch_run {m : Mqtt.Message} {w : Wire}
    (hsize : m.frame.size ≤ PubSubClient.maxPacketSize) (hp : w.Holds m.frame.bytes) :
    ∃ buffer, dispatch (BitVec.ofNat 8 (varint m.frame.body.length).length)
        (BitVec.ofNat 16 m.frame.size) w =
      (some (), (act (actions m) w).reading buffer w.input) := by
  by_cases hm : isPublish m.frame.header = true
  · cases m with
    | publish dup retain id topic payload =>
      set digits := varint (Mqtt.Message.publish dup retain id topic payload).frame.body.length
        with hdigits
      have hbytes : (Mqtt.Message.publish dup retain id topic payload).frame.bytes =
          Mqtt.Message.publishHeader dup retain id :: (digits ++ (word topic.length ++ (topic ++
            (Mqtt.Message.idBytes id ++ payload)))) := by
        rw [Frame.bytes, ← hdigits]
        simp [Mqtt.Message.frame, text]
      have hsum : (Mqtt.Message.publish dup retain id topic payload).frame.size =
          3 + digits.length + topic.length +
            ((Mqtt.Message.idBytes id).length + payload.length) := by
        rw [← Frame.length_bytes, hbytes]
        simp only [List.length_cons, List.length_append, length_word]
        omega
      rw [hsum] at hsize ⊢
      rw [hbytes] at hp
      have hqos := qos_header dup retain id
      cases id with
      | none =>
        rw [Mqtt.Message.idBytes, Option.elim_none, List.nil_append] at hp
        rw [Mqtt.Message.idBytes, Option.elim_none, List.length_nil, Nat.zero_add] at hsize ⊢
        refine ⟨w.buffer, ?_⟩
        exact dispatch_publish (isPublish_header ..) (mt hqos.1 Bool.false_ne_true) hsize hp
      | some id =>
        exact dispatch_publish_id (isPublish_header ..) (hqos.2 rfl) hsize hp
    | _ => simp [Mqtt.Message.frame, isPublish] at hm
  · obtain ⟨t, ht⟩ := hp
    exact dispatch_other (Bool.not_eq_true _ ▸ hm) ⟨_, ht⟩ _ _

/-- One pass of `loop()` takes one message from the connection, whatever its length. -/
theorem poll_run {m : Mqtt.Message} {w : Wire} {rest : List (Option U8)}
    (hsize : m.frame.size ≤ 65536) (h : w.input = m.frame.bytes.map some ++ rest) :
    ∃ buffer, poll w = (some (), (act (handled m) w).reading buffer rest) := by
  obtain ⟨buffer, hread, hbuffer⟩ := readPacket_run m.frame hsize two_le_body h
  rw [poll, Cut.bind_of_finished hread]
  by_cases hfits : m.frame.size ≤ PubSubClient.maxPacketSize
  · have htwo := m.frame.size_pos
    have hne : ¬ BitVec.ofNat 16 m.frame.size = 0 := by
      intro hzero
      have hnat := congrArg BitVec.toNat hzero
      simp only [PubSubClient.maxPacketSize] at hfits
      rw [toNat_ofNat16 (by omega)] at hnat
      have : (0 : U16).toNat = 0 := rfl
      omega
    rw [List.take_of_length_le (by rwa [Frame.length_bytes])] at hbuffer
    obtain ⟨buffer', hdispatch⟩ := dispatch_run (w := w.reading buffer rest) hfits hbuffer
    refine ⟨buffer', ?_⟩
    simp only [lengthOf, if_pos hfits, if_neg hne]
    rw [hdispatch, act_reading, reading_input, handled, if_pos hfits]
  · refine ⟨buffer, ?_⟩
    simp only [lengthOf, if_neg hfits, if_true, handled]
    rfl

/-- Messages one behind the other are handled one after the other. -/
theorem polls_run (ms : List Mqtt.Message) {w : Wire} {rest : List (Option U8)}
    (hms : ∀ m ∈ ms, m.frame.size ≤ 65536)
    (h : w.input = (Frame.stream (ms.map Mqtt.Message.frame)).map some ++ rest) :
    ∃ buffer, Cut.times poll ms.length w =
      (some (), (act (ms.flatMap handled) w).reading buffer rest) := by
  induction ms generalizing w with
  | nil => exact ⟨w.buffer, by rw [show rest = w.input from h.symm]; rfl⟩
  | cons m ms ih =>
    rw [List.map_cons, Frame.stream_cons, List.map_append, List.append_assoc] at h
    obtain ⟨b₁, hrun₁⟩ := poll_run (hms m List.mem_cons_self) h
    obtain ⟨b₂, hrun₂⟩ := ih (w := (act (handled m) w).reading b₁ _)
      (fun m' hm' => hms m' (List.mem_cons_of_mem m hm')) rfl
    refine ⟨b₂, ?_⟩
    rw [List.length_cons, Cut.times, Cut.bind_of_finished hrun₁, hrun₂, act_reading,
      List.flatMap_cons]
    simp only [act, List.foldl_append]

/-! ### A session -/

/-- What the callback is called with for a message. -/
def delivered : Mqtt.Message → Option (CString × CString)
  | m@(.publish _ _ _ topic payload) =>
    if m.frame.size ≤ PubSubClient.maxPacketSize then
      some (Text.cstr (topic.map toChar), payload.map toChar)
    else none
  | _ => none

/-- What a message is answered with. -/
def answered : Mqtt.Message → Option Mqtt.Message
  | m@(.publish _ _ (some id) _ _) =>
    if m.frame.size ≤ PubSubClient.maxPacketSize then some (.puback id) else none
  | .pingreq => some .pingresp
  | _ => none

/-- The answers have no texts. -/
theorem answered_writable {m a : Mqtt.Message} (h : answered m = some a) : a.Writable := by
  unfold answered at h
  split at h
  · split at h
    · cases h
      trivial
    · cases h
  · cases h
    trivial
  · cases h

theorem handled_calls (m : Mqtt.Message) (w : Wire) :
    (act (handled m) w).calls = w.calls ++ (delivered m).toList := by
  unfold handled
  by_cases h : m.frame.size ≤ PubSubClient.maxPacketSize
  · rw [if_pos h]
    cases m with
    | publish dup retain id topic payload =>
      rw [delivered, if_pos h]
      cases id <;> rfl
    | _ => simp [actions, act, Action.apply, delivered]
  · rw [if_neg h]
    cases m with
    | publish dup retain id topic payload => simp [delivered, h, act]
    | _ => simp [delivered, act]

theorem handled_output (m : Mqtt.Message) (w : Wire) :
    (act (handled m) w).output =
      w.output ++ Frame.stream ((answered m).toList.map Mqtt.Message.frame) := by
  have hping : (Mqtt.Message.pingreq).frame.size ≤ PubSubClient.maxPacketSize := by
    rw [Frame.size_of_lt (by decide)]
    decide
  unfold handled
  by_cases h : m.frame.size ≤ PubSubClient.maxPacketSize
  · rw [if_pos h]
    cases m with
    | publish dup retain id topic payload =>
      cases id with
      | none => simp [answered, actions, act, callOf, Action.apply]
      | some id => simp [answered, h, actions, act, callOf, Action.apply]
    | _ => simp [actions, act, Action.apply, answered]
  · rw [if_neg h]
    cases m with
    | publish dup retain id topic payload =>
      cases id with
      | none => simp [answered, act]
      | some id => simp [answered, h, act]
    | pingreq => exact absurd hping h
    | _ => simp [answered, act]

theorem handled_all (ms : List Mqtt.Message) (w : Wire) :
    (act (ms.flatMap handled) w).calls = w.calls ++ ms.filterMap delivered ∧
      (act (ms.flatMap handled) w).output =
        w.output ++ Frame.stream ((ms.filterMap answered).map Mqtt.Message.frame) := by
  induction ms generalizing w with
  | nil => simp [act]
  | cons m ms ih =>
    have hsplit : act ((m :: ms).flatMap handled) w =
        act (ms.flatMap handled) (act (handled m) w) := by
      simp only [List.flatMap_cons, act, List.foldl_append]
    obtain ⟨hcalls, houtput⟩ := ih (act (handled m) w)
    rw [hsplit, hcalls, houtput, handled_calls, handled_output]
    constructor
    · cases h : delivered m <;> simp [h]
    · cases h : answered m <;> simp [h]

/-- Whatever a broker sends in packets of up to 65536 bytes, and whatever lies in the buffer:
    `loop()` never loses its place in the stream and never leaves the buffer, the callback is
    called with the topic and the payload of each PUBLISH that the buffer has room for and with
    nothing else, and the answers form a stream of packets again, which is read as these answers. -/
theorem session_received (ms : List Mqtt.Message) (w : Wire) (rest : List (Option U8))
    (hms : ∀ m ∈ ms, m.frame.size ≤ 65536)
    (h : w.input = (Frame.stream (ms.map Mqtt.Message.frame)).map some ++ rest) :
    ∃ w', Cut.times poll ms.length w = (some (), w') ∧ w'.input = rest ∧
      w'.calls = w.calls ++ ms.filterMap delivered ∧
      w'.output = w.output ++ Frame.stream ((ms.filterMap answered).map Mqtt.Message.frame) ∧
      Mqtt.Message.readAll (Frame.stream ((ms.filterMap answered).map Mqtt.Message.frame)) =
        some (ms.filterMap answered) := by
  obtain ⟨buffer, hrun⟩ := polls_run ms hms h
  obtain ⟨hcalls, houtput⟩ := handled_all ms w
  refine ⟨_, hrun, rfl, hcalls, houtput, Mqtt.Message.readAll_stream fun a ha => ?_⟩
  obtain ⟨m, -, hm⟩ := List.mem_filterMap.1 ha
  exact answered_writable hm

/-- A command and a PINGREQ, one behind the other. -/
theorem session_received_command : ∃ w',
    Cut.times poll 2 { reset with
        input := (Frame.stream (([.publish false false none [97] [49], .pingreq] :
          List Mqtt.Message).map Mqtt.Message.frame)).map some ++ [] } = (some (), w') ∧
      w'.input = [] ∧
      w'.calls = reset.calls ++
        [.publish false false none [97] [49], .pingreq].filterMap delivered ∧
      w'.output = reset.output ++ Frame.stream (([.publish false false none [97] [49],
        .pingreq].filterMap answered).map Mqtt.Message.frame) ∧
      Mqtt.Message.readAll (Frame.stream (([.publish false false none [97] [49],
        .pingreq].filterMap answered).map Mqtt.Message.frame)) =
          some ([.publish false false none [97] [49], .pingreq].filterMap answered) :=
  session_received [.publish false false none [97] [49], .pingreq] _ []
    (by simp [Mqtt.Message.frame, Frame.size, varint_of_lt, text, Mqtt.Message.idBytes]) rfl

end Wire

end Waterbox
