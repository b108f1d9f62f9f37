import Waterbox.Lib.Framing

namespace Waterbox

/-!
# Control packets of MQTT 3.1.1

What a client and a broker say to each other, and the frame each message travels in.

* `Message.frame` — the frame of a message; `Message.ofFrame` reads it.
* `Message.ofFrame_frame` — a message whose texts fit their two-byte lengths is read as written.
* `Message.readAll_stream` — so is a whole session, from the bytes one behind the other.
-/

namespace Mqtt

open Framing

/-- What the broker publishes where a client falls silent. -/
structure Will where
  topic : List Byte
  message : List Byte
  qos : Fin 3
  retain : Bool
deriving DecidableEq

/-- A user, and perhaps a password. -/
structure Login where
  user : List Byte
  pass : Option (List Byte)
deriving DecidableEq

/-- A message of a session.  A `publish` with an identifier has quality of service 1, one without
    has quality of service 0. -/
inductive Message
  | connect (keepAlive : BitVec 16) (id : List Byte) (will : Option Will) (login : Option Login)
  | connack (flags code : Byte)
  | publish (dup retain : Bool) (id : Option (BitVec 16)) (topic payload : List Byte)
  | puback (id : BitVec 16)
  | subscribe (id : BitVec 16) (topic : List Byte) (qos : Byte)
  | suback (id : BitVec 16) (codes : List Byte)
  | unsubscribe (id : BitVec 16) (topic : List Byte)
  | unsuback (id : BitVec 16)
  | pingreq
  | pingresp
  | disconnect
deriving DecidableEq

namespace Message

/-! ### Writing -/

/-- The protocol's name and its level, at the start of a `connect`. -/
def protocolName : List Byte := [0, 4, 77, 81, 84, 84, 4]

/-- The flags that say which texts a `connect` carries. -/
def connectFlags (will : Option Will) (login : Option Login) : Nat :=
  2 + (match will with
      | none => 0
      | some w => 4 + 8 * w.qos.val + 32 * w.retain.toNat) +
    (match login with
      | none => 0
      | some l => 128 + 64 * l.pass.isSome.toNat)

/-- The will's part of the payload of a `connect`. -/
def willTexts : Option Will → List Byte
  | none => []
  | some w => text w.topic ++ text w.message

/-- The login's part of it. -/
def loginTexts : Option Login → List Byte
  | none => []
  | some l => text l.user ++ (l.pass.elim [] text)

/-- The header of a `publish`. -/
def publishHeader (dup retain : Bool) (id : Option (BitVec 16)) : Byte :=
  BitVec.ofNat 8 (48 + 8 * dup.toNat + 2 * id.isSome.toNat + retain.toNat)

/-- The id of a message, where it has one. -/
def idBytes (id : Option (BitVec 16)) : List Byte := id.elim [] fun i => word i.toNat

/-- The frame a message travels in. -/
def frame : Message → Frame
  | connect keepAlive id will login =>
    ⟨0x10, protocolName ++ BitVec.ofNat 8 (connectFlags will login) ::
      (word keepAlive.toNat ++ (text id ++ (willTexts will ++ loginTexts login)))⟩
  | connack flags code => ⟨0x20, [flags, code]⟩
  | publish dup retain id topic payload =>
    ⟨publishHeader dup retain id, text topic ++ (idBytes id ++ payload)⟩
  | puback id => ⟨0x40, word id.toNat⟩
  | subscribe id topic qos => ⟨0x82, word id.toNat ++ (text topic ++ [qos])⟩
  | suback id codes => ⟨0x90, word id.toNat ++ codes⟩
  | unsubscribe id topic => ⟨0xA2, word id.toNat ++ text topic⟩
  | unsuback id => ⟨0xB0, word id.toNat⟩
  | pingreq => ⟨0xC0, []⟩
  | pingresp => ⟨0xD0, []⟩
  | disconnect => ⟨0xE0, []⟩

/-! ### Reading -/

def readId (bs : List Byte) : Option (BitVec 16 × List Byte) :=
  (readWord bs).map fun r => (BitVec.ofNat 16 r.1, r.2)

/-- Whether there is a will stands in the flags. -/
def readWill (flags : Nat) (bs : List Byte) : Option (Option Will × List Byte) :=
  if flags / 4 % 2 = 1 then do
    let (topic, bs) ← readText bs
    let (message, bs) ← readText bs
    if h : flags / 8 % 4 < 3 then
      some (some ⟨topic, message, ⟨flags / 8 % 4, h⟩, flags / 32 % 2 = 1⟩, bs)
    else none
  else some (none, bs)

/-- So it does for user and password. -/
def readLogin (flags : Nat) (bs : List Byte) : Option (Option Login × List Byte) :=
  if flags / 128 % 2 = 1 then do
    let (user, bs) ← readText bs
    if flags / 64 % 2 = 1 then do
      let (pass, bs) ← readText bs
      some (some ⟨user, some pass⟩, bs)
    else some (some ⟨user, none⟩, bs)
  else some (none, bs)

/-- The variable header and the payload of a `connect`. -/
def readConnect (bs : List Byte) : Option Message :=
  if bs.take 7 = protocolName then
    match bs.drop 7 with
    | flags :: bs => do
      let (keepAlive, bs) ← readId bs
      let (id, bs) ← readText bs
      let (will, bs) ← readWill flags.toNat bs
      let (login, bs) ← readLogin flags.toNat bs
      if bs.isEmpty then some (connect keepAlive id will login) else none
    | [] => none
  else none

/-- Those of a `publish`, whose quality stands in the header. -/
def readPublish (header : Nat) (bs : List Byte) : Option Message := do
  let (topic, bs) ← readText bs
  if header / 2 % 4 = 0 then
    some (publish (header / 8 % 2 = 1) (header % 2 = 1) none topic bs)
  else if header / 2 % 4 = 1 then do
    let (id, bs) ← readId bs
    some (publish (header / 8 % 2 = 1) (header % 2 = 1) (some id) topic bs)
  else none

/-- The message of a frame. -/
def ofFrame (f : Frame) : Option Message :=
  match f.header.toNat / 16 with
  | 1 => readConnect f.body
  | 2 =>
    match f.body with
    | [flags, code] => some (connack flags code)
    | _ => none
  | 3 => readPublish f.header.toNat f.body
  | 4 => (readId f.body).map fun r => puback r.1
  | 8 => do
    let (id, bs) ← readId f.body
    let (topic, bs) ← readText bs
    match bs with
    | [qos] => some (subscribe id topic qos)
    | _ => none
  | 9 => (readId f.body).map fun r => suback r.1 r.2
  | 10 => do
    let (id, bs) ← readId f.body
    let (topic, bs) ← readText bs
    if bs.isEmpty then some (unsubscribe id topic) else none
  | 11 => (readId f.body).map fun r => unsuback r.1
  | 12 => some pingreq
  | 13 => some pingresp
  | 14 => some disconnect
  | _ => none

/-- The messages of a stream of bytes. -/
def readAll (bs : List Byte) : Option (List Message) := do
  (← Frame.readAll bs).mapM ofFrame

/-! ### Reading what was written -/

/-- Whether a text fits its two-byte length. -/
def Fits (s : List Byte) : Prop := s.length < 65536

/-- Whether the texts of a message fit their two-byte lengths. -/
def Writable : Message → Prop
  | connect _ id will login =>
    Fits id ∧ (∀ w ∈ will, Fits w.topic ∧ Fits w.message) ∧
      ∀ l ∈ login, Fits l.user ∧ ∀ p ∈ l.pass, Fits p
  | publish _ _ _ topic _ => Fits topic
  | subscribe _ topic _ => Fits topic
  | unsubscribe _ topic => Fits topic
  | _ => True

theorem readId_word (id : BitVec 16) (rest : List Byte) :
    readId (word id.toNat ++ rest) = some (id, rest) := by
  have hid : id.toNat < 65536 := id.isLt
  simp [readId, readWord_word hid]

theorem connectFlags_lt (will : Option Will) (login : Option Login) :
    connectFlags will login < 256 := by
  unfold connectFlags
  rcases will with _ | ⟨_, _, qos, _ | _⟩ <;> rcases login with _ | ⟨_, _ | _⟩ <;>
    simp only [Bool.toNat_false, Bool.toNat_true, Option.isSome_none, Option.isSome_some] <;>
    omega

/-- The will is read back. -/
theorem readWill_texts {will : Option Will} (login : Option Login)
    (h : ∀ w ∈ will, Fits w.topic ∧ Fits w.message) (rest : List Byte) :
    readWill (connectFlags will login) (willTexts will ++ rest) = some (will, rest) := by
  rcases will with _ | w
  · have hbit : connectFlags none login / 4 % 2 ≠ 1 := by
      rcases login with _ | ⟨_, _ | _⟩ <;> simp [connectFlags]
    simp only [readWill, if_neg hbit, willTexts, List.nil_append]
  · obtain ⟨htopic, hmessage⟩ := h w rfl
    have hbit : connectFlags (some w) login / 4 % 2 = 1 := by
      rcases login with _ | ⟨_, _ | _⟩ <;> rcases w with ⟨_, _, qos, _ | _⟩ <;>
        simp only [connectFlags, Bool.toNat_false, Bool.toNat_true, Option.isSome_none,
          Option.isSome_some] <;> omega
    have hqos : connectFlags (some w) login / 8 % 4 = w.qos := by
      rcases login with _ | ⟨_, _ | _⟩ <;> rcases w with ⟨_, _, qos, _ | _⟩ <;>
        simp only [connectFlags, Bool.toNat_false, Bool.toNat_true, Option.isSome_none,
          Option.isSome_some] <;> omega
    have hretain : connectFlags (some w) login / 32 % 2 = w.retain.toNat := by
      rcases login with _ | ⟨_, _ | _⟩ <;> rcases w with ⟨_, _, qos, _ | _⟩ <;>
        simp only [connectFlags, Bool.toNat_false, Bool.toNat_true, Option.isSome_none,
          Option.isSome_some] <;> omega
    have hflag : decide (w.retain.toNat = 1) = w.retain := by cases w.retain <;> rfl
    simp only [readWill, if_pos hbit, willTexts, List.append_assoc, Option.bind_eq_bind,
      readText_text htopic, readText_text hmessage, Option.bind_some, hqos, w.qos.isLt, dif_pos,
      hretain, hflag]

/-- So is the login. -/
theorem readLogin_texts (will : Option Will) {login : Option Login}
    (h : ∀ l ∈ login, Fits l.user ∧ ∀ p ∈ l.pass, Fits p) (rest : List Byte) :
    readLogin (connectFlags will login) (loginTexts login ++ rest) = some (login, rest) := by
  rcases login with _ | ⟨user, pass⟩
  · have hbit : connectFlags will none / 128 % 2 ≠ 1 := by
      rcases will with _ | ⟨_, _, qos, _ | _⟩ <;>
        simp only [connectFlags, Bool.toNat_false, Bool.toNat_true] <;> omega
    simp only [readLogin, if_neg hbit, loginTexts, List.nil_append]
  · obtain ⟨huser, hpass⟩ := h _ rfl
    have hbit : connectFlags will (some ⟨user, pass⟩) / 128 % 2 = 1 := by
      rcases pass with _ | _ <;> rcases will with _ | ⟨_, _, qos, _ | _⟩ <;>
        simp only [connectFlags, Bool.toNat_false, Bool.toNat_true, Option.isSome_none,
          Option.isSome_some] <;> omega
    have hbit' : connectFlags will (some ⟨user, pass⟩) / 64 % 2 = pass.isSome.toNat := by
      rcases pass with _ | _ <;> rcases will with _ | ⟨_, _, qos, _ | _⟩ <;>
        simp only [connectFlags, Bool.toNat_false, Bool.toNat_true, Option.isSome_none,
          Option.isSome_some] <;> omega
    cases pass with
    | none => simp [readLogin, hbit, hbit', loginTexts, readText_text huser]
    | some p =>
      simp [readLogin, hbit, hbit', loginTexts, List.append_assoc, readText_text huser,
        readText_text (hpass p rfl)]

/-- So is a whole `connect`. -/
theorem readConnect_frame {keepAlive : BitVec 16} {id : List Byte} {will : Option Will}
    {login : Option Login} (h : (connect keepAlive id will login).Writable) :
    readConnect (connect keepAlive id will login).frame.body =
      some (connect keepAlive id will login) := by
  obtain ⟨hid, hwill, hlogin⟩ := h
  have hflags : (BitVec.ofNat 8 (connectFlags will login)).toNat = connectFlags will login :=
    toNat_ofNat_of_lt (connectFlags_lt will login)
  have hlast := readLogin_texts will hlogin []
  rw [List.append_nil] at hlast
  simp only [readConnect, frame, protocolName, List.cons_append, List.nil_append,
    List.take_succ_cons, List.take_zero, List.drop_succ_cons, List.drop_zero, if_true, hflags,
    readId_word, readText_text hid, readWill_texts login hwill, hlast, Option.bind_eq_bind,
    Option.bind_some, List.isEmpty_nil]

theorem publishHeader_toNat (dup retain : Bool) (id : Option (BitVec 16)) :
    (publishHeader dup retain id).toNat =
      48 + 8 * dup.toNat + 2 * id.isSome.toNat + retain.toNat := by
  have h : 48 + 8 * dup.toNat + 2 * id.isSome.toNat + retain.toNat < 256 := by
    have := dup.toNat_le
    have := retain.toNat_le
    have := id.isSome.toNat_le
    omega
  exact toNat_ofNat_of_lt h

/-- And a `publish`. -/
theorem readPublish_frame {dup retain : Bool} {id : Option (BitVec 16)} {topic : List Byte}
    (payload : List Byte) (h : Fits topic) :
    readPublish (publishHeader dup retain id).toNat (text topic ++ (idBytes id ++ payload)) =
      some (publish dup retain id topic payload) := by
  rw [publishHeader_toNat, readPublish, readText_text h]
  cases id with
  | none => cases dup <;> cases retain <;> simp [idBytes]
  | some i => cases dup <;> cases retain <;> simp [idBytes, readId_word]

/-- A message is read as it was written. -/
theorem ofFrame_frame {m : Message} (h : m.Writable) : ofFrame m.frame = some m := by
  have hword : ∀ id : BitVec 16, readId (word id.toNat) = some (id, []) := by
    intro id
    have := readId_word id []
    rwa [List.append_nil] at this
  cases m with
  | connect keepAlive id will login =>
    have hbody := readConnect_frame h
    simpa [ofFrame, frame] using hbody
  | connack flags code => simp [ofFrame, frame]
  | publish dup retain id topic payload =>
    have hkind : (publishHeader dup retain id).toNat / 16 = 3 := by
      rw [publishHeader_toNat]
      cases dup <;> cases retain <;> cases id <;> simp
    simp only [ofFrame, frame, hkind]
    exact readPublish_frame payload h
  | puback id => simp [ofFrame, frame, hword]
  | subscribe id topic qos => simp [ofFrame, frame, readId_word, readText_text h]
  | suback id codes => simp [ofFrame, frame, readId_word]
  | unsubscribe id topic =>
    have htopic := readText_text h []
    rw [List.append_nil] at htopic
    simp [ofFrame, frame, readId_word, htopic]
  | unsuback id => simp [ofFrame, frame, hword]
  | pingreq => rfl
  | pingresp => rfl
  | disconnect => rfl

/-- The bytes of a whole session are read as its messages, in their order. -/
theorem readAll_stream {ms : List Message} (h : ∀ m ∈ ms, m.Writable) :
    readAll (Frame.stream (ms.map frame)) = some ms := by
  rw [readAll, Frame.readAll_stream]
  show (ms.map frame).mapM ofFrame = some ms
  induction ms with
  | nil => rfl
  | cons m ms ih =>
    rw [List.map_cons, List.mapM_cons, ofFrame_frame (h m List.mem_cons_self),
      ih fun m' hm' => h m' (List.mem_cons_of_mem m hm')]
    rfl

end Message

end Mqtt

end Waterbox
