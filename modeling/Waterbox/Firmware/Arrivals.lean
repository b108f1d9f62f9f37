import Waterbox.Firmware.Single
import Waterbox.Lib.Keys

namespace Waterbox

/-!
# Messages on the topics of the device

`onMessage()` compares the topic of a message with the two that `buildTopics()` wrote, and looks for
keys in the part of the payload that `msg_` holds.

* `Listening` — the topics are built and the coil has its duty cycle.
* `GsmMqttClient.behind` — where a number is looked for; `behind_eq_some_iff` — as a place in the
  text.
* `onMessage_command`, `onMessage_fingerprint` — what a message leads to.
-/

open Text

variable {F : Type}

/-- The two topics are there and differ, and the coil has its duty cycle. -/
structure Listening (s : Sys F) : Prop where
  command : s.board.radio.topicCmd ≠ []
  fingerprint : s.board.radio.topicFp ≠ []
  apart : s.board.radio.topicCmd ≠ s.board.radio.topicFp
  speed : s.board.valve.speed = Settings.valveSpeed

namespace GsmMqttClient

/-- A topic of an IMEI fits its buffer. -/
theorem length_topic {imei : CString} (leaf : CString) (himei : imei.length ≤ 15)
    (hleaf : leaf.length ≤ 4) :
    (topic imei leaf).length = imei.length + leaf.length + 10 := by
  have hroot : Settings.topicRoot.length = 8 := rfl
  rw [topic, snprintf, List.length_take]
  simp only [List.length_append, List.length_cons, hroot]
  omega

/-- The topics as `begin()` leaves them. -/
theorem listening_buildTopics {s : Sys F} {c : GsmMqttClient} (himei : c.imeicode.length ≤ 15)
    (hradio : s.board.radio = buildTopics c) (hspeed : s.board.valve.speed = Settings.valveSpeed) :
    Listening s := by
  have hcmd : s.board.radio.topicCmd.length = c.imeicode.length + 3 + 10 := by
    rw [hradio]
    exact length_topic "cmd".toList himei (by decide)
  have hfp : s.board.radio.topicFp.length = c.imeicode.length + 2 + 10 := by
    rw [hradio]
    exact length_topic "fp".toList himei (by decide)
  refine ⟨fun h => ?_, fun h => ?_, fun h => ?_, hspeed⟩
  · rw [h, List.length_nil] at hcmd
    omega
  · rw [h, List.length_nil] at hfp
    omega
  · rw [h] at hcmd
    omega

/-- Nothing of an object is taken for white space, and nothing of an object that fits `msg_` is cut
    off. -/
theorem strip_objectText (fs : List Field) : strip (objectText fs) = objectText fs := by
  obtain ⟨u, hu⟩ := fieldsText_concat fs
  have hopen : ('{' :: (u ++ ['}'])).dropWhile isBlank = '{' :: (u ++ ['}']) := rfl
  have hreverse : ('{' :: (u ++ ['}'])).reverse = '}' :: ('{' :: u).reverse := by simp
  rw [objectText, hu, strip, hopen, hreverse]
  show ('}' :: ('{' :: u).reverse).reverse = '{' :: (u ++ ['}'])
  rw [← hreverse, List.reverse_reverse]

theorem copyMsg_eq_self {payload : CString} (hnul : '\x00' ∉ payload)
    (hlen : payload.length ≤ 179) : copyMsg payload = payload := by
  have hall : ∀ c ∈ payload, decide (c ≠ '\x00') = true := by
    intro c hc
    refine decide_eq_true fun h => ?_
    exact hnul (h ▸ hc)
  have hwhole : payload.take (msgSize - 1) = payload := List.take_of_length_le hlen
  rw [copyMsg, hwhole, cstr, List.takeWhile_eq_self_iff.2 hall]

/-- The text behind the first colon after the first place of a key. -/
def behind (key payload : CString) : Option CString :=
  match strstr key (copyMsg payload) with
  | none => none
  | some p => (strchr ':' p).map List.tail

theorem behind_eq_some_iff {key payload rest : CString} (hkey : ':' ∉ key) :
    behind (quoted key) payload = some rest ↔ BehindColon key (copyMsg payload) rest := by
  rw [behindColon_iff hkey, behind]
  cases strstr (quoted key) (copyMsg payload) with
  | none => simp
  | some p =>
    simp only [Option.map_eq_some_iff, Option.some.injEq, exists_eq_left']
    constructor
    · rintro ⟨q, hq, rfl⟩
      obtain ⟨_, t, rfl, -⟩ := strchr_eq_some_iff.1 hq
      exact hq
    · exact fun h => ⟨_, h, rfl⟩

/-- Nothing is found where no colon follows the key. -/
theorem behind_eq_none_iff {key payload : CString} (hkey : ':' ∉ key) :
    behind (quoted key) payload = none ↔ ∀ rest, ¬ BehindColon key (copyMsg payload) rest := by
  rw [Option.eq_none_iff_forall_ne_some]
  exact forall_congr' fun rest => not_congr (behind_eq_some_iff hkey)

/-- The place is the first one, so there is one text behind it. -/
theorem behindColon_unique {key payload rest rest' : CString} (hkey : ':' ∉ key)
    (h : BehindColon key (copyMsg payload) rest) (h' : BehindColon key (copyMsg payload) rest') :
    rest = rest' := by
  rw [← behind_eq_some_iff hkey] at h h'
  exact Option.some.inj (h.symm.trans h')

variable [CFloat F]

theorem jsonFloat_copyMsg (key payload : CString) :
    (jsonFloat (copyMsg payload) key : Option F) = (behind key payload).map CFloat.atof := by
  unfold jsonFloat behind
  cases strstr key (copyMsg payload) with
  | none => rfl
  | some p =>
    dsimp only
    cases strchr ':' p <;> rfl

/-- What `onMessage()` does with the result of `parseCommand()`. -/
def obey (h : Handlers F) : Command → Fw F Unit
  | .none => pure ()
  | cmd => h.command cmd

/-- What `onMessage()` does with the result of `parseFingerprint()`. -/
def adopt (h : Handlers F) : Option (Params F) → Fw F Unit
  | some params => h.fingerprint params
  | none => pure ()

variable {s : Sys F}

theorem onMessage_command (hs : Listening s) (h : Handlers F) (payload : CString) :
    onMessage h s.board.radio.topicCmd payload s =
      obey h (parseCommand (F := F) (strip payload)) s := by
  simp only [onMessage, Bind.bind, look, Cut.read, hs.apart, hs.command, and_false, ne_eq,
    not_false_eq_true, true_and, if_false, if_true]
  cases parseCommand (F := F) (strip payload) <;> rfl

theorem onMessage_fingerprint (hs : Listening s) (h : Handlers F) (payload : CString) :
    onMessage h s.board.radio.topicFp payload s =
      adopt h (parseFingerprint (copyMsg (strip payload))) s := by
  simp only [onMessage, Bind.bind, look, Cut.read, hs.fingerprint, ne_eq, not_false_eq_true,
    true_and, if_true]
  cases parseFingerprint (F := F) (copyMsg (strip payload)) <;> rfl

/-- A device that hears the broker, in the silence that `tape` grants. -/
def heard (eeprom : Nat → U8) (latchOpen : Bool) (tape : List Env) : Sys F :=
  let on : Sys F := .powerUp eeprom latchOpen 0 tape
  { on with
    board :=
      { on.board with
        radio := buildTopics reset
        valve := { on.board.valve with speed := Settings.valveSpeed } } }

theorem listening_heard (eeprom : Nat → U8) (latchOpen : Bool) (tape : List Env) :
    Listening (heard (F := F) eeprom latchOpen tape) :=
  listening_buildTopics (c := reset) (Nat.zero_le _) rfl rfl

end GsmMqttClient

end Waterbox
