import Waterbox.Firmware.Settings
import Waterbox.Lib.Decimal

namespace Waterbox

/-!
# The members of the firmware's classes

One structure for each class of `firmware/waterbox` and for the two libraries it drives
(`sim800Client`, `PubSubClient`), with the members that some modelled function reads.  The
methods live in a module of their own for each class.

The floating-point type is a parameter `F` with the operations of `CFloat`: the runs of the
firmware do not depend on how a `float` rounds.
-/

/-- The operations the firmware performs on a `float`. -/
class CFloat (F : Type) where
  /-- A literal, or an integer converted to `float`. -/
  ofRat : ℚ → F
  add : F → F → F
  mul : F → F → F
  div : F → F → F
  lt : F → F → Bool
  le : F → F → Bool
  beq : F → F → Bool
  sinf : F → F
  /-- `(float)M_PI`. -/
  pi : F
  /-- The text `dtostrf(x, 1, 2, buf)` writes. -/
  dtostrf : F → CString
  /-- `(float)atof(text)`. -/
  atof : CString → F
  /-- The 32 bits a `float` is stored as, and the `float` stored as given bits. -/
  bits : F → U32
  ofBits : U32 → F

/-- Storing a `float` and reading it back gives the same `float`. -/
class LawfulBits (F : Type) [CFloat F] : Prop where
  ofBits_bits : ∀ x : F, CFloat.ofBits (CFloat.bits x) = x

/-- The `float` for what a text begins with. -/
def CFloat.ofNumeral {F : Type} [CFloat F] : Text.Numeral → F
  | .number q => CFloat.ofRat q
  | .infinity false => CFloat.atof "inf".toList
  | .infinity true => CFloat.atof "-inf".toList
  | .nan => CFloat.atof "nan".toList

/-- `atof` reads what a text begins with, and rounds a number like every other. -/
class LawfulAtof (F : Type) [CFloat F] : Prop where
  atof_eq : ∀ text : CString, (CFloat.atof text : F) = CFloat.ofNumeral (Text.numeral text)

/-- Numbers without infinities, to which a word is a text without a number. -/
theorem lawfulAtof_of_strtod {F : Type} [CFloat F]
    (h : ∀ text : CString, (CFloat.atof text : F) = CFloat.ofRat (Text.strtod text)) :
    LawfulAtof F where
  atof_eq text := by
    have hzero : ∀ word : CString, (∀ q, Text.numeral word ≠ .number q) →
        (CFloat.atof word : F) = CFloat.ofRat 0 := by
      intro word hno
      rw [h, Text.strtod_word hno]
    have hinf : Text.numeral "inf".toList = .infinity false := by decide +kernel
    have hminus : Text.numeral "-inf".toList = .infinity true := by decide +kernel
    have hnan : Text.numeral "nan".toList = .nan := by decide +kernel
    cases hnumeral : Text.numeral text with
    | number q => rw [h, Text.strtod_of_numeral hnumeral, CFloat.ofNumeral]
    | infinity neg =>
      rw [hzero text (by simp [hnumeral])]
      cases neg with
      | false => exact (hzero _ (by simp only [hinf]; exact fun _ h => nomatch h)).symm
      | true => exact (hzero _ (by simp only [hminus]; exact fun _ h => nomatch h)).symm
    | nan =>
      rw [hzero text (by simp [hnumeral])]
      exact (hzero _ (by simp only [hnan]; exact fun _ h => nomatch h)).symm

/-! ### `ConsumptionSignature` -/

/-- `ConsumptionSignature::Params`. -/
structure Params (F : Type) where
  mean : F
  a1 : F
  phi1 : F
  t1 : F
  a2 : F
  phi2 : F
  t2 : F
deriving DecidableEq

/-- `ConsumptionSignature::Verdict`. -/
inductive Verdict
  | ok
  | nightLeak
  | overuse
deriving DecidableEq

structure ConsumptionSignature (F : Type) where
  params : Params F
  valid : Bool

/-! ### `FlowMeter` -/

/-- The members of `FlowMeter`.  `taken` is the local variable `pulses` of `update()` between
    `takePulses()` and its addition to `totalPulses_`, and 0 elsewhere: it is kept here because
    an interrupt or a power cut can strike in between. -/
structure FlowMeter (F : Type) where
  pulsesPerLiter : U16
  sampleMs : U32
  pulseCount : U32
  totalPulses : U32
  intervalMilliLitres : U32
  oldTime : U32
  litresPerMinute : F
  dirty : Bool
  taken : U32

/-! ### `LatchingValve`, `MeterStore`, `StatusLed` -/

structure LatchingValve where
  speed : U8
  pulseMs : Nat
  isOpen : Bool

structure MeterStore where
  dirty : Bool
  lastSaveMs : U32

/-- `StatusLed::Mode`. -/
inductive LedMode
  | error
  | radio
  | idle
deriving DecidableEq

structure StatusLed where
  mode : LedMode
  flowing : Bool
  /-- The level last written to the pin. -/
  lit : Bool

/-! ### `sim800Client`, `PubSubClient`, `GsmMqttClient` -/

/-- The bits of `SIM800::state` that are used: `STATE_ON`, `STATE_INITIALIZED`,
    `STATE_REGISTERED` and `STATE_TCPCONNECTED`. -/
structure Sim800 where
  on : Bool
  initialized : Bool
  registered : Bool
  tcpConnected : Bool

/-- `PubSubClient::_state`. -/
inductive MqttState
  | connectionTimeout
  | connectionLost
  | connectFailed
  | disconnected
  | connected
  | refused (code : U8)
deriving DecidableEq

structure PubSubClient where
  state : MqttState
  lastOutActivity : U32
  lastInActivity : U32
  pingOutstanding : Bool
  nextMsgId : U16

/-- `GsmMqttClient::Command`. -/
inductive Command
  | none
  | on
  | off
deriving DecidableEq

structure GsmMqttClient where
  modem : Sim800
  mqtt : PubSubClient
  imeicode : CString
  topicData : CString
  topicCmd : CString
  topicInfo : CString
  topicFp : CString
  topicHb : CString
  rssi : Int

/-! ### `WaterboxFsm` -/

/-- `WaterboxFsm::State`. -/
inductive State
  | haltAuth
  | waitModem
  | idle
  | connect
  | publish
  | listen
  | disconnect
deriving DecidableEq

/-- The members of `WaterboxFsm` that are not objects of other classes. -/
structure WaterboxFsm (F : Type) where
  state : State
  lastPublishMs : U32
  lastHeartbeatMs : U32
  listenStartMs : U32
  lastModemTryMs : U32
  modelLm : F
  leakFlag : U8
  overFlag : U8

end Waterbox
