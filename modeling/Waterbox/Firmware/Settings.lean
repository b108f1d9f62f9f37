import Mathlib.Algebra.Order.Field.Rat
import Mathlib.Data.BitVec

namespace Waterbox

/-!
# `settings.h`, and the C types the firmware is written in

The integer types of the ATmega644PA are bit vectors of their own width; `unsigned long` is
32 bits there.  A C string is the list of its characters, without the terminator.
-/

/-- `uint8_t`. -/
abbrev U8 : Type := BitVec 8
/-- `uint16_t`; `int` and `size_t` have its width. -/
abbrev U16 : Type := BitVec 16
/-- `uint32_t` and `unsigned long`. -/
abbrev U32 : Type := BitVec 32

/-- A C string, or a byte buffer read as text. -/
abbrev CString : Type := List Char

namespace Settings

/-- `GSMAPN`, the access point of the operator. -/
def gsmApn : CString := "m2mgt.tigo.com".toList
/-- `GSMUSER`. -/
def gsmUser : CString := []
/-- `GSMPASSWORD`. -/
def gsmPassword : CString := []

/-- The machine on which the broker runs. -/
def mqttServer : CString := "192.168.1.10".toList
def mqttPort : Nat := 1883
/-- The user for whom CONNECT asks; an empty one counts as not set. -/
def mqttUser : CString := "waterbox".toList
def mqttPass : CString := "waterbox".toList
/-- `MQTT_ALLOW_ANONYMOUS`: whether a session without a user is tried. -/
def mqttAllowAnonymous : Bool := false

/-- `TOPIC_ROOT`, the first level of every topic. -/
def topicRoot : CString := "waterbox".toList

/-- `FLOW_SENSOR_REED`: which of the two pickups of the sensor is installed. -/
def flowSensorReed : Bool := false
/-- `PULSES_PER_LITER_HALL`. -/
def pulsesPerLiterHall : U16 := 245
/-- `PULSES_PER_LITER_REED`. -/
def pulsesPerLiterReed : U16 := 490

/-- `VALVE_PULSE_MS`: how long a coil is driven. -/
def valvePulseMs : Nat := 25
/-- `VALVE_SPEED`: the duty cycle of the driver while it is. -/
def valveSpeed : U8 := 255

/-- `PUBLISH_INTERVAL_MS`: how long Idle waits before the next session. -/
def publishIntervalMs : U32 := 60000
/-- `HEARTBEAT_INTERVAL_MS`. -/
def heartbeatIntervalMs : U32 := 3600000
/-- `CMD_LISTEN_MS`: how long Listen waits for messages. -/
def cmdListenMs : U32 := 8000
/-- `RADIO_RETRY_MAX`: the tries of `connect()`. -/
def radioRetryMax : Nat := 3
/-- `RADIO_RETRY_DELAY_MS`: the pause between two of them. -/
def radioRetryDelayMs : U32 := 2000
/-- `SIM_INIT_TRIES`: the tries of `begin()`. -/
def simInitTries : Nat := 10
/-- `SIM_RETRY_MS`: how long WaitModem waits before it begins again. -/
def simRetryMs : U32 := 30000
/-- `FLOW_SAMPLE_MS`: the length of a sample of the flow. -/
def flowSampleMs : U32 := 1000
/-- `EEPROM_SAVE_MS`: how long `saveIfDue` waits after a save. -/
def eepromSaveMs : U32 := 60000

/-- `SIG_T1_H`, the period of the first wave; a literal of the source is an exact number here. -/
def sigT1H : ℚ := 24
/-- `SIG_T2_H`, the period of the second wave. -/
def sigT2H : ℚ := 12
/-- `SIG_NIGHT_START_H`. -/
def sigNightStartH : ℚ := 0
/-- `SIG_NIGHT_END_H`. -/
def sigNightEndH : ℚ := 5
/-- `SIG_LEAK_MARGIN_LM`: how far above the model a flow at night is a leak. -/
def sigLeakMarginLm : ℚ := 15 / 100
/-- `SIG_OVER_MARGIN_LM`: how far above it a flow by day is overuse. -/
def sigOverMarginLm : ℚ := 50 / 100
/-- `SIG_FLOW_FLOOR_LM`: a flow below it is never flagged. -/
def sigFlowFloorLm : ℚ := 5 / 100

end Settings

end Waterbox
