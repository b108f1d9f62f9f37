import Waterbox.Cloud.Database

namespace Waterbox

namespace Cloud

/-!
# `ingest.py`, and the message handler of `worker.py`

`Moment` is what the clocks show while a message is handled: `now()` of the server, and the wall
clock in the worker's zone.
-/

namespace Config

/-- The defaults of `config.py`. -/
def timezone : Str := "America/Guatemala".toList

def topicRoot : Str := "waterbox".toList

end Config

structure Moment where
  server : Nat
  wall : DateTime
  microsecond : Nat

/-- `datetime.now(tz)`. -/
def Moment.now (m : Moment) : ZonedTime := ⟨m.wall, m.microsecond, Config.timezone⟩

variable {D : Type} [Python D]

/-- The white space between date and time of the second format. -/
def spaces : Str → Option Str
  | c :: t => if isSpace c then some (t.dropWhile isSpace) else none
  | [] => none

/-- `value == "unset"`. -/
def isUnset : Json D → Bool
  | .str s => s = "unset".toList
  | _ => false

/-- `parse_device_time(raw, tz)`. -/
def parseDeviceTime (m : Moment) (raw : Json D) : ZonedTime :=
  if !truthy raw || isUnset raw then m.now
  else
    let text := strip (str raw)
    match DateTime.strptime (Python.decimal D) DateTime.letterT text with
    | some t => ⟨t, 0, Config.timezone⟩
    | none =>
      -- the second format has white space where the first has the letter
      match DateTime.strptime (Python.decimal D) spaces text with
      | some t => ⟨t, 0, Config.timezone⟩
      -- no text of either format counts as no time
      | none => m.now

/-- `imei_from_topic(topic)`. -/
def imeiFromTopic (topic : Str) : Option Str :=
  match topic.splitOn '/' with
  -- also topics with more than three parts
  | root :: imei :: _ :: _ => if root = Config.topicRoot then some imei else none
  | _ => none

/-- The meter a message is about: `imei_from_topic(topic) or str(payload.get("imei") or "")`. -/
def imeiOf (topic : Str) (payload : Dict D) : Str :=
  match imeiFromTopic topic with
  | some (c :: cs) => c :: cs
  | _ =>
    -- an empty part of the topic counts as none
    let imei := Json.get payload "imei".toList
    if truthy imei then str imei else []

/-- The hour of the day with its fraction. -/
def hourOf (ts : ZonedTime) : D :=
  Python.add
    (Python.add (float ts.time.hour) (Python.div (float ts.time.minute) (float 60)))
    (Python.div (float ts.time.second) (float 3600))

/-- What the stored fingerprint predicts, where there is one. -/
def wmCloud (imei : Str) (ts : ZonedTime) (db : Db D) : Option (Option D) :=
  match latestFingerprint imei db with
  | none => some none
  | some fp => (predict fp.toFitParams (hourOf ts)).map some

variable [Server D]

/-- `handle_payload(conn, topic, payload)`. -/
def handlePayload (m : Moment) (topic : Str) (payload : Dict D) : Py D Unit :=
  let imei := imeiOf topic payload
  -- a message about no meter is dropped
  if imei.isEmpty then pure ()
  else if "/info".toList.isSuffixOf topic then upsertMeter m.server imei payload
  else if "/hb".toList.isSuffixOf topic then
    insertHeartbeat m.server imei (parseDeviceTime m (Json.get payload "ts".toList)) payload
  else if "/data".toList.isSuffixOf topic then do
    let ts := parseDeviceTime m (Json.get payload "ts".toList)
    -- the prediction is for the time of the reading, by the fingerprint of now
    let predicted ← Cut.read (wmCloud imei ts)
    let predicted ← Cut.ofOption predicted
    insertReading m.server imei ts payload predicted
  else pure ()

/-- `_on_message(client, userdata, msg)`, for a payload that is UTF-8. -/
def onMessage (m : Moment) (topic text : Str) : Py D Unit :=
  match Json.loads text with
  | some (.obj payload) => handlePayload m topic payload
  -- no JSON, or JSON that is no object, is logged and dropped
  | _ => pure ()

end Cloud

end Waterbox
