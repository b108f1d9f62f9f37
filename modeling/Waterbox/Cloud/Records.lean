import Waterbox.Cloud.Exact
import Waterbox.Firmware.Single

namespace Waterbox

/-!
# From the device to the tables

What `publishTelemetry` and `publishHeartbeat` write is a JSON object without white space that
fits their buffer and the packet buffer of the MQTT client, and the row that the worker stores
for it has the values the device passed.

* `TwoDecimals` — what `dtostrf` writes: a sign and hundredths, in at most nine characters.
* `GsmMqttClient.Published` — a text that reaches the broker as it was built.
* `Cloud.onMessage_telemetry`, `Cloud.onMessage_heartbeat` — the rows.
* `Cloud.published_stored` — both directions together.
-/

open Text

variable {F D : Type}

/-- The text of a number with two decimals, as `dtostrf` writes it into its buffer of 10 bytes. -/
structure TwoDecimals (text : CString) (neg : Bool) (hundredths : Nat) : Prop where
  text_eq : text = if neg then '-' :: fixed 2 hundredths else fixed 2 hundredths
  short : text.length ≤ 9

/-! ### The texts as objects -/

namespace GsmMqttClient

/-- The text of a time needs no escape in a JSON string. -/
theorem timestamp_plain (t : Option DateTime) : Json.Plain (timestamp t) := by
  cases t with
  | none => exact (by decide : Json.Plain "unset".toList)
  | some t =>
    intro c hc
    rcases DateTime.mem_iso hc with hc | rfl | rfl | rfl
    · exact Json.plain_digit hc
    all_goals decide

theorem length_timestamp (t : Option DateTime) : (timestamp t).length ≤ 19 := by
  cases t with
  | none => decide
  | some t => exact t.length_iso.le

/-- `snprintf` leaves a text that fits as it is. -/
theorem snprintf_eq {n : Nat} {text : CString} (h : text.length < n) : snprintf n text = text :=
  List.take_of_length_le (by omega)

theorem flag_eq (b : Bool) : flag b = udec (if b then 1 else 0) := by
  cases b <;> rfl

section Members

variable [JsonFloat D]

/-- A member with a number of `%u`. -/
def natMember (key : CString) (n : Nat) (hkey : Json.Plain key) : Json.Member D :=
  ⟨key, udec n, .int n, hkey, Json.denotes_udec n⟩

/-- A member with a number of `%d`. -/
def intMember (key : CString) (n : Int) (hkey : Json.Plain key) : Json.Member D :=
  ⟨key, sdec n, .int n, hkey, Json.denotes_sdec n⟩

/-- A member with a text in quotation marks. -/
def strMember (key s : CString) (hkey : Json.Plain key) (hs : Json.Plain s) : Json.Member D :=
  ⟨key, '"' :: s ++ ['"'], .str s, hkey, Json.denotes_str hs⟩

/-- A member with a number of `dtostrf`. -/
def hundredthsMember (key : CString) (neg : Bool) (n : Nat) (hkey : Json.Plain key) :
    Json.Member D :=
  ⟨key, if neg then '-' :: fixed 2 n else fixed 2 n, .float (JsonFloat.ofDecimal neg n (-2)), hkey,
    Json.denotes_fixed neg (by decide) n⟩

/-- The members of a telemetry record. -/
def telemetryMembers (r : Telemetry F) (ts : CString) (himei : Json.Plain r.imei)
    (hts : Json.Plain ts) (lmNeg wmNeg : Bool) (lm wm : Nat) : List (Json.Member D) :=
  [strMember "imei".toList r.imei (by decide) himei,
   hundredthsMember "lm".toList lmNeg lm (by decide),
   natMember "mls".toList r.intervalMl.toNat (by decide),
   natMember "tl_ml".toList r.totalMl.toNat (by decide),
   strMember "ts".toList ts (by decide) hts,
   natMember "v".toList (if r.valveOpen then 1 else 0) (by decide),
   hundredthsMember "wm".toList wmNeg wm (by decide),
   natMember "lk".toList r.leak.toNat (by decide),
   natMember "oc".toList r.overuse.toNat (by decide)]

/-- The members of a heartbeat. -/
def heartbeatMembers (r : Heartbeat) (ts : CString) (himei : Json.Plain r.imei)
    (hts : Json.Plain ts) (rssi : Int) : List (Json.Member D) :=
  [strMember "imei".toList r.imei (by decide) himei,
   strMember "ts".toList ts (by decide) hts,
   natMember "up".toList r.uptimeS.toNat (by decide),
   natMember "v".toList (if r.valveOpen then 1 else 0) (by decide),
   natMember "fp".toList (if r.signatureValid then 1 else 0) (by decide),
   natMember "lk".toList r.leak.toNat (by decide),
   natMember "oc".toList r.overuse.toNat (by decide),
   intMember "rssi".toList rssi (by decide),
   natMember "tl_ml".toList r.totalMl.toNat (by decide),
   natMember "ok".toList 1 (by decide)]

/-- The text of a record is that of the object with its members. -/
theorem telemetryText_eq [CFloat F] (r : Telemetry F) (ts : CString) (himei : Json.Plain r.imei)
    (hts : Json.Plain ts) {lmNeg wmNeg : Bool} {lm wm : Nat}
    (hlm : TwoDecimals (CFloat.dtostrf r.litresPerMinute) lmNeg lm)
    (hwm : TwoDecimals (CFloat.dtostrf r.modelLm) wmNeg wm) :
    telemetryText r ts =
      Json.objectText (telemetryMembers (D := D) r ts himei hts lmNeg wmNeg lm wm) := by
  unfold telemetryText
  rw [flag_eq, hlm.text_eq, hwm.text_eq]
  simp only [Json.objectText, Json.membersText, Json.Member.write, telemetryMembers, strMember,
    natMember, hundredthsMember, String.reduceToList, List.append_assoc, List.cons_append,
    List.nil_append]

theorem heartbeatText_eq (r : Heartbeat) (ts : CString) (himei : Json.Plain r.imei)
    (hts : Json.Plain ts) (rssi : Int) :
    heartbeatText r ts rssi =
      Json.objectText (heartbeatMembers (D := D) r ts himei hts rssi) := by
  have hone : udec 1 = ['1'] := rfl
  unfold heartbeatText
  rw [flag_eq, flag_eq]
  simp only [Json.objectText, Json.membersText, Json.Member.write, heartbeatMembers, strMember,
    natMember, intMember, hone, String.reduceToList, List.append_assoc, List.cons_append,
    List.nil_append]

end Members

/-! ### What reaches the broker -/

/-- A text that fits the buffer, and whose packet passes the size guard of `publish`. -/
structure Published (F : Type) (topic text : CString) : Prop where
  whole : snprintf msgSize text = text
  sent : (PubSubClient.publish topic text : Fw F Bool) = (do
    if ← PubSubClient.connected then PubSubClient.write (.published topic text) else pure false)

/-- The bounds on topic and text under which both guards pass. -/
theorem published_of_length {topic text : CString} (htopic : topic.length ≤ 40)
    (htext : text.length < msgSize) : Published F topic text := by
  have hsize : msgSize = 180 := rfl
  have hguard : ¬ PubSubClient.maxPacketSize < 5 + 2 + topic.length + text.length := by
    have hmax : PubSubClient.maxPacketSize = 256 := rfl
    omega
  refine ⟨snprintf_eq htext, ?_⟩
  rw [PubSubClient.publish, if_neg hguard]

/-- The topic of a meter, in full. -/
def meterTopic (imei leaf : CString) : CString :=
  "waterbox".toList ++ '/' :: (imei ++ '/' :: leaf)

/-- `buildTopics` has room for the whole topic of an IMEI of 15 digits. -/
theorem topic_eq {imei leaf : CString} (himei : imei.length ≤ 15) (hleaf : leaf.length ≤ 4) :
    topic imei leaf = meterTopic imei leaf := by
  have hwhole : Settings.topicRoot ++ '/' :: imei ++ '/' :: leaf = meterTopic imei leaf :=
    List.append_assoc _ _ _
  have hlen : (meterTopic imei leaf).length = 10 + imei.length + leaf.length := by
    unfold meterTopic
    simp only [String.reduceToList, List.length_append, List.length_cons, List.length_nil]
    omega
  rw [topic, hwhole, snprintf_eq (by omega)]

theorem length_meterTopic {imei leaf : CString} (himei : imei.length ≤ 15)
    (hleaf : leaf.length ≤ 4) : (meterTopic imei leaf).length ≤ 40 := by
  unfold meterTopic
  simp only [String.reduceToList, List.length_append, List.length_cons, List.length_nil]
  omega

theorem length_udec_u32 (n : U32) : (udec n.toNat).length ≤ 10 :=
  (length_udec_le (by decide)).2 (n.isLt.trans (by decide))

theorem length_udec_flag {n : U8} (hn : n ≤ 1) : (udec n.toNat).length ≤ 1 :=
  (length_udec_le (by decide)).2 (lt_of_le_of_lt (BitVec.le_def.1 hn) (by decide))

theorem length_flag (b : Bool) : (flag b).length = 1 := by
  cases b <;> rfl

/-- The longest record there is fits the buffer of 180 bytes. -/
theorem length_telemetryText [CFloat F] {r : Telemetry F} {ts : CString}
    (himei : r.imei.length ≤ 15) (hts : ts.length ≤ 19)
    (hlm : (CFloat.dtostrf r.litresPerMinute).length ≤ 9)
    (hwm : (CFloat.dtostrf r.modelLm).length ≤ 9) (hlk : r.leak ≤ 1) (hoc : r.overuse ≤ 1) :
    (telemetryText r ts).length < msgSize := by
  have hmls := length_udec_u32 r.intervalMl
  have htl := length_udec_u32 r.totalMl
  have hlk := length_udec_flag hlk
  have hoc := length_udec_flag hoc
  have hsize : msgSize = 180 := rfl
  unfold telemetryText
  simp only [String.reduceToList, List.length_append, List.length_cons, List.length_nil,
    length_flag]
  omega

/-- `%d` of a 16-bit number. -/
theorem length_sdec {n : Int} (hlo : -32768 ≤ n) (hhi : n ≤ 32767) : (sdec n).length ≤ 6 := by
  have habs : (udec n.natAbs).length ≤ 5 := (length_udec_le (by decide)).2 (by omega)
  unfold sdec
  split_ifs
  · rw [List.length_cons]
    omega
  · omega

theorem length_heartbeatText {r : Heartbeat} {ts : CString} {rssi : Int}
    (himei : r.imei.length ≤ 15) (hts : ts.length ≤ 19) (hlo : -32768 ≤ rssi) (hhi : rssi ≤ 32767)
    (hlk : r.leak ≤ 1) (hoc : r.overuse ≤ 1) : (heartbeatText r ts rssi).length < msgSize := by
  have hup := length_udec_u32 r.uptimeS
  have htl := length_udec_u32 r.totalMl
  have hrssi := length_sdec hlo hhi
  have hlk := length_udec_flag hlk
  have hoc := length_udec_flag hoc
  have hsize : msgSize = 180 := rfl
  unfold heartbeatText
  simp only [String.reduceToList, List.length_append, List.length_cons, List.length_nil,
    length_flag]
  omega

/-- What `formatTimestamp` writes fits its buffer. -/
theorem formatTimestamp_eq :
    (formatTimestamp 21 : Fw F CString) = (do
      let t ← Sim800.rtcGet
      pure (timestamp t)) := by
  have hwhole : ∀ t, snprintf 21 (timestamp t) = timestamp t := fun t =>
    snprintf_eq (Nat.lt_of_le_of_lt (length_timestamp t) (by decide))
  simp only [formatTimestamp, hwhole]

end GsmMqttClient

namespace Cloud

open GsmMqttClient

/-! ### What the worker reads -/

/-- A text that ends in another one does not end in a third one with another last character. -/
theorem isSuffixOf_append_ne {c d : Char} (hcd : c ≠ d) (s t x : Str) :
    (s ++ [c]).isSuffixOf (x ++ (t ++ [d])) = false := by
  have hne : (c == d) = false := beq_eq_false_iff_ne.2 hcd
  simp only [List.isSuffixOf, List.reverse_append, List.reverse_singleton, List.cons_append,
    List.nil_append, List.isPrefixOf, hne, Bool.false_and]

theorem isSuffixOf_append (s x : Str) : s.isSuffixOf (x ++ s) = true :=
  List.isSuffixOf_iff_suffix.2 (List.suffix_append x s)

/-- The worker takes the IMEI out of the topic again. -/
theorem imeiFromTopic_meterTopic {imei leaf : Str} (himei : '/' ∉ imei) (hleaf : '/' ∉ leaf) :
    imeiFromTopic (meterTopic imei leaf) = some imei := by
  have hsplit : (meterTopic imei leaf).splitOn '/' = ["waterbox".toList, imei, leaf] := by
    unfold meterTopic
    rw [List.splitOn_append_cons_self_of_not_mem (by decide),
      List.splitOn_append_cons_self_of_not_mem himei, List.splitOn_eq_singleton hleaf]
  rw [imeiFromTopic, hsplit]
  rfl

variable [Python D]

theorem imeiOf_meterTopic {imei leaf : Str} (hne : imei ≠ []) (himei : '/' ∉ imei)
    (hleaf : '/' ∉ leaf) (payload : Dict D) : imeiOf (meterTopic imei leaf) payload = imei := by
  rw [imeiOf, imeiFromTopic_meterTopic himei hleaf]
  cases imei with
  | nil => exact absurd rfl hne
  | cons c cs => rfl

/-- The time a record is stored under: that of the device's clock in the worker's zone, the
    worker's own where the device's was not set. -/
def stampOf (m : Moment) : Option DateTime → ZonedTime
  | some t => ⟨t, 0, Config.timezone⟩
  | none => m.now

/-- The worker reads the time that the device wrote. -/
theorem parseDeviceTime_timestamp (m : Moment) (t : Option DateTime) :
    parseDeviceTime m (.str (timestamp t) : Json D) = stampOf m t := by
  cases t with
  | none => rfl
  | some t =>
    have hlen := t.length_iso
    -- no character of the text is a space, so `strip()` leaves it
    have hsolid : ∀ c ∈ t.iso, isSpace c = false := by
      intro c hc
      rcases DateTime.mem_iso hc with hc | rfl | rfl | rfl
      · have hrange := toNat_of_isDigit hc
        simp only [isSpace, Bool.or_eq_false_iff, Bool.and_eq_false_iff, decide_eq_false_iff_not]
        omega
      all_goals decide
    have htruthy : truthy (.str t.iso : Json D) = true := by
      cases hiso : t.iso with
      | nil =>
        rw [hiso] at hlen
        cases hlen
      | cons c cs => rfl
    have hset : isUnset (.str t.iso : Json D) = false := by
      simp only [isUnset, decide_eq_false_iff_not]
      intro hiso
      rw [hiso] at hlen
      cases hlen
    simp only [timestamp, parseDeviceTime, htruthy, hset, str, strip_eq_self hsolid,
      DateTime.strptime_iso, stampOf, Bool.not_true, Bool.or_self, Bool.false_eq_true, if_false]

/-! ### Columns -/

/-- A number within the range of its column is stored as it is. -/
theorem intColumn_eq {bits : Nat} {n : Int} (h : -2 ^ (bits - 1) ≤ n ∧ n < 2 ^ (bits - 1)) :
    intColumn bits n = some n := if_pos h

theorem bigint_u32 (n : U32) :
    nullableInt 64 (some (n.toNat : Int)) = some (some (n.toNat : Int)) := by
  have hn := n.isLt
  rw [nullableInt, intColumn_eq (by omega), Option.map_some]

theorem smallint_flag {n : U8} (hn : n ≤ 1) :
    intColumn 16 (n.toNat : Int) = some (n.toNat : Int) := by
  have hn : n.toNat ≤ 1 := BitVec.le_def.1 hn
  exact intColumn_eq (by omega)

/-- A plain text holds no NUL, the one character that a text column refuses. -/
theorem contains_nul {s : Str} (hs : Json.Plain s) : s.contains '\x00' = false := by
  rw [List.contains_eq_mem, decide_eq_false_iff_not]
  intro hmem
  exact absurd (hs _ hmem).2.2 (by decide)

theorem textColumn_plain {s : Str} (hs : Json.Plain s) : textColumn s = some s := by
  rw [textColumn, contains_nul hs]
  rfl

theorem storable_str {s : Str} (hs : Json.Plain s) : storable (.str s : Json D) = true := by
  rw [storable, contains_nul hs]
  rfl

/-- A number that is written in nine characters is finite. -/
theorem storable_hundredths [LawfulPython D] {text : Str} {neg : Bool} {n : Nat}
    (h : TwoDecimals text neg n) :
    storable (.float (JsonFloat.ofDecimal neg n (-2)) : Json D) = true := by
  have hlen : (udec (n / 10 ^ 2)).length ≤ 9 := by
    have hshort := h.short
    rw [h.text_eq, fixed] at hshort
    split_ifs at hshort <;> simp only [List.length_append, List.length_cons] at hshort <;> omega
  have hn := (length_udec_le (by decide)).1 hlen
  rw [storable]
  exact LawfulPython.isFinite_ofDecimal neg n (-2) (lt_of_lt_of_le (by omega : n < 10 ^ 11)
    (Nat.pow_le_pow_right (by decide) (by decide))) (by decide)

theorem asBool_flag (b : Bool) :
    asBool (.int ((if b then 1 else 0 : Nat) : Int) : Json D) = some (some b) := by
  cases b <;> rfl

/-! ### The branches of the handler -/

variable [Server D]

omit [Python D] [Server D] in
theorem meterTopic_append (imei leaf : Str) :
    meterTopic imei leaf = "waterbox/".toList ++ imei ++ ['/'] ++ leaf := by
  unfold meterTopic
  simp only [String.reduceToList, List.append_assoc, List.cons_append, List.nil_append]

/-- A message on `/data` takes the branch of the readings. -/
theorem handlePayload_data {imei : Str} (hne : imei ≠ []) (himei : '/' ∉ imei) (m : Moment)
    (payload : Dict D) (db : Db D) :
    handlePayload m (meterTopic imei "data".toList) payload db =
      match wmCloud imei (parseDeviceTime m (Json.get payload "ts".toList)) db with
      | none => (none, db)
      | some predicted =>
        insertReading m.server imei (parseDeviceTime m (Json.get payload "ts".toList)) payload
          predicted db := by
  have hleaf : '/' ∉ "data".toList := by decide
  have hinfo : "/info".toList.isSuffixOf (meterTopic imei "data".toList) = false := by
    rw [meterTopic_append]
    exact isSuffixOf_append_ne (by decide : 'o' ≠ 'a') "/inf".toList "dat".toList _
  have hhb : "/hb".toList.isSuffixOf (meterTopic imei "data".toList) = false := by
    rw [meterTopic_append]
    exact isSuffixOf_append_ne (by decide : 'b' ≠ 'a') "/h".toList "dat".toList _
  have hdata : "/data".toList.isSuffixOf (meterTopic imei "data".toList) = true := by
    rw [meterTopic_append, List.append_assoc]
    exact isSuffixOf_append "/data".toList _
  have hfound : imei.isEmpty = false := List.isEmpty_eq_false_iff.2 hne
  simp only [handlePayload, imeiOf_meterTopic hne himei hleaf, hfound, hinfo, hhb, hdata,
    Bool.false_eq_true, if_false, if_true]
  simp only [Bind.bind, Cut.read]
  cases wmCloud imei (parseDeviceTime m (Json.get payload "ts".toList)) db <;> rfl

/-- And one on `/hb` that of the heartbeats. -/
theorem handlePayload_hb {imei : Str} (hne : imei ≠ []) (himei : '/' ∉ imei) (m : Moment)
    (payload : Dict D) (db : Db D) :
    handlePayload m (meterTopic imei "hb".toList) payload db =
      insertHeartbeat m.server imei (parseDeviceTime m (Json.get payload "ts".toList)) payload
        db := by
  have hleaf : '/' ∉ "hb".toList := by decide
  have hinfo : "/info".toList.isSuffixOf (meterTopic imei "hb".toList) = false := by
    rw [meterTopic_append]
    exact isSuffixOf_append_ne (by decide : 'o' ≠ 'b') "/inf".toList "h".toList _
  have hhb : "/hb".toList.isSuffixOf (meterTopic imei "hb".toList) = true := by
    rw [meterTopic_append, List.append_assoc]
    exact isSuffixOf_append "/hb".toList _
  have hfound : imei.isEmpty = false := List.isEmpty_eq_false_iff.2 hne
  simp only [handlePayload, imeiOf_meterTopic hne himei hleaf, hfound, hinfo, hhb,
    Bool.false_eq_true, if_false, if_true]

/-! ### Telemetry -/

/-- The payload of a telemetry record. -/
def telemetryPayload (r : Telemetry F) (t : Option DateTime) (lmNeg wmNeg : Bool) (lm wm : Nat) :
    Dict D :=
  [("imei".toList, .str r.imei),
   ("lm".toList, .float (JsonFloat.ofDecimal lmNeg lm (-2))),
   ("mls".toList, .int r.intervalMl.toNat),
   ("tl_ml".toList, .int r.totalMl.toNat),
   ("ts".toList, .str (timestamp t)),
   ("v".toList, .int (if r.valveOpen then 1 else 0 : Nat)),
   ("wm".toList, .float (JsonFloat.ofDecimal wmNeg wm (-2))),
   ("lk".toList, .int r.leak.toNat),
   ("oc".toList, .int r.overuse.toNat)]

/-- The row of a telemetry record. -/
def telemetryReading (m : Moment) (r : Telemetry F) (t : Option DateTime) (lmNeg wmNeg : Bool)
    (lm wm : Nat) (predicted : Option D) : Reading D where
  imei := r.imei
  ts := stampOf m t
  ingestedAt := m.server
  lm := some (JsonFloat.ofDecimal lmNeg lm (-2))
  mls := some r.intervalMl.toNat
  tlMl := some r.totalMl.toNat
  valve := some r.valveOpen
  wm := some (JsonFloat.ofDecimal wmNeg wm (-2))
  wmCloud := predicted
  lk := r.leak.toNat
  oc := r.overuse.toNat
  raw := telemetryPayload r t lmNeg wmNeg lm wm

section Telemetry

variable [CFloat F] [LawfulPython D] {r : Telemetry F} {t : Option DateTime} {lmNeg wmNeg : Bool}
  {lm wm : Nat}

omit [Server D] in
/-- The record passes as `jsonb`: its texts hold no NUL, its numbers are finite. -/
theorem storable_telemetryPayload (himei : Json.Plain r.imei)
    (hlm : TwoDecimals (CFloat.dtostrf r.litresPerMinute) lmNeg lm)
    (hwm : TwoDecimals (CFloat.dtostrf r.modelLm) wmNeg wm) :
    storableMembers (telemetryPayload (D := D) r t lmNeg wmNeg lm wm) = true := by
  have hint : ∀ n : Int, storable (.int n : Json D) = true := fun n => by simp [storable]
  apply storableMembers_of_forall
  simp only [telemetryPayload, List.forall_mem_cons, storableMember, storable_str himei,
    storable_str (timestamp_plain t), storable_hundredths hlm, storable_hundredths hwm, hint,
    Bool.and_true, List.not_mem_nil, false_imp_iff, implies_true, and_true]
  decide

omit [Server D] in
/-- The worker makes the row of a telemetry record from its payload. -/
theorem reading_telemetryPayload (himei : Json.Plain r.imei)
    (hlm : TwoDecimals (CFloat.dtostrf r.litresPerMinute) lmNeg lm)
    (hwm : TwoDecimals (CFloat.dtostrf r.modelLm) wmNeg wm) (hlk : r.leak ≤ 1)
    (hoc : r.overuse ≤ 1) (m : Moment) (predicted : Option D) :
    reading m.server r.imei (stampOf m t) (telemetryPayload r t lmNeg wmNeg lm wm) predicted =
      some (telemetryReading m r t lmNeg wmNeg lm wm predicted) := by
  have hvalve : asBool (Json.get (telemetryPayload (D := D) r t lmNeg wmNeg lm wm) "v".toList) =
      some (some r.valveOpen) := asBool_flag r.valveOpen
  exact reading_eq rfl rfl rfl hvalve rfl rfl rfl (textColumn_plain himei) (bigint_u32 _)
    (bigint_u32 _) (smallint_flag hlk) (smallint_flag hoc) (storable_telemetryPayload himei hlm hwm)

/-- What the worker does with a telemetry record, where the stored fingerprint does not raise. -/
theorem onMessage_telemetry (hne : r.imei ≠ []) (hdigits : ∀ c ∈ r.imei, c.isDigit = true)
    (hlm : TwoDecimals (CFloat.dtostrf r.litresPerMinute) lmNeg lm)
    (hwm : TwoDecimals (CFloat.dtostrf r.modelLm) wmNeg wm) (hlk : r.leak ≤ 1)
    (hoc : r.overuse ≤ 1) (m : Moment) (db : Db D) :
    onMessage m (meterTopic r.imei "data".toList) (telemetryText r (timestamp t)) db =
      match wmCloud r.imei (stampOf m t) db with
      | none => (none, db)
      | some predicted => (some (),
        { db with
          meters := db.meters.insert r.imei
            (Excluded.store ⟨none, some r.valveOpen, some false⟩ m.server
              (db.meters.lookup r.imei))
          readings := telemetryReading m r t lmNeg wmNeg lm wm predicted :: db.readings }) := by
  have himei : Json.Plain r.imei := fun c hc => Json.plain_digit (hdigits c hc)
  have hslash : '/' ∉ r.imei := fun hmem => absurd (hdigits _ hmem) (by decide)
  let payload : Dict D := telemetryPayload r t lmNeg wmNeg lm wm
  have hloads : Json.loads (telemetryText r (timestamp t)) = some (.obj payload) := by
    rw [telemetryText_eq (D := D) r (timestamp t) himei (timestamp_plain t) hlm hwm,
      Json.loads_objectText]
    rfl
  have hts : parseDeviceTime m (Json.get payload "ts".toList) = stampOf m t :=
    parseDeviceTime_timestamp m t
  have hvalve : asBool (Json.get payload "v".toList) = some (some r.valveOpen) :=
    asBool_flag r.valveOpen
  have hfp : asBool (Json.get payload "fp".toList) = some none := rfl
  -- the flags of the meter: a telemetry record has no `fp`, which counts as false
  have hex : excluded payload = some ⟨none, some r.valveOpen, some false⟩ :=
    excluded_eq hvalve hfp rfl
  rw [onMessage, hloads]
  show handlePayload m (meterTopic r.imei "data".toList) payload db = _
  rw [handlePayload_data hne hslash, hts]
  cases wmCloud r.imei (stampOf m t) db with
  | none => rfl
  | some predicted =>
    exact insertReading_eq hex (textColumn_plain himei)
      (reading_telemetryPayload himei hlm hwm hlk hoc m predicted)

end Telemetry

/-! ### Heartbeats -/

/-- The payload of a heartbeat. -/
def heartbeatPayload (r : Heartbeat) (t : Option DateTime) (rssi : Int) : Dict D :=
  [("imei".toList, .str r.imei),
   ("ts".toList, .str (timestamp t)),
   ("up".toList, .int r.uptimeS.toNat),
   ("v".toList, .int (if r.valveOpen then 1 else 0 : Nat)),
   ("fp".toList, .int (if r.signatureValid then 1 else 0 : Nat)),
   ("lk".toList, .int r.leak.toNat),
   ("oc".toList, .int r.overuse.toNat),
   ("rssi".toList, .int rssi),
   ("tl_ml".toList, .int r.totalMl.toNat),
   ("ok".toList, .int 1)]

/-- The row of a heartbeat. -/
def heartbeatRowOf (m : Moment) (r : Heartbeat) (t : Option DateTime) (rssi : Int) :
    HeartbeatRow D where
  imei := r.imei
  ts := stampOf m t
  ingestedAt := m.server
  uptimeS := some r.uptimeS.toNat
  valve := some r.valveOpen
  fpValid := some r.signatureValid
  lk := r.leak.toNat
  oc := r.overuse.toNat
  rssi := some rssi
  tlMl := some r.totalMl.toNat
  ok := 1
  raw := heartbeatPayload r t rssi

section Heartbeats

variable {r : Heartbeat} {t : Option DateTime} {rssi : Int}

omit [Server D] in
theorem storable_heartbeatPayload (himei : Json.Plain r.imei) :
    storableMembers (heartbeatPayload (D := D) r t rssi) = true := by
  have hint : ∀ n : Int, storable (.int n : Json D) = true := fun n => by simp [storable]
  apply storableMembers_of_forall
  simp only [heartbeatPayload, List.forall_mem_cons, storableMember, storable_str himei,
    storable_str (timestamp_plain t), hint, Bool.and_true, List.not_mem_nil, false_imp_iff,
    implies_true, and_true]
  decide

omit [Server D] in
/-- The worker makes the row of a heartbeat from its payload. -/
theorem heartbeatRow_heartbeatPayload (himei : Json.Plain r.imei) (hlo : -32768 ≤ rssi)
    (hhi : rssi ≤ 32767) (hlk : r.leak ≤ 1) (hoc : r.overuse ≤ 1) (m : Moment) :
    heartbeatRow m.server r.imei (stampOf m t) (heartbeatPayload (D := D) r t rssi) =
      some (heartbeatRowOf m r t rssi) := by
  have hvalve : asBool (Json.get (heartbeatPayload (D := D) r t rssi) "v".toList) =
      some (some r.valveOpen) := asBool_flag r.valveOpen
  have hfp : asBool (Json.get (heartbeatPayload (D := D) r t rssi) "fp".toList) =
      some (some r.signatureValid) := asBool_flag r.signatureValid
  have hrssi : nullableInt 32 (some rssi) = some (some rssi) := by
    rw [nullableInt, intColumn_eq (by omega), Option.map_some]
  have hok : intColumn 16 1 = some 1 := intColumn_eq (by decide)
  exact heartbeatRow_eq rfl hvalve hfp rfl rfl rfl rfl rfl rfl (textColumn_plain himei)
    (bigint_u32 _) (smallint_flag hlk) (smallint_flag hoc) hrssi (bigint_u32 _) hok
    (storable_heartbeatPayload himei)

/-- What the worker does with a heartbeat. -/
theorem onMessage_heartbeat (hne : r.imei ≠ []) (hdigits : ∀ c ∈ r.imei, c.isDigit = true)
    (hlo : -32768 ≤ rssi) (hhi : rssi ≤ 32767) (hlk : r.leak ≤ 1) (hoc : r.overuse ≤ 1)
    (m : Moment) (db : Db D) :
    onMessage m (meterTopic r.imei "hb".toList) (heartbeatText r (timestamp t) rssi) db =
      (some (),
        { db with
          meters := db.meters.insert r.imei
            (Excluded.store ⟨none, some r.valveOpen, some r.signatureValid⟩ m.server
              (db.meters.lookup r.imei))
          heartbeats := heartbeatRowOf m r t rssi :: db.heartbeats }) := by
  have himei : Json.Plain r.imei := fun c hc => Json.plain_digit (hdigits c hc)
  have hslash : '/' ∉ r.imei := fun hmem => absurd (hdigits _ hmem) (by decide)
  let payload : Dict D := heartbeatPayload r t rssi
  have hloads : Json.loads (heartbeatText r (timestamp t) rssi) = some (.obj payload) := by
    rw [heartbeatText_eq (D := D) r (timestamp t) himei (timestamp_plain t) rssi,
      Json.loads_objectText]
    rfl
  have hts : parseDeviceTime m (Json.get payload "ts".toList) = stampOf m t :=
    parseDeviceTime_timestamp m t
  -- `handle_payload` copies two members for `upsert_meter`
  let flags : Dict D :=
    [("v".toList, Json.get payload "v".toList), ("fp".toList, Json.get payload "fp".toList)]
  have hvalve : asBool (Json.get flags "v".toList) = some (some r.valveOpen) :=
    asBool_flag r.valveOpen
  have hfp : asBool (Json.get flags "fp".toList) = some (some r.signatureValid) :=
    asBool_flag r.signatureValid
  have hex : excluded flags = some ⟨none, some r.valveOpen, some r.signatureValid⟩ :=
    excluded_eq hvalve hfp rfl
  rw [onMessage, hloads]
  show handlePayload m (meterTopic r.imei "hb".toList) payload db = _
  rw [handlePayload_hb hne hslash, hts]
  exact insertHeartbeat_eq hex (textColumn_plain himei)
    (heartbeatRow_heartbeatPayload himei hlo hhi hlk hoc m)

end Heartbeats

/-! ### Both directions -/

/-- A telemetry record and a heartbeat reach the broker as they were built and are JSON objects,
    and the row the worker stores has the values the device passed. -/
theorem published_stored [CFloat F] [LawfulPython D] :
    (formatTimestamp 21 : Fw F CString) = (do
      let t ← Sim800.rtcGet
      pure (timestamp t)) ∧
    (∀ (r : Telemetry F) (t : Option DateTime) (lmNeg wmNeg : Bool) (lm wm : Nat),
      r.imei.length ≤ 15 → (∀ c ∈ r.imei, c.isDigit = true) →
      TwoDecimals (CFloat.dtostrf r.litresPerMinute) lmNeg lm →
      TwoDecimals (CFloat.dtostrf r.modelLm) wmNeg wm → r.leak ≤ 1 → r.overuse ≤ 1 →
      Published F (topic r.imei "data".toList) (telemetryText r (timestamp t)) ∧
      (∃ payload : Dict D, Json.loads (telemetryText r (timestamp t)) = some (.obj payload)) ∧
      (r.imei ≠ [] → ∀ (m : Moment) (db : Db D),
        onMessage m (topic r.imei "data".toList) (telemetryText r (timestamp t)) db =
          match wmCloud r.imei (stampOf m t) db with
          | none => (none, db)
          | some predicted => (some (),
            { db with
              meters := db.meters.insert r.imei
                (Excluded.store ⟨none, some r.valveOpen, some false⟩ m.server
                  (db.meters.lookup r.imei))
              readings := telemetryReading m r t lmNeg wmNeg lm wm predicted :: db.readings }))) ∧
    ∀ (r : Heartbeat) (t : Option DateTime) (rssi : Int),
      r.imei.length ≤ 15 → (∀ c ∈ r.imei, c.isDigit = true) → -32768 ≤ rssi → rssi ≤ 32767 →
      r.leak ≤ 1 → r.overuse ≤ 1 →
      Published F (topic r.imei "hb".toList) (heartbeatText r (timestamp t) rssi) ∧
      (∃ payload : Dict D, Json.loads (heartbeatText r (timestamp t) rssi) = some (.obj payload)) ∧
      (r.imei ≠ [] → ∀ (m : Moment) (db : Db D),
        onMessage m (topic r.imei "hb".toList) (heartbeatText r (timestamp t) rssi) db =
          (some (),
            { db with
              meters := db.meters.insert r.imei
                (Excluded.store ⟨none, some r.valveOpen, some r.signatureValid⟩ m.server
                  (db.meters.lookup r.imei))
              heartbeats := heartbeatRowOf m r t rssi :: db.heartbeats })) := by
  refine ⟨formatTimestamp_eq, ?_, ?_⟩
  · -- a telemetry record
    intro r t lmNeg wmNeg lm wm hlen hdigits hlm hwm hlk hoc
    have himei : Json.Plain r.imei := fun c hc => Json.plain_digit (hdigits c hc)
    rw [topic_eq hlen (by decide)]
    refine ⟨?_, ?_, ?_⟩
    · exact published_of_length (length_meterTopic hlen (by decide))
        (length_telemetryText hlen (length_timestamp t) hlm.short hwm.short hlk hoc)
    · rw [telemetryText_eq (D := D) r (timestamp t) himei (timestamp_plain t) hlm hwm,
        Json.loads_objectText]
      exact ⟨_, rfl⟩
    · exact fun hne m db => onMessage_telemetry hne hdigits hlm hwm hlk hoc m db
  · -- a heartbeat
    intro r t rssi hlen hdigits hlo hhi hlk hoc
    have himei : Json.Plain r.imei := fun c hc => Json.plain_digit (hdigits c hc)
    rw [topic_eq hlen (by decide)]
    refine ⟨?_, ?_, ?_⟩
    · exact published_of_length (length_meterTopic hlen (by decide))
        (length_heartbeatText hlen (length_timestamp t) hlo hhi hlk hoc)
    · rw [heartbeatText_eq (D := D) r (timestamp t) himei (timestamp_plain t) rssi,
        Json.loads_objectText]
      exact ⟨_, rfl⟩
    · exact fun hne m db => onMessage_heartbeat hne hdigits hlo hhi hlk hoc m db

/-- A record of a meter with open valve through which water flows. -/
def flowing : Telemetry Single where
  imei := "861234567890123".toList
  litresPerMinute := Single.ofValue (25 / 2)
  intervalMl := 2500
  totalMl := 4294967295
  valveOpen := true
  modelLm := Single.ofValue (-1 / 4)
  leak := 0
  overuse := 1

/-- A record with a negative model and the largest total, as the worker stores it. -/
theorem published_stored_flowing :
    ((onMessage noon (topic flowing.imei "data".toList)
        (telemetryText flowing (timestamp (some noon.wall))) noMeters).2.readings.map fun row =>
      (row.lm, row.wm, row.tlMl, row.ts)) =
      [(some (.finite (25 / 2)), some (.finite (-1 / 4)), some 4294967295,
        ⟨noon.wall, 0, Config.timezone⟩)] := by
  have hlm : TwoDecimals (CFloat.dtostrf flowing.litresPerMinute) false 1250 :=
    ⟨by decide +kernel, by decide +kernel⟩
  have hwm : TwoDecimals (CFloat.dtostrf flowing.modelLm) true 25 :=
    ⟨by decide +kernel, by decide +kernel⟩
  have hdigits : flowing.imei.all Char.isDigit = true := by decide
  have hstored := ((published_stored (F := Single) (D := Exact)).2.1 flowing (some noon.wall) false
    true 1250 25 (by decide) (List.all_eq_true.1 hdigits) hlm hwm (by decide) (by decide)).2.2
    (by decide) noon noMeters
  rw [hstored]
  decide +kernel

end Cloud

end Waterbox
