import Waterbox.Cloud.Records
import Waterbox.Firmware.Replies

namespace Waterbox

/-!
# The way of a time stamp

The modem's reply to `AT+CCLK?` becomes a time in seconds (`RTCget`), then six calendar fields and a
text (`formatTimestamp`), and the worker reads the text as the time of a record.

* `timestamp_exact` — the worker's time determines the 32-bit time of the device, for every time.
* `clock_reaches_worker` — it is the time that the modem sent.
-/

namespace Cloud

open SerialPort TimeLib GsmMqttClient

variable {D : Type} [Python D]

/-- Whatever time `RTCget` gives, the text of its time stamp is read by the worker as the calendar
    time that `makeTime` turns into it, whatever the Time library's cache held. -/
theorem timestamp_exact {t : U32} (ht : t ≠ 0) {c : Cache} (hc : c.Fresh) (m : Moment) :
    ∃ (tm : Elements) (hvalid : tm.Valid) (text : CString) (c' : Cache),
      calendarText t c = some (text, c') ∧ c'.Fresh ∧ makeTime tm = some t ∧
        parseDeviceTime m (.str text : Json D) =
          ⟨tm.dateTime hvalid, 0, Config.timezone⟩ := by
  obtain ⟨tm, hvalid, htotal⟩ := exists_total t
  have hback : BitVec.ofNat 32 tm.total = t := by
    rw [htotal, BitVec.ofNat_toNat, BitVec.setWidth_eq]
  have hbreak : breakTime t = some tm := hback ▸ breakTime_eq hvalid (htotal ▸ t.isLt)
  have hmake : makeTime tm = some t := hback ▸ makeTime_eq hvalid
  have htext := calendarText_eq ht hbreak hvalid hc
  have hread := parseDeviceTime_timestamp (D := D) m (some (tm.dateTime hvalid))
  exact ⟨tm, hvalid, _, _, htext, Cache.fresh_of_breakTime hbreak, hmake, hread⟩

theorem timestamp_exact_last :
    ∃ (tm : Elements) (hvalid : tm.Valid) (text : CString) (c' : Cache),
      calendarText 4294967295 Cache.reset = some (text, c') ∧ c'.Fresh ∧
        makeTime tm = some 4294967295 ∧
          parseDeviceTime noon (.str text : Json Exact) =
            ⟨tm.dateTime hvalid, 0, Config.timezone⟩ :=
  timestamp_exact (by decide) Cache.fresh_reset noon

/-- A time that was set in the modem, from 2000 to 2099 but not in 2001, reaches the worker as it
    is, in whatever pieces the reply arrives, whatever time zone stands behind it, and whatever the
    stack and the cache held. -/
theorem clock_reaches_worker {d : DateTime} (hyear : 2000 ≤ d.year ∧ d.year ≤ 2099)
    (hset : d.year ≠ 2001) {zone : CString} (hzone : Clean zone) (hlen : zone.length ≤ 40)
    {later buf : List Char} {start : U32} {sights : List Sight}
    (h : Arrives defaultWait (answer (clockLine d zone)) later sights)
    (hwraps : ¬ Wraps start defaultWait sights) (tm : Elements) {c : Cache} (hc : c.Fresh)
    (m : Moment) :
    ∃ (t : U32) (text : CString) (c' : Cache),
      SerialPort.rtcGet tm buf start sights = some t ∧ t ≠ 0 ∧
        calendarText t c = some (text, c') ∧ c'.Fresh ∧
          parseDeviceTime m (.str text : Json D) = ⟨d, 0, Config.timezone⟩ := by
  have hrange : 1970 ≤ d.year ∧ d.year ≤ 2099 := by omega
  have hvalid := valid_ofDateTime hrange
  obtain ⟨hlt, hpos⟩ := total_ofDateTime hrange
  have hbreak := breakTime_eq hvalid hlt
  have hget : SerialPort.rtcGet tm buf start sights =
      some (BitVec.ofNat 32 (Elements.ofDateTime d).total) := by
    rw [rtcGet_reply hyear hzone hlen tm h hwraps, if_neg hset, makeTime_eq hvalid]
  have hne : BitVec.ofNat 32 (Elements.ofDateTime d).total ≠ 0 := by
    intro hzero
    have htotal := congrArg BitVec.toNat hzero
    rw [BitVec.toNat_ofNat, Nat.mod_eq_of_lt hlt] at htotal
    exact absurd htotal (hpos (by omega)).ne'
  have htext := calendarText_eq hne hbreak hvalid hc
  rw [dateTime_ofDateTime hrange] at htext
  have hread := parseDeviceTime_timestamp (D := D) m (some d)
  exact ⟨_, d.iso, _, hget, hne, htext, Cache.fresh_of_breakTime hbreak, hread⟩

theorem clock_reaches_worker_noon :
    ∃ (t : U32) (text : CString) (c' : Cache),
      SerialPort.rtcGet ⟨0, 0, 0, 0, 0, 0, 0⟩ [] 1000
        (⟨0, answer (clockLine noon.wall "-12".toList)⟩ ::
          List.replicate (answer (clockLine noon.wall "-12".toList)).length ⟨1, []⟩) = some t ∧
        t ≠ 0 ∧ calendarText t Cache.reset = some (text, c') ∧ c'.Fresh ∧
          parseDeviceTime noon (.str text : Json Exact) = ⟨noon.wall, 0, Config.timezone⟩ :=
  clock_reaches_worker (by decide) (by decide) (by decide) (by decide)
    (arrives_at_once (by decide) _) (fun h => absurd h.1 (by decide)) _ Cache.fresh_reset noon

end Cloud

end Waterbox
