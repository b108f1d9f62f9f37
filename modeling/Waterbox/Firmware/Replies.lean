import Waterbox.Firmware.SerialPort
import Waterbox.Firmware.TimeLib
import Waterbox.Lib.Scan

namespace Waterbox

/-!
# `getIMEI`, `getSignalQualityReport` and `RTCget`

What the firmware reads out of the modem's replies, by `sscanf` on the buffer of `ATcommand`.

* `getImei_reply` — the identity of the modem, and when it does not fit the array it is written to.
* `getSignalQualityReport_reply`, `rtcGet_reply` — the signal and the clock.
-/

namespace SerialPort

open Text TimeLib

/-- `sizeof(imeicode_)`. -/
def imeiSize : Nat := 16

/-- `getIMEI(imei)`: the value returned and the array; `none` is a write behind the array, since
    `"%s\r\n"` has no width. -/
def getImei (initialized : Bool) (imei : CString) (buf : List Char) (start : U32)
    (sights : List Sight) : Option (Bool × CString) :=
  if initialized then do
    let r ← atCommandDefault buf start sights
    if r.ok then
      match scan (.word :: plain crlf) (cstr r.buf) with
      | [.word s] => if s.length < imeiSize then some (true, s) else none
      | _ => some (false, "000000000000000".toList)
    else some (false, "000000000000000".toList)
  else some (false, imei)

/-- An `int` of 16 bits. -/
def toInt (n : Int) : Int := (BitVec.ofInt 16 n).toInt

/-- `getSignalQualityReport(rssi, ber)`: the value returned and the two numbers. -/
def getSignalQualityReport (initialized : Bool) (rssi ber : Int) (buf : List Char) (start : U32)
    (sights : List Sight) : Option (Bool × Int × Int) :=
  if initialized then do
    let r ← atCommandDefault buf start sights
    if r.ok then
      match scan (plain "+CSQ: ".toList ++ .anyInt :: (plain ",".toList ++ .anyInt :: plain crlf))
        (cstr r.buf) with
      | [.int rssi, .int ber] => some (true, toInt rssi, toInt ber)
      | _ => some (false, 99, 99)
    else some (false, 99, 99)
  else some (false, rssi, ber)

/-- `"+CCLK: \"%02hhd/%02hhd/%02hhd,%02hhd:%02hhd:%02hhd+00\"\r\n"`. -/
def cclkFormat : List Directive :=
  plain "+CCLK: \"".toList ++ .int 2 :: (plain "/".toList ++ .int 2 ::
    (plain "/".toList ++ .int 2 :: (plain ",".toList ++ .int 2 :: (plain ":".toList ++ .int 2 ::
      (plain ":".toList ++ .int 2 :: plain "+00\"\r\n".toList)))))

/-- `y2kYearToTm`. -/
def y2kYearToTm (year : U8) : U8 := year + 30

/-- `RTCread(tm)`; `none` where it returns 1. -/
def rtcRead (tm : Elements) (r : Receipt) : Option Elements :=
  if r.ok then
    match scan cclkFormat (cstr r.buf) with
    | [.int year, .int month, .int day, .int hour, .int minute, .int second] =>
      let year := BitVec.ofInt 8 year
      -- the clock was never set
      if year = 1 then none
      else some
        { tm with
          year := y2kYearToTm year
          month := BitVec.ofInt 8 month
          day := BitVec.ofInt 8 day
          hour := BitVec.ofInt 8 hour
          minute := BitVec.ofInt 8 minute
          second := BitVec.ofInt 8 second }
    | _ => none
  else none

/-- `RTCget()`, with what the stack holds at `tm`. -/
def rtcGet (tm : Elements) (buf : List Char) (start : U32) (sights : List Sight) : Option U32 := do
  let r ← atCommandDefault buf start sights
  match rtcRead tm r with
  | none => some 0
  | some tm => makeTime tm

variable {buf later : List Char} {start : U32} {sights : List Sight}

/-- The default wait of 5 seconds. -/
def defaultWait : Nat := 5000

/-- The reply to a command that asks for a line of text. -/
def answer (line : CString) : CString := crlf ++ (line ++ crlf ++ crlf) ++ okStr

theorem Clean.append {u v : List Char} (hu : Clean u) (hv : Clean v) : Clean (u ++ v) := by
  simp only [Clean, List.mem_append, not_or]
  exact ⟨⟨hu.1, hv.1⟩, ⟨hu.2.1, hv.2.1⟩, hu.2.2, hv.2.2⟩

/-- A line that the modem answers in time stands at the start of the buffer. -/
theorem atCommandDefault_answer (buf : List Char) {line : CString} (hline : Clean line)
    (hlen : line.length < 90)
    (h : Arrives defaultWait (answer line) later sights)
    (hwraps : ¬ Wraps start defaultWait sights) :
    ∃ r, atCommandDefault buf start sights = some r ∧ r.ok = true ∧
      cstr r.buf = line ++ "\r\n\r\nOK".toList ∧ r.unread = later := by
  have hbody : Clean (line ++ crlf ++ crlf) := by
    obtain ⟨hnul, hO, hE⟩ := hline
    simp only [Clean, crlf, List.mem_append, List.mem_cons, List.not_mem_nil, not_or]
    exact ⟨⟨⟨hnul, by decide, by decide, not_false⟩, by decide, by decide, not_false⟩,
      ⟨⟨hO, by decide, by decide, not_false⟩, by decide, by decide, not_false⟩,
      ⟨hE, by decide, by decide, not_false⟩, by decide, by decide, not_false⟩
  have hclean : Clean (crlf ++ (line ++ crlf ++ crlf)) := Clean.append (by decide) hbody
  have hcount : (answer line).length < bufLength := by
    simp only [answer, List.length_append, show crlf.length = 2 from rfl,
      show okStr.length = 4 from rfl, show bufLength = 100 from rfl]
    omega
  have hwait : ((5000 : U32).setWidth 16 : U16).toNat = defaultWait := rfl
  obtain ⟨r, hr, hok, hbuf, hunread⟩ :=
    atCommand_ok buf start 5000 hclean.unended hcount (hwait ▸ h) (hwait ▸ hwraps)
  refine ⟨r, hr, hok, ?_, hunread⟩
  rw [hbuf, headless_crlf, List.append_assoc, List.append_assoc]
  rfl

/-! ### Identity and signal -/

theorem clean_of_digits {u : List Char} (hu : ∀ c ∈ u, c.isDigit = true) : Clean u :=
  ⟨fun h => absurd (hu _ h) (by decide), fun h => absurd (hu _ h) (by decide),
    fun h => absurd (hu _ h) (by decide)⟩

/-- The identity is read back as the modem sends it where it fits the array, and written behind
    the array where it does not. -/
theorem getImei_reply {imei old : CString} (himei : ∀ c ∈ imei, c.isDigit = true) (hne : imei ≠ [])
    (hlen : imei.length < 90) (h : Arrives defaultWait (answer imei) later sights)
    (hwraps : ¬ Wraps start defaultWait sights) :
    getImei true old buf start sights =
      if imei.length < imeiSize then some (true, imei) else none := by
  obtain ⟨r, hr, hok, htext, -⟩ := atCommandDefault_answer buf (clean_of_digits himei) hlen h hwraps
  have hscan : scan (.word :: plain crlf) (cstr r.buf) = [.word imei] := by
    rw [htext, scan_word hne (fun c hc => isSpace_digit (himei c hc)), scan_plain_end]
    rintro c ⟨⟩
    rfl
  rw [getImei, if_pos rfl]
  show (atCommandDefault buf start sights).bind _ = _
  rw [hr, Option.bind_some, if_pos hok, hscan]

theorem getImei_reply_long :
    getImei true [] [] 0 (⟨0, answer "8612345678901234".toList⟩ ::
      List.replicate (answer "8612345678901234".toList).length ⟨1, []⟩) =
        if "8612345678901234".toList.length < imeiSize then some (true, "8612345678901234".toList)
        else none :=
  getImei_reply (by simp) (by decide) (by decide) (arrives_at_once (by decide) _)
    fun h => absurd h.1 (by decide)

theorem udec_start (n : Nat) : ∃ c u, udec n = c :: u ∧ c.isDigit = true := by
  obtain ⟨c, u, h⟩ := List.exists_cons_of_ne_nil (udec_ne_nil n)
  exact ⟨c, u, h, isDigit_udec (h ▸ List.mem_cons_self)⟩

theorem toInt_natCast {n : Nat} (hn : n < 2 ^ 15) : toInt n = n := by
  rw [toInt, BitVec.ofInt_natCast, BitVec.toInt_eq_toNat_cond, BitVec.toNat_ofNat]
  split_ifs <;> omega

/-- The signal is read back as the modem sends it. -/
theorem getSignalQualityReport_reply {rssi ber : Nat} {oldRssi oldBer : Int} (hrssi : rssi < 2 ^ 15)
    (hber : ber < 2 ^ 15)
    (h : Arrives defaultWait (answer ("+CSQ: ".toList ++ udec rssi ++ ',' :: udec ber)) later
      sights)
    (hwraps : ¬ Wraps start defaultWait sights) :
    getSignalQualityReport true oldRssi oldBer buf start sights =
      some (true, (rssi : Int), (ber : Int)) := by
  have hclean : Clean ("+CSQ: ".toList ++ udec rssi ++ ',' :: udec ber) :=
    (Clean.append (by decide) (clean_of_digits fun c hc => isDigit_udec hc)).append
      (Clean.append (u := [',']) (by decide) (clean_of_digits fun c hc => isDigit_udec hc))
  have hlen : ∀ n < 2 ^ 15, (udec n).length ≤ 5 := fun n hn =>
    (length_udec_le (by decide)).2 (Nat.lt_trans hn (by decide))
  have hshort : ("+CSQ: ".toList ++ udec rssi ++ ',' :: udec ber).length < 90 := by
    have hr := hlen rssi hrssi
    have hb := hlen ber hber
    have hhead : "+CSQ: ".toList.length = 6 := by decide
    rw [List.length_append, List.length_append, List.length_cons, hhead]
    omega
  obtain ⟨r, hr, hok, htext, -⟩ := atCommandDefault_answer buf hclean hshort h hwraps
  have hscan : scan
      (plain "+CSQ: ".toList ++ .anyInt :: (plain ",".toList ++ .anyInt :: plain crlf))
      (cstr r.buf) = [.int rssi, .int ber] := by
    have hsplit : plain "+CSQ: ".toList = plain "+CSQ:".toList ++ [.space] := rfl
    have htext' : "+CSQ: ".toList = "+CSQ:".toList ++ [' '] := by decide
    obtain ⟨c, u, hudec, hc⟩ := udec_start rssi
    have hstart : ∀ d ∈ (udec rssi ++ (',' :: udec ber ++ "\r\n\r\nOK".toList)).head?,
        isSpace d = false := by
      rw [hudec]
      rintro d ⟨⟩
      exact isSpace_digit hc
    rw [htext, hsplit, htext']
    simp only [List.append_assoc, List.nil_append, List.cons_append] at hstart ⊢
    rw [scan_heading (by simp [isSpace]) hstart,
      scan_anyInt (endsAnyInt_cons rfl (by decide) (by decide) _)]
    show .int rssi :: scan (plain ",".toList ++ .anyInt :: plain crlf)
      (",".toList ++ (udec ber ++ "\r\n\r\nOK".toList)) = _
    have hend : EndsAnyInt "\r\n\r\nOK".toList :=
      endsAnyInt_cons (c := '\r') rfl (by decide) (by decide) _
    rw [scan_plain (by simp [isSpace]), scan_anyInt hend, scan_plain_end]
  rw [getSignalQualityReport, if_pos rfl]
  show (atCommandDefault buf start sights).bind _ = _
  rw [hr, Option.bind_some, if_pos hok, hscan]
  dsimp only
  rw [toInt_natCast hrssi, toInt_natCast hber]

/-! ### The clock -/

/-- `yy/MM/dd,hh:mm:ss`, as the modem writes a date from 2000 on. -/
def clockText (d : DateTime) : CString :=
  pad0 2 (udec (d.year - 2000)) ++ '/' :: pad0 2 (udec d.month) ++ '/' :: pad0 2 (udec d.day) ++
    ',' :: pad0 2 (udec d.hour) ++ ':' :: pad0 2 (udec d.minute) ++ ':' :: pad0 2 (udec d.second)

/-- The modem's line for its clock, with the time zone. -/
def clockLine (d : DateTime) (zone : CString) : CString :=
  "+CCLK: \"".toList ++ clockText d ++ zone ++ ['"']

variable {d : DateTime} {zone : CString}

/-- A field of two digits behind a character of the format. -/
theorem scan_field {c : Char} {n : Nat} {ds : List Directive} (hc : isSpace c = false)
    (hn : n < 100) (t : List Char) :
    scan (plain [c] ++ .int 2 :: ds) (c :: (pad0 2 (udec n) ++ t)) = .int n :: scan ds t := by
  have hskip : scan (plain [c] ++ .int 2 :: ds) ([c] ++ (pad0 2 (udec n) ++ t)) =
      scan (.int 2 :: ds) (pad0 2 (udec n) ++ t) := scan_plain (by simpa using hc) _
  rw [List.singleton_append] at hskip
  rw [hskip, scan_int (by decide) hn]

/-- The six fields are converted, whatever stands behind them. -/
theorem scan_clockText (hyear : 2000 ≤ d.year ∧ d.year ≤ 2099) (t : List Char) :
    scan cclkFormat ("+CCLK: \"".toList ++ (clockText d ++ t)) =
      [.int (d.year - 2000 : Nat), .int d.month, .int d.day, .int d.hour, .int d.minute,
        .int d.second] := by
  have hday : d.day ≤ 31 := d.day_range.2.trans (daysInMonth_le _ _)
  have hmonth := d.month_range
  have hhour := d.hour_range
  have hminute := d.minute_range
  have hsecond := d.second_range
  have hquote : ∀ u : List Char, ∀ c ∈ ('"' :: u).head?, isSpace c = false := by
    rintro u c ⟨⟩
    rfl
  have hhead : ∀ ds u, scan (plain "+CCLK: \"".toList ++ ds) ("+CCLK: \"".toList ++ u) =
      scan (plain ['"'] ++ ds) ('"' :: u) := fun ds u =>
    show scan (plain "+CCLK:".toList ++ .space :: (plain ['"'] ++ ds))
      ("+CCLK:".toList ++ ' ' :: '"' :: u) = _ from
        scan_heading (by simp [isSpace]) (hquote u)
  simp only [clockText, List.append_assoc, List.cons_append]
  rw [cclkFormat, hhead, scan_field (by decide) (by omega)]
  show .int _ :: scan (plain ['/'] ++ _) _ = _
  rw [scan_field (by decide) (by omega)]
  show .int _ :: .int _ :: scan (plain ['/'] ++ _) _ = _
  rw [scan_field (by decide) (by omega)]
  show .int _ :: .int _ :: .int _ :: scan (plain [','] ++ _) _ = _
  rw [scan_field (by decide) (by omega)]
  show .int _ :: .int _ :: .int _ :: .int _ :: scan (plain [':'] ++ _) _ = _
  rw [scan_field (by decide) (by omega)]
  show .int _ :: .int _ :: .int _ :: .int _ :: .int _ :: scan (plain [':'] ++ _) _ = _
  rw [scan_field (by decide) (by omega), scan_plain_end]

/-- The weekday is not used. -/
theorem makeTime_wday (tm : Elements) (wday : U8) :
    makeTime { tm with wday := wday } = makeTime tm :=
  rfl

/-- The fields of a date up to 2099 are read back from the modem's line; a year 01 means a clock
    that was never set. -/
theorem rtcRead_clockLine (hyear : 2000 ≤ d.year ∧ d.year ≤ 2099) (tm : Elements) {r : Receipt}
    (hok : r.ok = true) {t : List Char} (htext : cstr r.buf = clockLine d zone ++ t) :
    rtcRead tm r = if d.year = 2001 then none
      else some { Elements.ofDateTime d with wday := tm.wday } := by
  have hscan := scan_clockText hyear (zone ++ ['"'] ++ t)
  have hline : clockLine d zone ++ t =
      "+CCLK: \"".toList ++ (clockText d ++ (zone ++ ['"'] ++ t)) := by
    have hassoc : ∀ a b c e : List Char,
        a ++ b ++ c ++ ['"'] ++ e = a ++ (b ++ (c ++ ['"'] ++ e)) := by
      intro a b c e
      simp only [List.append_assoc]
    exact hassoc _ _ _ _
  have hbyte : (BitVec.ofNat 8 (d.year - 2000)).toNat = d.year - 2000 := by
    rw [BitVec.toNat_ofNat, Nat.mod_eq_of_lt (by omega)]
  have hone : BitVec.ofNat 8 (d.year - 2000) = 1 ↔ d.year = 2001 := by
    rw [← BitVec.toNat_inj, hbyte, show (1 : U8).toNat = 1 from rfl]
    omega
  have hyear' : y2kYearToTm (BitVec.ofNat 8 (d.year - 2000)) = BitVec.ofNat 8 (d.year - 1970) := by
    rw [y2kYearToTm, show (30 : U8) = BitVec.ofNat 8 30 from rfl, ← BitVec.ofNat_add]
    exact congrArg (BitVec.ofNat 8) (by omega)
  rw [rtcRead, if_pos hok, htext, hline, hscan]
  simp only [BitVec.ofInt_natCast, hone, hyear']
  rfl

/-- The clock of the modem in seconds, whatever the time zone behind it: the time that breaks into
    the fields of its date. -/
theorem rtcGet_reply (hyear : 2000 ≤ d.year ∧ d.year ≤ 2099) (hzone : Clean zone)
    (hlen : zone.length ≤ 40) (tm : Elements)
    (h : Arrives defaultWait (answer (clockLine d zone)) later sights)
    (hwraps : ¬ Wraps start defaultWait sights) :
    rtcGet tm buf start sights =
      if d.year = 2001 then some 0 else makeTime (Elements.ofDateTime d) := by
  have hdigits : ∀ w n, Clean (pad0 w (udec n)) := fun w n =>
    clean_of_digits fun c hc => isDigit_pad0 hc
  have htwo : ∀ n < 100, (pad0 2 (udec n)).length = 2 := fun n hn => length_pad0 (by decide) hn
  have hday : d.day ≤ 31 := d.day_range.2.trans (daysInMonth_le _ _)
  have hmonth := d.month_range
  have hhour := d.hour_range
  have hminute := d.minute_range
  have hsecond := d.second_range
  have hfield : ∀ c, Clean [c] → ∀ u, Clean u → Clean (c :: u) := fun c hc u hu => hc.append hu
  have htext : Clean (clockText d) := by
    have hslash : Clean ['/'] := by decide
    have hcomma : Clean [','] := by decide
    have hcolon : Clean [':'] := by decide
    exact (((((hdigits _ _).append (hfield _ hslash _ (hdigits _ _))).append
      (hfield _ hslash _ (hdigits _ _))).append (hfield _ hcomma _ (hdigits _ _))).append
        (hfield _ hcolon _ (hdigits _ _))).append (hfield _ hcolon _ (hdigits _ _))
  have hclean : Clean (clockLine d zone) :=
    ((Clean.append (by decide) htext).append hzone).append (by decide)
  have hshort : (clockLine d zone).length < 90 := by
    have hclock : (clockText d).length = 17 := by
      simp only [clockText, List.length_append, List.length_cons, htwo (d.year - 2000) (by omega),
        htwo d.month (by omega), htwo d.day (by omega), htwo d.hour (by omega),
        htwo d.minute (by omega), htwo d.second (by omega)]
    have hhead : "+CCLK: \"".toList.length = 8 := by decide
    show ("+CCLK: \"".toList ++ clockText d ++ zone ++ ['"']).length < 90
    rw [List.length_append, List.length_append, List.length_append, hhead, hclock,
      List.length_singleton]
    omega
  obtain ⟨r, hr, hok, hbuf, -⟩ := atCommandDefault_answer buf hclean hshort h hwraps
  rw [rtcGet]
  show (atCommandDefault buf start sights).bind _ = _
  rw [hr, Option.bind_some, rtcRead_clockLine hyear tm hok hbuf]
  by_cases hset : d.year = 2001
  · rw [if_pos hset, if_pos hset]
  · rw [if_neg hset, if_neg hset]
    exact makeTime_wday _ _

end SerialPort

end Waterbox
