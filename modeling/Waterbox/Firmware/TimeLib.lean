import Waterbox.Firmware.Settings
import Waterbox.Lib.Blocks
import Waterbox.Lib.Calendar
import Mathlib.Tactic.IntervalCases
import Mathlib.Tactic.Ring

namespace Waterbox

/-!
# `Time.cpp`

The conversions of the Time library between seconds since 1970 in 32 bits and calendar fields of
one byte each, and the cache of fields behind `hour(t)`, `year(t)` and their like.

* `makeTime_eq` — the seconds `makeTime` adds up, loop by loop.
* `breakTime_eq` — the loops of `breakTime` find the year and the month of a day.
* `calendar_round_trip` — each undoes the other, on every 32-bit time and on every valid date that
  has one.
* `calendarText_eq` — six reads through the cache give the fields of one time.
-/

namespace TimeLib

/-- `tmElements_t`; the year is an offset from 1970. -/
structure Elements where
  second : U8
  minute : U8
  hour : U8
  wday : U8
  day : U8
  month : U8
  year : U8
deriving DecidableEq

/-- `SECS_PER_DAY`. -/
def secsPerDay : U32 := 86400
/-- `SECS_PER_HOUR`. -/
def secsPerHour : U32 := 3600
/-- `SECS_PER_MIN`. -/
def secsPerMin : U32 := 60

/-- `LEAP_YEAR(Y)`. -/
def leapYear (y : Nat) : Bool :=
  0 < 1970 + y && (1970 + y) % 4 = 0 && ((1970 + y) % 100 ≠ 0 || (1970 + y) % 400 = 0)

/-- The days of the year 1970 + `y`. -/
def yearDays (y : Nat) : Nat := if leapYear y then 366 else 365

/-- `monthDays`, from January on. -/
def monthDays : List Nat := [31, 28, 31, 30, 31, 30, 31, 31, 30, 31, 30, 31]

/-! ### `makeTime` -/

/-- `for (i = 0; i < tm.Year; i++)`: a day for each leap year. -/
def addLeapDays (year : Nat) (seconds : U32) : U32 :=
  (List.range year).foldl (fun s i => if leapYear i then s + secsPerDay else s) seconds

/-- One round of `for (i = 1; i < tm.Month; i++)`; `none` is a read behind `monthDays`. -/
def addMonth (year : Nat) (seconds : U32) (i : Nat) : Option U32 :=
  if i = 2 && leapYear year then some (seconds + secsPerDay * 29)
  else monthDays[i - 1]?.map fun days => seconds + secsPerDay * BitVec.ofNat 32 days

/-- Years, then months, then days and the time of day; no value where `monthDays` has no entry. -/
def makeTime (tm : Elements) : Option U32 := do
  let seconds := tm.year.setWidth 32 * (secsPerDay * 365)
  let seconds := addLeapDays tm.year.toNat seconds
  let seconds ← (List.range' 1 (tm.month.toNat - 1)).foldlM (addMonth tm.year.toNat) seconds
  let seconds := seconds + (tm.day.setWidth 32 - 1) * secsPerDay
  let seconds := seconds + tm.hour.setWidth 32 * secsPerHour
  let seconds := seconds + tm.minute.setWidth 32 * secsPerMin
  some (seconds + tm.second.setWidth 32)

/-! ### `breakTime` -/

/-- `while ((unsigned)(days += …) <= time) year++`: the year of the day number `time`, and the
    days to the end of that year.  `unsigned` has 16 bits. -/
def breakYears (time : Nat) : Nat → Nat → Nat → Option (Nat × Nat)
  | 0, _, _ => none
  | fuel + 1, year, days =>
    let days := (days + yearDays year) % 2 ^ 32
    if days % 2 ^ 16 ≤ time then breakYears time fuel ((year + 1) % 2 ^ 8) days
    else some (year, days)

/-- The days of a month, counted from 0 as the loop of `breakTime` does. -/
def monthLength (year month : Nat) : Nat :=
  if month = 1 then if leapYear year then 29 else 28 else monthDays.getD month 0

/-- The years are taken off first, then the months. -/
def breakTime (timeInput : U32) : Option Elements := do
  let time := timeInput.toNat
  let second := time % 60
  let time := time / 60
  let minute := time % 60
  let time := time / 60
  let hour := time % 24
  let time := time / 24
  let wday := (time + 4) % 7 + 1
  let (year, days) ← breakYears time 256 0 0
  let time := time - (days - yearDays year)
  -- `for (month=0; month<12; month++)` takes the months away one by one
  let (month, time) := Blocks.locate (monthLength year) 12 0 time
  some
    { second := BitVec.ofNat 8 second
      minute := BitVec.ofNat 8 minute
      hour := BitVec.ofNat 8 hour
      wday := BitVec.ofNat 8 wday
      day := BitVec.ofNat 8 (time + 1)
      month := BitVec.ofNat 8 (month + 1)
      year := BitVec.ofNat 8 year }

/-! ### What the fields stand for -/

namespace Elements

/-- The days from the first of January 1970 to a date. -/
def days (tm : Elements) : Nat :=
  Blocks.below yearDays tm.year.toNat +
    Blocks.below (monthLength tm.year.toNat) (tm.month.toNat - 1) + (tm.day.toNat - 1)

/-- The seconds from 1970 to a date and time. -/
def total (tm : Elements) : Nat :=
  tm.days * 86400 + tm.hour.toNat * 3600 + tm.minute.toNat * 60 + tm.second.toNat

/-- The fields are those of a calendar date and time, and the weekday is that of the date. -/
structure Valid (tm : Elements) : Prop where
  month : 1 ≤ tm.month.toNat ∧ tm.month.toNat ≤ 12
  day : 1 ≤ tm.day.toNat ∧ tm.day.toNat ≤ monthLength tm.year.toNat (tm.month.toNat - 1)
  hour : tm.hour.toNat < 24
  minute : tm.minute.toNat < 60
  second : tm.second.toNat < 60
  wday : tm.wday.toNat = (tm.days + 4) % 7 + 1

end Elements

/-! ### The lengths of years and months -/

theorem yearDays_le (y : Nat) : 365 ≤ yearDays y ∧ yearDays y ≤ 366 := by
  unfold yearDays
  split_ifs <;> omega

/-- The days before a year lie between those of common and those of leap years only. -/
theorem below_yearDays (y : Nat) :
    365 * y ≤ Blocks.below yearDays y ∧ Blocks.below yearDays y ≤ 366 * y := by
  induction y with
  | zero => exact ⟨Nat.le_refl 0, Nat.le_refl 0⟩
  | succ y ih =>
    have h := yearDays_le y
    rw [Blocks.below_succ]
    omega

/-- The twelve months make up the year. -/
theorem below_monthLength (y : Nat) : Blocks.below (monthLength y) 12 = yearDays y := by
  simp only [Blocks.below, Finset.sum_range_succ, Finset.sum_range_zero, monthLength, yearDays,
    monthDays]
  cases leapYear y <;> rfl

theorem monthLength_le (y m : Nat) : monthLength y m ≤ 31 := by
  unfold monthLength
  split_ifs
  · omega
  · omega
  · rcases Nat.lt_or_ge m 12 with hm | hm
    · interval_cases m <;> decide
    · rw [List.getD_eq_getElem?_getD, List.getElem?_eq_none hm]
      exact Nat.zero_le 31

/-! ### The loops of `makeTime` -/

theorem ofNat_secsPerDay (n : Nat) :
    secsPerDay * BitVec.ofNat 32 n = BitVec.ofNat 32 (n * 86400) := by
  rw [Nat.mul_comm, BitVec.ofNat_mul]
  rfl

/-- The loop over the leap years adds up the days before the year. -/
theorem addLeapDays_eq (y c : Nat) :
    addLeapDays y (BitVec.ofNat 32 (y * 365 * 86400 + c)) =
      BitVec.ofNat 32 (Blocks.below yearDays y * 86400 + c) := by
  induction y generalizing c with
  | zero => rfl
  | succ y ih =>
    have hstart : (y + 1) * 365 * 86400 + c = y * 365 * 86400 + (365 * 86400 + c) := by ring
    rw [addLeapDays, List.range_succ, List.foldl_append, ← addLeapDays, hstart, ih,
      Blocks.below_succ]
    simp only [List.foldl_cons, List.foldl_nil, yearDays]
    cases leapYear y with
    | true =>
      rw [if_pos rfl, if_pos rfl, show secsPerDay = BitVec.ofNat 32 86400 from rfl,
        ← BitVec.ofNat_add]
      exact congrArg (BitVec.ofNat 32) (by ring)
    | false =>
      rw [if_neg Bool.false_ne_true, if_neg Bool.false_ne_true]
      exact congrArg (BitVec.ofNat 32) (by ring)

/-- One round of the loop over the months. -/
theorem addMonth_eq {y m : Nat} (hm : m < 12) (seconds : U32) :
    addMonth y seconds (m + 1) =
      some (seconds + BitVec.ofNat 32 (monthLength y m * 86400)) := by
  rw [addMonth, monthLength]
  by_cases hfeb : m = 1
  · subst hfeb
    cases leapYear y <;> rfl
  · have hlt : m < monthDays.length := hm
    rw [if_neg (by simp [hfeb]), if_neg hfeb, Nat.add_sub_cancel, List.getElem?_eq_getElem hlt,
      List.getD_eq_getElem?_getD, List.getElem?_eq_getElem hlt, Option.map_some,
      Option.getD_some, ofNat_secsPerDay]

/-- And all of them. -/
theorem addMonths_eq {y n : Nat} (hn : n ≤ 12) (c : Nat) :
    (List.range' 1 n).foldlM (addMonth y) (BitVec.ofNat 32 c) =
      some (BitVec.ofNat 32 (Blocks.below (monthLength y) n * 86400 + c)) := by
  induction n with
  | zero =>
    rw [Blocks.below_zero, Nat.zero_mul, Nat.zero_add]
    rfl
  | succ n ih =>
    have hlast : List.range' 1 (n + 1) = List.range' 1 n ++ [n + 1] := by
      rw [List.range'_concat, Nat.one_mul, Nat.add_comm]
    rw [hlast, List.foldlM_append, ih (by omega)]
    show addMonth y _ (n + 1) >>= pure = _
    rw [bind_pure, addMonth_eq (by omega), ← BitVec.ofNat_add, Blocks.below_succ]
    exact congrArg (some ∘ BitVec.ofNat 32) (by ring)

/-- `makeTime` of a valid date and time adds up its seconds, modulo `2 ^ 32`. -/
theorem makeTime_eq {tm : Elements} (h : tm.Valid) :
    makeTime tm = some (BitVec.ofNat 32 tm.total) := by
  obtain ⟨⟨hmonth, hmonth'⟩, ⟨hday, -⟩, -, -, -, -⟩ := h
  have hyear : tm.year.setWidth 32 * (secsPerDay * 365) =
      BitVec.ofNat 32 (tm.year.toNat * 365 * 86400 + 0) := by
    rw [← BitVec.ofNat_toNat, show secsPerDay * 365 = BitVec.ofNat 32 (365 * 86400) from rfl,
      ← BitVec.ofNat_mul, Nat.add_zero, Nat.mul_assoc]
  have hdays : (tm.day.setWidth 32 - 1) * secsPerDay =
      BitVec.ofNat 32 ((tm.day.toNat - 1) * 86400) := by
    have hone : tm.day.setWidth 32 = BitVec.ofNat 32 (tm.day.toNat - 1) + 1 := by
      rw [← BitVec.ofNat_toNat, show (1 : U32) = BitVec.ofNat 32 1 from rfl, ← BitVec.ofNat_add,
        Nat.sub_add_cancel hday]
    rw [hone, BitVec.add_sub_cancel, BitVec.mul_comm, ofNat_secsPerDay]
  have hhour : tm.hour.setWidth 32 * secsPerHour = BitVec.ofNat 32 (tm.hour.toNat * 3600) := by
    rw [← BitVec.ofNat_toNat, BitVec.ofNat_mul]
    rfl
  have hminute : tm.minute.setWidth 32 * secsPerMin = BitVec.ofNat 32 (tm.minute.toNat * 60) := by
    rw [← BitVec.ofNat_toNat, BitVec.ofNat_mul]
    rfl
  have hsecond : tm.second.setWidth 32 = BitVec.ofNat 32 tm.second.toNat :=
    (BitVec.ofNat_toNat _ _).symm
  simp only [makeTime, hyear, addLeapDays_eq, addMonths_eq (by omega : tm.month.toNat - 1 ≤ 12),
    hdays, hhour, hminute, hsecond, ← BitVec.ofNat_add, Option.bind_eq_bind, Option.bind_some]
  have htotal : tm.total =
      Blocks.below (monthLength tm.year.toNat) (tm.month.toNat - 1) * 86400 +
        (Blocks.below yearDays tm.year.toNat * 86400 + 0) + (tm.day.toNat - 1) * 86400 +
          tm.hour.toNat * 3600 + tm.minute.toNat * 60 + tm.second.toNat := by
    rw [Elements.total, Elements.days]
    ring
  rw [htotal]

/-! ### The loops of `breakTime` -/

/-- The loop over the years stops at the year of the day; the sums stay below `2 ^ 16`, so that the
    cast to `unsigned` loses nothing. -/
theorem breakYears_eq {time fuel k y : Nat} (htime : time < 49711) (hk : k ≤ y)
    (hfuel : y - k < fuel)
    (hlow : Blocks.below yearDays y ≤ time) (hhigh : time < Blocks.below yearDays (y + 1)) :
    breakYears time fuel k (Blocks.below yearDays k) =
      some (y, Blocks.below yearDays (y + 1)) := by
  induction fuel generalizing k with
  | zero => omega
  | succ fuel ih =>
    have hy := below_yearDays y
    have hnext : Blocks.below yearDays (k + 1) ≤ Blocks.below yearDays (y + 1) :=
      Blocks.below_mono (by omega)
    have hsmall : Blocks.below yearDays (y + 1) < 2 ^ 16 := by
      have := (below_yearDays (y + 1)).2
      omega
    simp only [breakYears, ← Blocks.below_succ]
    rw [Nat.mod_eq_of_lt (by omega : Blocks.below yearDays (k + 1) < 2 ^ 32),
      Nat.mod_eq_of_lt (by omega : Blocks.below yearDays (k + 1) < 2 ^ 16)]
    by_cases heq : k = y
    · subst heq
      rw [if_neg (by omega)]
    · have hle : Blocks.below yearDays (k + 1) ≤ Blocks.below yearDays y :=
        Blocks.below_mono (by omega)
      rw [if_pos (hle.trans hlow), Nat.mod_eq_of_lt (by omega), ih (by omega) (by omega)]

/-- `breakTime` of the seconds of a valid date and time gives its fields. -/
theorem breakTime_eq {tm : Elements} (h : tm.Valid) (hlt : tm.total < 2 ^ 32) :
    breakTime (BitVec.ofNat 32 tm.total) = some tm := by
  obtain ⟨second, minute, hour, wday, day, month, year⟩ := tm
  obtain ⟨⟨hmonth, hmonth'⟩, ⟨hday, hday'⟩, hhour, hminute, hsecond, hwday⟩ := h
  generalize hd : Elements.days ⟨second, minute, hour, wday, day, month, year⟩ = days at hwday
  have htotal : Elements.total ⟨second, minute, hour, wday, day, month, year⟩ =
      days * 86400 + hour.toNat * 3600 + minute.toNat * 60 + second.toNat := by
    rw [Elements.total, hd]
  rw [htotal] at hlt
  simp only [Elements.days] at hd hmonth hmonth' hday hday' hhour hminute hsecond hwday
  -- the day of the year lies in the months before, or in this one
  have hinyear : Blocks.below (monthLength year.toNat) (month.toNat - 1) + (day.toNat - 1) <
      yearDays year.toNat := by
    have hle : Blocks.below (monthLength year.toNat) (month.toNat - 1 + 1) ≤
        Blocks.below (monthLength year.toNat) 12 := Blocks.below_mono (by omega)
    rw [Blocks.below_succ, below_monthLength] at hle
    omega
  have hyears : breakYears days 256 0 0 =
      some (year.toNat, Blocks.below yearDays (year.toNat + 1)) := by
    have hbound := below_yearDays year.toNat
    apply breakYears_eq (by omega) (Nat.zero_le _) (by omega) (by omega)
    rw [Blocks.below_succ]
    omega
  have hmonths : Blocks.locate (monthLength year.toNat) 12 0
      (Blocks.below (monthLength year.toNat) (month.toNat - 1) + (day.toNat - 1)) =
        (month.toNat - 1, day.toNat - 1) := by
    have := Blocks.locate_eq (Nat.zero_le _) (by omega : month.toNat - 1 - 0 < 12)
      (by omega : day.toNat - 1 < monthLength year.toNat (month.toNat - 1))
    rwa [Blocks.below_zero, Nat.sub_zero] at this
  have hrest : days - (Blocks.below yearDays (year.toNat + 1) - yearDays year.toNat) =
      Blocks.below (monthLength year.toNat) (month.toNat - 1) + (day.toNat - 1) := by
    rw [Blocks.below_succ]
    omega
  rw [htotal]
  simp only [breakTime, BitVec.toNat_ofNat, Nat.mod_eq_of_lt hlt]
  rw [show (days * 86400 + hour.toNat * 3600 + minute.toNat * 60 + second.toNat) / 60 / 60 / 24 =
    days by omega, hyears]
  simp only [Option.bind_eq_bind, Option.bind_some, hrest, hmonths]
  rw [show (days * 86400 + hour.toNat * 3600 + minute.toNat * 60 + second.toNat) % 60 =
      second.toNat by omega,
    show (days * 86400 + hour.toNat * 3600 + minute.toNat * 60 + second.toNat) / 60 % 60 =
      minute.toNat by omega,
    show (days * 86400 + hour.toNat * 3600 + minute.toNat * 60 + second.toNat) / 60 / 60 % 24 =
      hour.toNat by omega, Nat.sub_add_cancel hday, Nat.sub_add_cancel hmonth, ← hwday]
  simp only [BitVec.ofNat_toNat, BitVec.setWidth_eq]

/-- Every 32-bit time is the time of a valid date. -/
theorem exists_total (t : U32) : ∃ tm : Elements, tm.Valid ∧ tm.total = t.toNat := by
  have ht := t.isLt
  have hlong : t.toNat / 86400 < Blocks.below yearDays 137 := by
    have := (below_yearDays 137).1
    omega
  obtain ⟨y, hy, r, hr, hyear⟩ := Blocks.exists_block hlong
  rw [← below_monthLength] at hr
  obtain ⟨m, hm, q, hq, hmonth⟩ := Blocks.exists_block hr
  have hlen := monthLength_le y m
  have hbyte : ∀ n < 256, (BitVec.ofNat 8 n).toNat = n := fun n hn => by
    rw [BitVec.toNat_ofNat, Nat.mod_eq_of_lt hn]
  let tm : Elements :=
    { second := BitVec.ofNat 8 (t.toNat % 60)
      minute := BitVec.ofNat 8 (t.toNat / 60 % 60)
      hour := BitVec.ofNat 8 (t.toNat / 3600 % 24)
      wday := BitVec.ofNat 8 ((t.toNat / 86400 + 4) % 7 + 1)
      day := BitVec.ofNat 8 (q + 1)
      month := BitVec.ofNat 8 (m + 1)
      year := BitVec.ofNat 8 y }
  have hyearNat : tm.year.toNat = y := hbyte y (by omega)
  have hmonthNat : tm.month.toNat = m + 1 := hbyte (m + 1) (by omega)
  have hdayNat : tm.day.toNat = q + 1 := hbyte (q + 1) (by omega)
  have hhourNat : tm.hour.toNat = t.toNat / 3600 % 24 := hbyte _ (by omega)
  have hminuteNat : tm.minute.toNat = t.toNat / 60 % 60 := hbyte _ (by omega)
  have hsecondNat : tm.second.toNat = t.toNat % 60 := hbyte _ (by omega)
  have hdays : tm.days = t.toNat / 86400 := by
    rw [Elements.days, hyearNat, hmonthNat, hdayNat, Nat.add_sub_cancel, Nat.add_sub_cancel]
    omega
  refine ⟨tm, ⟨?_, ?_, ?_, ?_, ?_, ?_⟩, ?_⟩
  · omega
  · rw [hyearNat, hmonthNat, hdayNat, Nat.add_sub_cancel]
    omega
  · omega
  · omega
  · omega
  · rw [hdays]
    exact hbyte _ (by omega)
  · rw [Elements.total, hdays, hhourNat, hminuteNat, hsecondNat]
    omega

/-- Every 32-bit time breaks into a valid date that makes the time again, and every valid date
    before 2106-02-07 06:28:16 makes a time that breaks into the date again. -/
theorem calendar_round_trip :
    (∀ t : U32, ∃ tm : Elements, tm.Valid ∧ breakTime t = some tm ∧ makeTime tm = some t) ∧
    ∀ tm : Elements, tm.Valid → tm.total < 2 ^ 32 →
      ∃ t : U32, makeTime tm = some t ∧ t.toNat = tm.total ∧ breakTime t = some tm := by
  constructor
  · intro t
    obtain ⟨tm, hvalid, htotal⟩ := exists_total t
    have hback : BitVec.ofNat 32 tm.total = t := by
      rw [htotal, BitVec.ofNat_toNat, BitVec.setWidth_eq]
    have hlt : tm.total < 2 ^ 32 := htotal ▸ t.isLt
    exact ⟨tm, hvalid, hback ▸ breakTime_eq hvalid hlt, hback ▸ makeTime_eq hvalid⟩
  · intro tm hvalid hlt
    have htoNat : (BitVec.ofNat 32 tm.total).toNat = tm.total := by
      rw [BitVec.toNat_ofNat, Nat.mod_eq_of_lt hlt]
    exact ⟨BitVec.ofNat 32 tm.total, makeTime_eq hvalid, htoNat, breakTime_eq hvalid hlt⟩

/-! ### Calendar times -/

/-- The macro `LEAP_YEAR` is the rule of the calendar, years being counted from 1970. -/
theorem isLeap_eq (y : Nat) : isLeap (y + 1970) = leapYear y := by
  simp [isLeap, leapYear, Nat.add_comm y]

/-- And its months have their days. -/
theorem daysInMonth_eq {y m : Nat} (h : 1 ≤ m ∧ m ≤ 12) :
    daysInMonth (y + 1970) m = monthLength y (m - 1) := by
  obtain ⟨hlow, hhigh⟩ := h
  rw [daysInMonth, monthLength, isLeap_eq]
  interval_cases m <;> rfl

/-- The calendar time of valid fields. -/
def Elements.dateTime (tm : Elements) (h : tm.Valid) : DateTime where
  year := tm.year.toNat + 1970
  month := tm.month.toNat
  day := tm.day.toNat
  hour := tm.hour.toNat
  minute := tm.minute.toNat
  second := tm.second.toNat
  year_range := by have := tm.year.isLt; omega
  month_range := h.month
  day_range := by rw [daysInMonth_eq h.month]; exact h.day
  hour_range := h.hour
  minute_range := h.minute
  second_range := h.second

/-- The fields of a calendar time, in bytes. -/
def Elements.ofDateTime (d : DateTime) : Elements :=
  let tm : Elements :=
    { second := BitVec.ofNat 8 d.second
      minute := BitVec.ofNat 8 d.minute
      hour := BitVec.ofNat 8 d.hour
      wday := 0
      day := BitVec.ofNat 8 d.day
      month := BitVec.ofNat 8 d.month
      year := BitVec.ofNat 8 (d.year - 1970) }
  { tm with wday := BitVec.ofNat 8 ((tm.days + 4) % 7 + 1) }

section Bytes

variable {d : DateTime} (h : 1970 ≤ d.year ∧ d.year ≤ 2099)

include h in
/-- The bytes of a date hold its fields. -/
theorem toNat_ofDateTime :
    (Elements.ofDateTime d).year.toNat + 1970 = d.year ∧
      (Elements.ofDateTime d).month.toNat = d.month ∧ (Elements.ofDateTime d).day.toNat = d.day ∧
      (Elements.ofDateTime d).hour.toNat = d.hour ∧
      (Elements.ofDateTime d).minute.toNat = d.minute ∧
      (Elements.ofDateTime d).second.toNat = d.second := by
  have hbyte : ∀ n < 256, (BitVec.ofNat 8 n).toNat = n := fun n hn => by
    rw [BitVec.toNat_ofNat, Nat.mod_eq_of_lt hn]
  have hday : d.day ≤ 31 := d.day_range.2.trans (daysInMonth_le _ _)
  have hmonth := d.month_range
  have hhour := d.hour_range
  have hminute := d.minute_range
  have hsecond := d.second_range
  refine ⟨?_, hbyte _ (by omega), hbyte _ (by omega), hbyte _ (by omega), hbyte _ (by omega),
    hbyte _ (by omega)⟩
  rw [show (Elements.ofDateTime d).year = BitVec.ofNat 8 (d.year - 1970) from rfl,
    hbyte _ (by omega)]
  omega

include h in
/-- The elements of a date up to 2099 are valid. -/
theorem valid_ofDateTime : (Elements.ofDateTime d).Valid := by
  obtain ⟨hyear, hmonth, hday, hhour, hminute, hsecond⟩ := toNat_ofDateTime h
  refine ⟨hmonth ▸ d.month_range, ?_, hhour ▸ d.hour_range, hminute ▸ d.minute_range,
    hsecond ▸ d.second_range, ?_⟩
  · rw [hday, hmonth, ← daysInMonth_eq d.month_range, hyear]
    exact d.day_range
  · show (BitVec.ofNat 8 _).toNat = _
    rw [BitVec.toNat_ofNat, Nat.mod_eq_of_lt (by omega)]
    rfl

/-- And they stand for that date. -/
theorem dateTime_ofDateTime : (Elements.ofDateTime d).dateTime (valid_ofDateTime h) = d := by
  obtain ⟨hyear, hmonth, hday, hhour, hminute, hsecond⟩ := toNat_ofDateTime h
  obtain ⟨year, month, day, hour, minute, second, _, _, _, _, _, _⟩ := d
  rw [Elements.dateTime]
  congr

include h in
/-- A date up to 2099 has a 32-bit time, and only the first second of 1970 has the time 0. -/
theorem total_ofDateTime : (Elements.ofDateTime d).total < 2 ^ 32 ∧
    (1970 < d.year → 0 < (Elements.ofDateTime d).total) := by
  obtain ⟨hyear, -, -, hhour, hminute, hsecond⟩ := toNat_ofDateTime h
  obtain ⟨hmonth, hday, -⟩ := valid_ofDateTime h
  have hyears := below_yearDays (Elements.ofDateTime d).year.toNat
  have hmonths : Blocks.below (monthLength (Elements.ofDateTime d).year.toNat)
      ((Elements.ofDateTime d).month.toNat - 1 + 1) ≤
        Blocks.below (monthLength (Elements.ofDateTime d).year.toNat) 12 :=
    Blocks.below_mono (by omega)
  have hlen := yearDays_le (Elements.ofDateTime d).year.toNat
  have hh := d.hour_range
  have hm := d.minute_range
  have hs := d.second_range
  rw [Blocks.below_succ, below_monthLength] at hmonths
  rw [Elements.total, Elements.days, hhour, hminute, hsecond]
  omega

end Bytes

/-! ### The cache -/

/-- `tm` and `cacheTime`, the library's static variables. -/
structure Cache where
  tm : Elements
  cacheTime : U32

/-- A call that may read and refresh the cache. -/
abbrev Cached : Type → Type := StateT Cache Option

/-- The variables before `setup()`. -/
def Cache.reset : Cache where
  tm := ⟨0, 0, 0, 0, 0, 0, 0⟩
  cacheTime := 0

/-- The cache is renewed where it is of another time. -/
def refreshCache (t : U32) : Cached Unit := fun c =>
  if t ≠ c.cacheTime then (breakTime t).map fun tm => ((), ⟨tm, t⟩) else some ((), c)

/-- `hour(t)`, `minute(t)`, … : a field of the refreshed cache. -/
def field (get : Elements → Nat) (t : U32) : Cached Nat := do
  refreshCache t
  let c ← StateT.get
  pure (get c.tm)

def hour : U32 → Cached Nat := field (·.hour.toNat)
def minute : U32 → Cached Nat := field (·.minute.toNat)
def second : U32 → Cached Nat := field (·.second.toNat)
def day : U32 → Cached Nat := field (·.day.toNat)
def month : U32 → Cached Nat := field (·.month.toNat)
def year : U32 → Cached Nat := field fun tm => tm.year.toNat + 1970

open Text in
/-- `"%04d-%02d-%02dT%02d:%02d:%02d"` of the six reads in `formatTimestamp`. -/
def calendarText (t : U32) : Cached CString := do
  let year ← year t
  let month ← month t
  let day ← day t
  let hour ← hour t
  let minute ← minute t
  let second ← second t
  pure (pad0 4 (udec year) ++ '-' :: pad0 2 (udec month) ++ '-' :: pad0 2 (udec day) ++
    'T' :: pad0 2 (udec hour) ++ ':' :: pad0 2 (udec minute) ++ ':' :: pad0 2 (udec second))

/-- The cache holds the fields of its time, or has not been filled. -/
def Cache.Fresh (c : Cache) : Prop := c.cacheTime = 0 ∨ breakTime c.cacheTime = some c.tm

theorem Cache.fresh_reset : Cache.reset.Fresh := .inl rfl

theorem Cache.fresh_of_breakTime {t : U32} {tm : Elements} (h : breakTime t = some tm) :
    (⟨tm, t⟩ : Cache).Fresh := .inr h

/-- A read through a fresh cache gives the field `breakTime` gives, and leaves the cache at `t`. -/
theorem field_eq (get : Elements → Nat) {t : U32} {tm : Elements} {c : Cache} (ht : t ≠ 0)
    (h : breakTime t = some tm) (hc : c.Fresh) : field get t c = some (get tm, ⟨tm, t⟩) := by
  have hrefresh : refreshCache t c = some ((), ⟨tm, t⟩) := by
    rw [refreshCache]
    by_cases heq : t = c.cacheTime
    · rw [if_neg (not_not.2 heq)]
      rcases hc with hzero | hkeeps
      · exact absurd (heq.trans hzero) ht
      · rw [← heq, h] at hkeeps
        obtain ⟨tm', t'⟩ := c
        cases hkeeps
        cases heq
        rfl
    · rw [if_pos heq, h]
      rfl
  show (refreshCache t c).bind _ = _
  rw [hrefresh]
  rfl

/-- The six reads of a time are fields of one calendar time, whatever the cache held before. -/
theorem calendarText_eq {t : U32} {tm : Elements} {c : Cache} (ht : t ≠ 0)
    (h : breakTime t = some tm) (hvalid : tm.Valid) (hc : c.Fresh) :
    calendarText t c = some ((tm.dateTime hvalid).iso, ⟨tm, t⟩) := by
  have hfresh := Cache.fresh_of_breakTime h
  simp only [calendarText, year, month, day, hour, minute, second, StateT.bind, bind, Option.bind,
    field_eq _ ht h hc, field_eq _ ht h hfresh]
  rfl

end TimeLib

end Waterbox
