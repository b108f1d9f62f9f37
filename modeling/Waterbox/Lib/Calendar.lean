import Waterbox.Lib.Decimal

namespace Waterbox

/-!
# Calendar times and their texts

A `DateTime` is a time of the Gregorian calendar; one with a thirteenth month cannot be built.
`iso` writes `YYYY-MM-DDTHH:MM:SS`; `strptime` reads such a text with the patterns of Python's
`datetime.strptime`, which also admit fields of one digit and, in some places, digits that are not
ASCII.
-/

def isLeap (year : Nat) : Bool := year % 4 = 0 && (year % 100 ≠ 0 || year % 400 = 0)

def daysInMonth (year month : Nat) : Nat :=
  if month = 2 then if isLeap year then 29 else 28
  else if month = 4 ∨ month = 6 ∨ month = 9 ∨ month = 11 then 30
  else 31

theorem daysInMonth_le (year month : Nat) : daysInMonth year month ≤ 31 := by
  unfold daysInMonth
  split_ifs <;> omega

/-- A calendar time, to the second. -/
structure DateTime where
  year : Nat
  month : Nat
  day : Nat
  hour : Nat
  minute : Nat
  second : Nat
  year_range : 1 ≤ year ∧ year ≤ 9999
  month_range : 1 ≤ month ∧ month ≤ 12
  day_range : 1 ≤ day ∧ day ≤ daysInMonth year month
  hour_range : hour < 24
  minute_range : minute < 60
  second_range : second < 60
deriving DecidableEq

namespace DateTime

open Text

/-- The calendar time with given fields, where there is one. -/
def ofFields (year month day hour minute second : Nat) : Option DateTime :=
  if h : (1 ≤ year ∧ year ≤ 9999) ∧ (1 ≤ month ∧ month ≤ 12) ∧
      (1 ≤ day ∧ day ≤ daysInMonth year month) ∧ hour < 24 ∧ minute < 60 ∧ second < 60 then
    some ⟨year, month, day, hour, minute, second, h.1, h.2.1, h.2.2.1, h.2.2.2.1, h.2.2.2.2.1,
      h.2.2.2.2.2⟩
  else none

/-- `%04d-%02d-%02dT%02d:%02d:%02d`. -/
def iso (t : DateTime) : List Char :=
  pad0 4 (udec t.year) ++ '-' :: pad0 2 (udec t.month) ++ '-' :: pad0 2 (udec t.day) ++
    'T' :: pad0 2 (udec t.hour) ++ ':' :: pad0 2 (udec t.minute) ++ ':' :: pad0 2 (udec t.second)

/-! ### `strptime` -/

/-- A character of a pattern: an ASCII digit from `lo` to `hi`, or any decimal digit. -/
inductive DigitClass where
  | range (lo hi : Nat)
  | any

section Patterns

variable (decimal : Char → Option Nat)

/-- The value of a digit; `decimal` knows those that are not ASCII. -/
def digitOf : DigitClass → Char → Option Nat
  | .range lo hi, c =>
    if c.isDigit ∧ lo ≤ c.toNat - '0'.toNat ∧ c.toNat - '0'.toNat ≤ hi then
      some (c.toNat - '0'.toNat)
    else none
  | .any, c => if c.isDigit then some (c.toNat - '0'.toNat) else decimal c

/-- The number that a row of digits writes behind `n`, and the text after it. -/
def field : List DigitClass → Nat → List Char → Option (Nat × List Char)
  | [], n, t => some (n, t)
  | _ :: _, _, [] => none
  | d :: ds, n, c :: t => (digitOf decimal d c).bind fun v => field ds (10 * n + v) t

/-- The first alternative that fits.  No later one would: no format goes on with a digit. -/
def directive (alternatives : List (List DigitClass)) (t : List Char) : Option (Nat × List Char) :=
  alternatives.findSome? fun ds => field decimal ds 0 t

end Patterns

/-- `%Y`. -/
def yearField : List (List DigitClass) := [[.any, .any, .any, .any]]

/-- `%m`. -/
def monthField : List (List DigitClass) :=
  [[.range 1 1, .range 0 2], [.range 0 0, .range 1 9], [.range 1 9]]

/-- `%d`, without the alternative that begins with a space. -/
def dayField : List (List DigitClass) :=
  [[.range 3 3, .range 0 1], [.range 1 2, .any], [.range 0 0, .range 1 9], [.range 1 9]]

/-- `%H`. -/
def hourField : List (List DigitClass) := [[.range 2 2, .range 0 3], [.range 0 1, .any], [.any]]

/-- `%M`. -/
def minuteField : List (List DigitClass) := [[.range 0 5, .any], [.any]]

/-- `%S`. -/
def secondField : List (List DigitClass) := [[.range 6 6, .range 0 1], [.range 0 5, .any], [.any]]

def dayDirective (decimal : Char → Option Nat) (t : List Char) : Option (Nat × List Char) :=
  match directive decimal dayField t with
  | some r => some r
  | none =>
    match t with
    | ' ' :: u => directive decimal [[.range 1 9]] u
    | _ => none

def literal (c : Char) : List Char → Option (List Char)
  | d :: t => if d = c then some t else none
  | [] => none

/-- The `T` of a format, which is matched without regard to case. -/
def letterT : List Char → Option (List Char)
  | 'T' :: t => some t
  | 't' :: t => some t
  | _ => none

/-- `strptime` with the format `%Y-%m-%d`, a separator and `%H:%M:%S`. -/
def strptime (decimal : Char → Option Nat) (separator : List Char → Option (List Char))
    (t : List Char) : Option DateTime := do
  let (year, t) ← directive decimal yearField t
  let t ← literal '-' t
  let (month, t) ← directive decimal monthField t
  let t ← literal '-' t
  let (day, t) ← dayDirective decimal t
  let t ← separator t
  let (hour, t) ← directive decimal hourField t
  let t ← literal ':' t
  let (minute, t) ← directive decimal minuteField t
  let t ← literal ':' t
  let (second, t) ← directive decimal secondField t
  if t.isEmpty then ofFields year month day hour minute second else none

/-! ### Reading what was written -/

section Written

variable {decimal : Char → Option Nat}

/-- A row that is shorter than the text does not look behind it. -/
theorem field_append {ds : List DigitClass} {n : Nat} {u : List Char} (h : ds.length ≤ u.length)
    (t : List Char) :
    field decimal ds n (u ++ t) = (field decimal ds n u).map fun r => (r.1, r.2 ++ t) := by
  induction ds generalizing n u with
  | nil => rfl
  | cons d ds ih =>
    cases u with
    | nil => cases h
    | cons c u =>
      rw [List.cons_append, field, field, Option.map_bind]
      exact congrArg _ (funext fun v => ih (Nat.le_of_succ_le_succ h))

theorem directive_append {alternatives : List (List DigitClass)} {u : List Char}
    (h : ∀ ds ∈ alternatives, ds.length ≤ u.length) (t : List Char) :
    directive decimal alternatives (u ++ t) =
      (directive decimal alternatives u).map fun r => (r.1, r.2 ++ t) := by
  induction alternatives with
  | nil => rfl
  | cons ds alternatives ih =>
    have ih := ih fun ds' hds' => h ds' (List.mem_cons_of_mem ds hds')
    rw [directive, directive, List.findSome?_cons, List.findSome?_cons,
      field_append (h ds List.mem_cons_self)]
    cases field decimal ds 0 u with
    | some r => rfl
    | none => exact ih

/-- In a text of ASCII digits no others count. -/
theorem field_ascii {ds : List DigitClass} {n : Nat} {u : List Char}
    (hu : ∀ c ∈ u, c.isDigit = true) :
    field decimal ds n u = field (fun _ => none) ds n u := by
  induction ds generalizing n u with
  | nil => rfl
  | cons d ds ih =>
    cases u with
    | nil => rfl
    | cons c u =>
      have hdigit : digitOf decimal d c = digitOf (fun _ => none) d c := by
        cases d with
        | range lo hi => rfl
        | any =>
          have hc := hu c List.mem_cons_self
          rw [digitOf, digitOf, if_pos hc, if_pos hc]
      rw [field, field, hdigit]
      exact congrArg _ (funext fun v => ih fun c' hc' => hu c' (List.mem_cons_of_mem c hc'))

theorem directive_ascii {alternatives : List (List DigitClass)} {u : List Char}
    (hu : ∀ c ∈ u, c.isDigit = true) :
    directive decimal alternatives u = directive (fun _ => none) alternatives u :=
  congrArg (fun f => alternatives.findSome? f) (funext fun _ => field_ascii hu)

/-- Four digits are read as the number they write. -/
theorem directive_year {n : Nat} (hn : n < 10 ^ 4) (t : List Char) :
    directive decimal yearField (pad0 4 (udec n) ++ t) = some (n, t) := by
  have hany : ∀ (u : List Char) (k : Nat), (∀ c ∈ u, c.isDigit = true) →
      field decimal (List.replicate u.length .any) k u = some (Nat.ofDigitChars 10 u k, []) := by
    intro u
    induction u with
    | nil => exact fun k _ => rfl
    | cons c u ih =>
      intro k hu
      rw [List.length_cons, List.replicate_succ, field, digitOf, if_pos (hu c List.mem_cons_self),
        Option.bind_some, ih _ fun c' hc' => hu c' (List.mem_cons_of_mem c hc')]
      rfl
  have hlen := length_pad0 (w := 4) (by decide) hn
  have hread := hany (pad0 4 (udec n)) 0 fun _ => isDigit_pad0
  rw [hlen, ofDigitChars_pad0] at hread
  have hyear : directive decimal yearField (pad0 4 (udec n)) = some (n, []) := by
    have hrow : yearField = [List.replicate 4 .any] := rfl
    rw [directive, hrow, List.findSome?_cons, hread]
  rw [directive_append (by simp [yearField, hlen]), hyear]
  rfl

/-- A field of two digits, of which all alternatives have at most two. -/
theorem directive_pad0 {alternatives : List (List DigitClass)}
    (htwo : ∀ ds ∈ alternatives, ds.length ≤ 2) {n : Nat} (hn : n < 100)
    (h : directive (fun _ => none) alternatives (pad0 2 (udec n)) = some (n, [])) (t : List Char) :
    directive decimal alternatives (pad0 2 (udec n) ++ t) = some (n, t) := by
  have hlen := length_pad0 (w := 2) (by decide) hn
  rw [directive_append (by rw [hlen]; exact htwo), directive_ascii fun _ => isDigit_pad0, h]
  rfl

end Written

theorem ofFields_fields (t : DateTime) :
    ofFields t.year t.month t.day t.hour t.minute t.second = some t :=
  dif_pos ⟨t.year_range, t.month_range, t.day_range, t.hour_range, t.minute_range, t.second_range⟩

/-- A time that was written is read back. -/
theorem strptime_iso (decimal : Char → Option Nat) (t : DateTime) :
    strptime decimal letterT t.iso = some t := by
  have hyear : t.year < 10 ^ 4 := Nat.lt_succ_of_le t.year_range.2
  have hday : t.day ≤ 31 := t.day_range.2.trans (daysInMonth_le _ _)
  have hmonths : ∀ n < 13, 1 ≤ n →
      directive (fun _ => none) monthField (pad0 2 (udec n)) = some (n, []) := by decide +kernel
  have hdays : ∀ n < 32, 1 ≤ n →
      directive (fun _ => none) dayField (pad0 2 (udec n)) = some (n, []) := by decide +kernel
  have hhours : ∀ n < 24,
      directive (fun _ => none) hourField (pad0 2 (udec n)) = some (n, []) := by decide +kernel
  have hminutes : ∀ n < 60,
      directive (fun _ => none) minuteField (pad0 2 (udec n)) = some (n, []) := by decide +kernel
  have hseconds : ∀ n < 60,
      directive (fun _ => none) secondField (pad0 2 (udec n)) = some (n, []) := by decide +kernel
  have hmonth : ∀ u,
      directive decimal monthField (pad0 2 (udec t.month) ++ u) = some (t.month, u) :=
    directive_pad0 (by decide) (by have := t.month_range.2; omega)
      (hmonths _ (by have := t.month_range.2; omega) t.month_range.1)
  have hdayRead : ∀ u, directive decimal dayField (pad0 2 (udec t.day) ++ u) = some (t.day, u) :=
    directive_pad0 (by decide) (by omega) (hdays _ (by omega) t.day_range.1)
  have hhour : ∀ u, directive decimal hourField (pad0 2 (udec t.hour) ++ u) = some (t.hour, u) :=
    directive_pad0 (by decide) (by have := t.hour_range; omega) (hhours _ t.hour_range)
  have hminute : ∀ u, directive decimal minuteField (pad0 2 (udec t.minute) ++ u) =
      some (t.minute, u) :=
    directive_pad0 (by decide) (by have := t.minute_range; omega) (hminutes _ t.minute_range)
  have hsecond : ∀ u, directive decimal secondField (pad0 2 (udec t.second) ++ u) =
      some (t.second, u) :=
    directive_pad0 (by decide) (by have := t.second_range; omega) (hseconds _ t.second_range)
  have hlast : pad0 2 (udec t.second) = pad0 2 (udec t.second) ++ [] := (List.append_nil _).symm
  rw [strptime, iso, hlast]
  simp only [List.append_assoc, List.cons_append, Option.bind_eq_bind, dayDirective,
    directive_year hyear, hmonth, hdayRead, hhour, hminute, hsecond, Option.bind_some, literal,
    letterT, if_true, List.isEmpty_nil, ofFields_fields]

/-- The text of a time has 19 characters. -/
theorem length_iso (t : DateTime) : t.iso.length = 19 := by
  have hyear : t.year < 10 ^ 4 := Nat.lt_succ_of_le t.year_range.2
  have hday : t.day ≤ 31 := t.day_range.2.trans (daysInMonth_le _ _)
  have hmonth := t.month_range.2
  have hhour := t.hour_range
  have hminute := t.minute_range
  have hsecond := t.second_range
  have htwo : ∀ n < 100, (pad0 2 (udec n)).length = 2 := fun n hn => length_pad0 (by decide) hn
  simp only [iso, List.length_append, List.length_cons, length_pad0 (by decide : 0 < 4) hyear,
    htwo t.month (by omega), htwo t.day (by omega), htwo t.hour (by omega),
    htwo t.minute (by omega), htwo t.second (by omega)]

theorem mem_iso {t : DateTime} {c : Char} (hc : c ∈ t.iso) :
    c.isDigit = true ∨ c = '-' ∨ c = 'T' ∨ c = ':' := by
  simp only [iso, List.mem_append, List.mem_cons] at hc
  have hpad : ∀ {w n : Nat}, c ∈ pad0 w (udec n) → c.isDigit = true := fun h => isDigit_pad0 h
  tauto

end DateTime

end Waterbox
