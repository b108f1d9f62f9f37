import Waterbox.Cloud.Ingest
import Waterbox.Lib.Decimal

namespace Waterbox

namespace Cloud

/-!
# Numbers without rounding

The results about the worker hold for every number type.  Where its code is run on a given input,
the numbers are these: rationals, the two infinities, and a value that is no number.  Texts are
read as the JSON numbers they are, `float` also reads the names of the others.
-/

/-- A rational number, an infinity, or no number. -/
inductive Exact
  | finite (q : ℚ)
  | infinity (neg : Bool)
  | nan
deriving DecidableEq

namespace Exact

/-- Whether a number that is not NaN is negative. -/
def isNeg : Exact → Bool
  | finite q => q < 0
  | infinity neg => neg
  | nan => false

def add : Exact → Exact → Exact
  | finite p, finite q => finite (p + q)
  | infinity a, infinity b => if a = b then infinity a else nan
  | infinity a, finite _ => infinity a
  | finite _, infinity b => infinity b
  | _, _ => nan

def mul : Exact → Exact → Exact
  | finite p, finite q => finite (p * q)
  | nan, _ => nan
  | _, nan => nan
  | x, y =>
    if x = finite 0 ∨ y = finite 0 then nan else infinity (xor x.isNeg y.isNeg)

def div : Exact → Exact → Exact
  | finite p, finite q => finite (p / q)
  | infinity a, finite q => infinity (xor a (decide (q < 0)))
  | finite _, infinity _ => finite 0
  | _, _ => nan

def lt : Exact → Exact → Bool
  | finite p, finite q => p < q
  | infinity true, finite _ => true
  | finite _, infinity false => true
  | infinity true, infinity false => true
  | _, _ => false

/-- The opposite of a number. -/
def neg : Exact → Exact
  | finite q => finite (-q)
  | infinity a => infinity (!a)
  | nan => nan

def abs (x : Exact) : Exact := if x.isNeg then x.neg else x

/-- The first terms of the series of sine, cosine and arctangent. -/
def sinSeries (q : ℚ) : ℚ := q - q ^ 3 / 6 + q ^ 5 / 120

def cosSeries (q : ℚ) : ℚ := 1 - q ^ 2 / 2 + q ^ 4 / 24

def atanSeries (q : ℚ) : ℚ :=
  if |q| ≤ 1 then q - q ^ 3 / 3 + q ^ 5 / 5
  else (if q < 0 then -1 else 1) * (355 / 226) - (1 / q - (1 / q) ^ 3 / 3 + (1 / q) ^ 5 / 5)

/-- The square root to twelve decimals. -/
def sqrt (q : ℚ) : ℚ := Nat.sqrt (q * 10 ^ 24).floor.toNat / 10 ^ 12

def hypot : Exact → Exact → Exact
  | finite p, finite q => finite (sqrt (p ^ 2 + q ^ 2))
  | infinity _, _ => infinity false
  | _, infinity _ => infinity false
  | _, _ => nan

/-- Infinite arguments do not occur where this is run. -/
def atan2 : Exact → Exact → Exact
  | finite y, finite x =>
    finite
      (if 0 < x then atanSeries (y / x)
       else if x < 0 then atanSeries (y / x) + (if y < 0 then -1 else 1) * (355 / 113)
       else if y = 0 then 0
       else (if y < 0 then -1 else 1) * (355 / 226))
  | _, _ => nan

def trunc : Exact → Option Int
  | finite q => some (q.num.tdiv q.den)
  | _ => none

/-- The integer next to a number, ties to even. -/
def rint : Exact → Option Int
  | finite q =>
    let n := q.floor
    some (if q - n < 1 / 2 ∨ (q - n = 1 / 2 ∧ n % 2 = 0) then n else n + 1)
  | _ => none

instance : JsonFloat Exact where
  ofDecimal neg m k := finite (Text.scaled neg m k)
  nan := nan
  infinity := infinity

/-- The number a text is as a whole. -/
def ofText (text : Str) : Option (Json Exact) :=
  match Json.number text with
  | some (v, []) => some v
  | _ => none

/-- The texts of `float` that are no decimals. -/
def special (text : Str) : Option Exact :=
  let (negative, text) := Text.sign text
  if text = "nan".toList then some nan
  else if text = "inf".toList ∨ text = "infinity".toList then some (infinity negative)
  else none

/-- The zeros of the scripts of the basic plane, without ASCII. -/
def zeros : List Nat :=
  [0x660, 0x6F0, 0x7C0, 0x966, 0x9E6, 0xA66, 0xAE6, 0xB66, 0xBE6, 0xC66, 0xCE6, 0xD66, 0xDE6, 0xE50,
   0xED0, 0xF20, 0x1040, 0x1090, 0x17E0, 0x1810, 0x1946, 0x19D0, 0x1A80, 0x1A90, 0x1B50, 0x1BB0,
   0x1C40, 0x1C50, 0xA620, 0xA8D0, 0xA900, 0xA9D0, 0xA9F0, 0xAA50, 0xABF0, 0xFF10]

instance : Python Exact where
  add := add
  sub x y := add x y.neg
  mul := mul
  div := div
  abs := abs
  lt := lt
  isZero x := x = finite 0
  isFinite
    | finite _ => true
    | _ => false
  isNan x := x = nan
  signBit := isNeg
  value
    | finite q => q
    | _ => 0
  sin
    | finite q => some (finite (sinSeries q))
    | infinity _ => none
    | nan => some nan
  cos
    | finite q => some (finite (cosSeries q))
    | infinity _ => none
    | nan => some nan
  hypot := hypot
  atan2 := atan2
  pi := finite (355 / 113)
  ofInt n := some (finite n)
  decimal c :=
    (zeros.find? fun first => first ≤ c.toNat && c.toNat < first + 10).map (c.toNat - ·)
  ofText text :=
    match ofText text with
    | some (.int n) => some (finite n)
    | some (.float x) => some x
    | _ => special (text.map Char.toLower)
  intOfText text :=
    match ofText text with
    | some (.int n) => some n
    | _ => none
  trunc := trunc
  str
    | .int n => Text.sdec n
    | _ => []

instance : LawfulPython Exact where
  isFinite_ofDecimal _ _ _ _ _ := rfl
  signBit_eq x hx := by
    cases x with
    | finite q => rfl
    | _ => exact absurd rfl hx

theorem eq_finite {x : Exact} (h : Python.isFinite x = true) : ∃ q, x = finite q := by
  cases x with
  | finite q => exact ⟨q, rfl⟩
  | _ => cases h

instance : ClosedPython Exact where
  isFinite_ofInt _ _ h := by
    cases h
    rfl
  isFinite_add x y hx hy := by
    obtain ⟨p, rfl⟩ := eq_finite hx
    obtain ⟨q, rfl⟩ := eq_finite hy
    rfl
  isFinite_sub x y hx hy := by
    obtain ⟨p, rfl⟩ := eq_finite hx
    obtain ⟨q, rfl⟩ := eq_finite hy
    rfl
  isFinite_mul x y hx hy := by
    obtain ⟨p, rfl⟩ := eq_finite hx
    obtain ⟨q, rfl⟩ := eq_finite hy
    rfl
  isFinite_div x y hx hy _ := by
    obtain ⟨p, rfl⟩ := eq_finite hx
    obtain ⟨q, rfl⟩ := eq_finite hy
    rfl
  isFinite_sin x s hx hs := by
    obtain ⟨q, rfl⟩ := eq_finite hx
    cases hs
    rfl
  isFinite_cos x c hx hc := by
    obtain ⟨q, rfl⟩ := eq_finite hx
    cases hc
    rfl
  isFinite_hypot x y hx hy := by
    obtain ⟨p, rfl⟩ := eq_finite hx
    obtain ⟨q, rfl⟩ := eq_finite hy
    rfl
  isFinite_atan2 y x hy hx := by
    obtain ⟨p, rfl⟩ := eq_finite hy
    obtain ⟨q, rfl⟩ := eq_finite hx
    rfl
  isFinite_pi := rfl
  lt_tiny x hx := by
    have hzero : x = finite 0 := of_decide_eq_true hx
    rw [hzero]
    decide +kernel
  isZero_float n hn _ := by
    have hscaled : Text.scaled false n 0 ≠ 0 := by
      have hn : (n : ℚ) ≠ 0 := Nat.cast_ne_zero.2 (Nat.pos_iff_ne_zero.1 hn)
      simpa [Text.scaled] using hn
    show decide (finite (Text.scaled false n 0) = finite 0) = false
    exact decide_eq_false fun heq => hscaled (finite.inj heq)
  value_float n _ := by
    show Text.scaled false n 0 = n
    simp [Text.scaled]
  isFinite_reread _ _ := rfl

instance : Server Exact where
  rint := rint
  int4in text :=
    match ofText text with
    | some (.int n) => some n
    | _ => none

end Exact

/-- A moment of the clocks. -/
def noon : Moment where
  server := 0
  wall := ⟨2026, 1, 1, 12, 0, 0, by decide, by decide, by decide, by decide, by decide, by decide⟩
  microsecond := 0

/-- Tables that are empty. -/
def noMeters : Db Exact where
  meters := ∅
  readings := []
  heartbeats := []
  fingerprints := []

end Cloud

end Waterbox
