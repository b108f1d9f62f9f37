import Waterbox.Firmware.WaterboxFsm
import Waterbox.Lib.Format

namespace Waterbox

/-!
# The `float` of the device

The results of this development hold for every number type.  Where the firmware is run on a given
input, the numbers are these: 32 bits, read as a sign, an exponent and a fraction, with every
result rounded to the nearest such number, ties to even.  The runs shown stay within the finite
numbers: in arithmetic the bits of an infinity are read as a power of two.
-/

/-- A single-precision number. -/
structure Single where
  bits : U32
deriving DecidableEq

namespace Single

/-- The value of a number. -/
def value (x : Single) : ℚ :=
  let e := (x.bits.extractLsb' 23 8).toNat
  let m := (x.bits.extractLsb' 0 23).toNat
  let magnitude : ℚ := if e = 0 then m * 2 ^ (-149 : Int) else (2 ^ 23 + m) * 2 ^ ((e : Int) - 150)
  if x.bits.getLsbD 31 then -magnitude else magnitude

/-- The exponent of the leading bit of a positive value. -/
def leadingBit (q : ℚ) : Int :=
  let k : Int := (q.num.natAbs.log2 : Int) - q.den.log2
  if (2 : ℚ) ^ k ≤ q then k else k - 1

/-- The number next to a value. -/
def ofValue (q : ℚ) : Single :=
  let e : Int := if q = 0 then -126 else max (-126) (leadingBit |q|)
  let m := Text.roundEven (|q| * 2 ^ (23 - e))
  -- the leading bit of `m` carries into the exponent, except in a subnormal number
  let magnitude := min ((e + 126).toNat * 2 ^ 23 + m) 0x7F800000
  ⟨BitVec.ofNat 32 (if q < 0 then 2 ^ 31 + magnitude else magnitude)⟩

/-- The exponent is not that of the infinities. -/
def isFinite (x : Single) : Bool := x.bits.extractLsb' 23 8 ≠ 255

/-- The exponent is that of an infinity and the fraction is not. -/
def isNan (x : Single) : Bool := !x.isFinite && x.bits.extractLsb' 0 23 ≠ 0

/-- A comparison, which is false where one side is no number. -/
def compare (holds : ℚ → ℚ → Bool) (x y : Single) : Bool :=
  !x.isNan && !y.isNan && holds x.value y.value

/-- The number that a text begins with. -/
def ofText (text : CString) : Single :=
  match Text.numeral text with
  | .number q => ofValue q
  | .infinity false => ⟨0x7F800000⟩
  | .infinity true => ⟨0xFF800000⟩
  | .nan => ⟨0x7FC00000⟩

/-- The text of `dtostrf(x, 1, 2, buf)`. -/
def text (x : Single) : CString :=
  if x.isFinite then
    Text.signText (x.bits.getLsbD 31) ++ Text.fixed 2 ⌊|x.value| * 100 + 1 / 2⌋₊
  else if x.isNan then "nan".toList
  else Text.signText (x.bits.getLsbD 31) ++ "inf".toList

instance : CFloat Single where
  ofRat := ofValue
  add x y := ofValue (x.value + y.value)
  mul x y := ofValue (x.value * y.value)
  div x y := ofValue (x.value / y.value)
  lt := compare fun x y => x < y
  le := compare fun x y => x ≤ y
  beq := compare fun x y => x = y
  -- the first three terms of the series
  sinf x := ofValue (x.value - x.value ^ 3 / 6 + x.value ^ 5 / 120)
  pi := ⟨0x40490FDB⟩
  dtostrf := text
  atof := ofText
  bits := Single.bits
  ofBits := Single.mk

instance : LawfulBits Single where
  ofBits_bits _ := rfl

instance : LawfulAtof Single where
  atof_eq t := by
    show ofText t = _
    rw [ofText]
    cases Text.numeral t with
    | number q => rfl
    | infinity neg => cases neg <;> rfl
    | nan => rfl

example : (ofValue (1 / 10)).bits = 0x3DCCCCCD ∧ text (ofValue (1 / 10)) = "0.10".toList := by
  decide +kernel

end Single

/-- A step in which the modem and the broker do what they are asked, and no water flows. -/
def willing : Env where
  available := true
  packet := some (.connack 0)
  imei := "861234567890123".toList

/-- An EEPROM that was never written. -/
def blank : Nat → U8 := fun _ => 255

end Waterbox
