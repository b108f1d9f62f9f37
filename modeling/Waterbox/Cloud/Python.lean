import Waterbox.Lib.Calendar
import Waterbox.Lib.Format
import Waterbox.Lib.Json

namespace Waterbox

namespace Cloud

/-!
# What the worker's code gets from Python

Texts are lists of characters.  The type `D` of Python's `float`, and the conversions of numbers
from and to text, are parameters: no result depends on how they round or on what else they
accept.  A computation that raises an exception has the value `none`.
-/

/-- A text. -/
abbrev Str := List Char

/-- A decoded JSON object. -/
abbrev Dict (D : Type) := List (Str × Json D)

/-- Arithmetic, and the literals of the code that uses nothing else. -/
class Arith (K : Type) where
  /-- The literal `n.0`. -/
  ofNat : Nat → K
  /-- The literal `1e-12`. -/
  tiny : K
  add : K → K → K
  sub : K → K → K
  mul : K → K → K
  div : K → K → K
  abs : K → K
  lt : K → K → Bool
  isZero : K → Bool

/-- Also the functions of `math`. -/
class PyMath (D : Type) extends Arith D where
  /-- `math.sin(x)` and `math.cos(x)`, which raise for an infinity. -/
  sin : D → Option D
  cos : D → Option D
  hypot : D → D → D
  /-- `math.atan2(y, x)`. -/
  atan2 : D → D → D
  pi : D

/-- Python's `float`, and the conversions between numbers and texts. -/
class Python (D : Type) extends JsonFloat D where
  add : D → D → D
  sub : D → D → D
  mul : D → D → D
  div : D → D → D
  abs : D → D
  lt : D → D → Bool
  isZero : D → Bool
  isFinite : D → Bool
  isNan : D → Bool
  signBit : D → Bool
  /-- The exact value of a finite number. -/
  value : D → ℚ
  sin : D → Option D
  cos : D → Option D
  hypot : D → D → D
  atan2 : D → D → D
  pi : D
  /-- `float(n)`, which raises where `n` is too large. -/
  ofInt : Int → Option D
  /-- The value of a decimal digit of Unicode that is not ASCII. -/
  decimal : Char → Option Nat
  /-- `float(text)` and `int(text)`. -/
  ofText : Str → Option D
  intOfText : Str → Option Int
  /-- `int(x)`, which raises for NaN and the infinities. -/
  trunc : D → Option Int
  /-- `str(value)` of a value that is no text. -/
  str : Json D → Str

/-- What the results on finite numbers rely on. -/
class LawfulPython (D : Type) [Python D] : Prop where
  /-- Decimal fractions of at most 200 digits are finite. -/
  isFinite_ofDecimal : ∀ (neg : Bool) (m : Nat) (k : Int), m < 10 ^ 200 → k ≤ 0 →
    Python.isFinite (JsonFloat.ofDecimal neg m k : D) = true
  signBit_eq : ∀ x : D, Python.value x ≠ 0 → Python.signBit x = decide (Python.value x < 0)

variable {D : Type} [Python D]

/-- The literal `n.0`. -/
def float (n : Nat) : D := JsonFloat.ofDecimal false n 0

instance : PyMath D where
  ofNat := float
  tiny := JsonFloat.ofDecimal false 1 (-12)
  add := Python.add
  sub := Python.sub
  mul := Python.mul
  div := Python.div
  abs := Python.abs
  lt := Python.lt
  isZero := Python.isZero
  sin := Python.sin
  cos := Python.cos
  hypot := Python.hypot
  atan2 := Python.atan2
  pi := Python.pi

/-- Finite numbers, NaN and the infinities with the usual propagation: an operation on finite
    numbers that is defined has a finite result.  That the result of such an operation may exceed
    the range of the doubles is left out. -/
class ClosedPython (D : Type) [Python D] : Prop extends LawfulPython D where
  isFinite_ofInt : ∀ (n : Int) (x : D), Python.ofInt n = some x → Python.isFinite x = true
  isFinite_add : ∀ x y : D, Python.isFinite x = true → Python.isFinite y = true →
    Python.isFinite (Python.add x y) = true
  isFinite_sub : ∀ x y : D, Python.isFinite x = true → Python.isFinite y = true →
    Python.isFinite (Python.sub x y) = true
  isFinite_mul : ∀ x y : D, Python.isFinite x = true → Python.isFinite y = true →
    Python.isFinite (Python.mul x y) = true
  isFinite_div : ∀ x y : D, Python.isFinite x = true → Python.isFinite y = true →
    Python.isZero y = false → Python.isFinite (Python.div x y) = true
  isFinite_sin : ∀ x s : D, Python.isFinite x = true → Python.sin x = some s →
    Python.isFinite s = true
  isFinite_cos : ∀ x c : D, Python.isFinite x = true → Python.cos x = some c →
    Python.isFinite c = true
  isFinite_hypot : ∀ x y : D, Python.isFinite x = true → Python.isFinite y = true →
    Python.isFinite (Python.hypot x y) = true
  isFinite_atan2 : ∀ y x : D, Python.isFinite y = true → Python.isFinite x = true →
    Python.isFinite (Python.atan2 y x) = true
  isFinite_pi : Python.isFinite (Python.pi : D) = true
  /-- Zero is below the literal `1e-12`. -/
  lt_tiny : ∀ x : D, Python.isZero x = true →
    Python.lt (Python.abs x) (JsonFloat.ofDecimal false 1 (-12)) = true
  /-- The literals of integers are exact. -/
  isZero_float : ∀ n : Nat, 0 < n → n < 10 ^ 15 → Python.isZero (float n : D) = false
  value_float : ∀ n : Nat, n < 10 ^ 15 → Python.value (float n : D) = n
  /-- A finite number that was written with four decimals is read back as a finite number. -/
  isFinite_reread : ∀ x : D, Python.isFinite x = true →
    Python.isFinite (JsonFloat.ofDecimal (Python.signBit x)
      (Text.roundEven (|Python.value x| * 10 ^ 4)) (-4) : D) = true

/-- `bool(value)`. -/
def truthy : Json D → Bool
  | .null => false
  | .bool b => b
  | .int n => n ≠ 0
  | .float x => !Python.isZero x
  | .str s => !s.isEmpty
  | .arr items => !items.isEmpty
  | .obj members => !members.isEmpty

/-- `str(value)`. -/
def str : Json D → Str
  | .str s => s
  | v => Python.str v

/-- `format(x, code)`, for a code that writes finite numbers by `write`. -/
def formatted (write : Bool → ℚ → Str) (x : D) : Str :=
  if Python.isFinite x then write (Python.signBit x) (Python.value x)
  else if Python.isNan x then "nan".toList
  else if Python.signBit x then "-inf".toList
  else "inf".toList

/-- White space in the sense of `str.strip()`. -/
def isSpace (c : Char) : Bool :=
  let n := c.toNat
  (9 ≤ n && n ≤ 13) || (28 ≤ n && n ≤ 32) || n = 0x85 || n = 0xA0 || n = 0x1680 ||
    (0x2000 ≤ n && n ≤ 0x200A) || n = 0x2028 || n = 0x2029 || n = 0x202F || n = 0x205F ||
    n = 0x3000

/-- `text.strip()`. -/
def strip (text : Str) : Str := ((text.dropWhile isSpace).reverse.dropWhile isSpace).reverse

/-- A text without white space is left as it is. -/
theorem strip_eq_self {text : Str} (h : ∀ c ∈ text, isSpace c = false) : strip text = text := by
  have hdrop : ∀ t : Str, (∀ c ∈ t, isSpace c = false) → t.dropWhile isSpace = t := by
    intro t ht
    cases t with
    | nil => rfl
    | cons c t => simp [ht c List.mem_cons_self]
  have hreverse : ∀ c ∈ text.reverse, isSpace c = false := fun c hc => h c (List.mem_reverse.1 hc)
  rw [strip, hdrop text h, hdrop text.reverse hreverse, List.reverse_reverse]

end Cloud

end Waterbox
