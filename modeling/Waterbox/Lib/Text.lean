import Mathlib.Algebra.Ring.Nat
import Mathlib.Data.List.Basic

namespace Waterbox

/-!
# Text in the manner of the C library

Texts are lists of characters.  `strstr` and `strchr` give the rest of the text from the first
match on, as the pointers of C do; `udec`, `sdec` and `pad0` are the conversions `%u`, `%d` and
`%0nd`; `fixed` writes a decimal fraction.
-/

namespace Text

/-- The text from the first occurrence of `pat` on. -/
def strstr (pat : List Char) : List Char → Option (List Char)
  | [] => if pat.isEmpty then some [] else none
  | c :: cs => if pat.isPrefixOf (c :: cs) then some (c :: cs) else strstr pat cs

/-- The text from the first occurrence of `c` on. -/
def strchr (c : Char) : List Char → Option (List Char)
  | [] => none
  | d :: ds => if d = c then some (d :: ds) else strchr c ds

/-- The C string at the start of a buffer: everything before the first NUL. -/
def cstr (buffer : List Char) : List Char := buffer.takeWhile (· ≠ '\x00')

/-- `%u` and `%lu`. -/
def udec (n : Nat) : List Char := Nat.toDigits 10 n

/-- `%d`. -/
def sdec (n : Int) : List Char := if n < 0 then '-' :: udec n.natAbs else udec n.natAbs

/-- Leading zeros up to the width `w`, as in `%0wd`. -/
def pad0 (w : Nat) (ds : List Char) : List Char := List.replicate (w - ds.length) '0' ++ ds

/-- The decimal fraction `n / 10 ^ k` with `k` digits after the point. -/
def fixed (k n : Nat) : List Char :=
  udec (n / 10 ^ k) ++ '.' :: pad0 k (udec (n % 10 ^ k))

end Text

end Waterbox
