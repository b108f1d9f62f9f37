import Waterbox.Cloud.Python

namespace Waterbox

namespace Cloud

/-!
# `fingerprint.py`

The consumption model `W(t) = w + a1 sin(2π t/T1 + p1) + a2 sin(2π t/T2 + p2)` of the worker.
-/

/-- The parameters `fit` returns. -/
structure FitParams (D : Type) where
  w : D
  a1 : D
  p1 : D
  t1 : D
  a2 : D
  p2 : D
  t2 : D
  nSamples : Option Int
deriving DecidableEq

section Model

variable {D : Type} [PyMath D]

open Arith PyMath

/-- `T1` and `T2`. -/
def period1 : D := ofNat 24

def period2 : D := ofNat 12

/-- `x or y` for two numbers. -/
def orElse (x y : D) : D := if isZero x then y else x

/-- `w += a * math.sin(2.0 * math.pi * hour / t + p)`, where period and amplitude admit it. -/
def addWave (hour a p t w : D) : Option D :=
  if lt (ofNat 0) t && !isZero a then
    (sin (add (div (mul (mul (ofNat 2) pi) hour) t) p)).map fun s => add w (mul a s)
  else some w

/-- `predict(params, hour)`. -/
def predict (fp : FitParams D) (hour : D) : Option D := do
  let w ← addWave hour (orElse fp.a1 (ofNat 0)) (orElse fp.p1 (ofNat 0)) (orElse fp.t1 period1) fp.w
  let w ← addWave hour (orElse fp.a2 (ofNat 0)) (orElse fp.p2 (ofNat 0)) (orElse fp.t2 period2) w
  some (if lt (ofNat 0) w then w else ofNat 0)

end Model

/-! ### The fit -/

section Solve

variable {K : Type} [Arith K]

open Arith

/-- `list(zip(*m))`. -/
def transpose : List (List K) → List (List K)
  | [] => []
  | [row] => row.map fun x => [x]
  | row :: rows => List.zipWith List.cons row (transpose rows)

/-- `sum(x * y for x, y in zip(row, col))`. -/
def dot (row col : List K) : K := (List.zipWith mul row col).foldl add (ofNat 0)

def matmul (a b : List (List K)) : List (List K) :=
  a.map fun row => (transpose b).map fun col => dot row col

def matvec (a : List (List K)) (v : List K) : List K := a.map fun row => dot row v

/-- `m[r][j]`. -/
def entry (m : List (List K)) (r j : Nat) : K := (m.getD r []).getD j (ofNat 0)

/-- `max(range(i, n), key=lambda r: abs(m[r][i]))`: the first of the largest. -/
def pivot (m : List (List K)) (i n : Nat) : Nat :=
  (List.range' (i + 1) (n - (i + 1))).foldl
    (fun p r => if lt (abs (entry m p i)) (abs (entry m r i)) then r else p) i

/-- `m[i], m[p] = m[p], m[i]`. -/
def swapRows (m : List (List K)) (i p : Nat) : List (List K) :=
  (m.set i (m.getD p [])).set p (m.getD i [])

/-- `for j in range(i, n + 1): row[j] = f(j, row[j])`, where the row ends at `n`. -/
def fromColumn (i : Nat) (f : Nat → K → K) (row : List K) : List K :=
  row.mapIdx fun j x => if i ≤ j then f j x else x

/-- One round of the loop over the columns, after the exchange of the rows. -/
def eliminate (m : List (List K)) (i : Nat) : List (List K) :=
  let diag := entry m i i
  let top := fromColumn i (fun _ x => div x diag) (m.getD i [])
  m.mapIdx fun r row =>
    -- the other rows lose the column, above the diagonal and below
    if r = i then top
    else
      let f := row.getD i (ofNat 0)
      fromColumn i (fun j x => sub x (mul f (top.getD j (ofNat 0)))) row

/-- The loop from the column `i` on; `none` where a pivot is too small. -/
def solveFrom (n : Nat) : Nat → Nat → List (List K) → Option (List (List K))
  | 0, _, m => some m
  | k + 1, i, m =>
    let m := swapRows m i (pivot m i n)
    -- the largest candidate of the column is too small
    if lt (abs (entry m i i)) tiny then none else solveFrom n k (i + 1) (eliminate m i)

/-- `_solve(a, b)`; `none` where it raises `ValueError`. -/
def solve (a : List (List K)) (b : List K) : Option (List K) :=
  let n := b.length
  -- `row[:] + [b[i]]`: the right side is the last column
  let m := List.zipWith (fun row y => row ++ [y]) a b
  (solveFrom n n 0 m).map fun m => (List.range n).map fun i => entry m i n

end Solve

section Fit

variable {D : Type} [PyMath D]

open Arith PyMath

/-- `design_row(t, t1, t2)`. -/
def designRow (t t1 t2 : D) : Option (List D) := do
  let w1 := div (mul (mul (ofNat 2) pi) t) t1
  let w2 := div (mul (mul (ofNat 2) pi) t) t2
  let s1 ← sin w1
  let c1 ← cos w1
  let s2 ← sin w2
  let c2 ← cos w2
  some [ofNat 1, s1, c1, s2, c2]

/-- Amplitude and phase of `b sin + c cos`. -/
def polar (b c : D) : D × D :=
  let a := hypot b c
  -- without amplitude there is no phase
  (a, if isZero a then ofNat 0 else atan2 c b)

/-- The parameters of the solved coefficients. -/
def fitParams (t1 t2 : D) (n : Nat) : List D → Option (FitParams D)
  | [w, b1, c1, b2, c2] =>
    some
      { w := w
        a1 := (polar b1 c1).1
        p1 := (polar b1 c1).2
        t1 := t1
        a2 := (polar b2 c2).1
        p2 := (polar b2 c2).2
        t2 := t2
        nSamples := some n }
  | _ => none

/-- `fit(hours, lms, t1, t2)`; `none` where it raises `ValueError`. -/
def fit (hours lms : List D) (t1 t2 : D) : Option (FitParams D) :=
  -- one sample for each coefficient at least
  if hours.length < 5 then none
  else do
    let x ← hours.mapM fun t => designRow t t1 t2
    let xt := transpose x
    let c ← solve (matmul xt x) (matvec xt lms)
    fitParams t1 t2 hours.length c

end Fit

variable {D : Type} [Python D]

/-- `to_mqtt_json(params)`. -/
def toMqttJson (fp : FitParams D) : Str :=
  let decimals : D → Str := formatted (Text.fixedText 4)
  let general : D → Str := formatted Text.generalText
  "\x7b\"w\":".toList ++ decimals fp.w ++ ",\"a1\":".toList ++ decimals fp.a1 ++
    ",\"p1\":".toList ++ decimals fp.p1 ++ ",\"a2\":".toList ++ decimals fp.a2 ++
    ",\"p2\":".toList ++ decimals fp.p2 ++ ",\"t1\":".toList ++ general fp.t1 ++
    ",\"t2\":".toList ++ general fp.t2 ++ "\x7d".toList

end Cloud

end Waterbox
