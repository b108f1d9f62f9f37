import Waterbox.Cloud.Passes

namespace Waterbox

namespace Cloud

/-!
# Finite numbers

What the worker computes from finite flows is finite, and what it sends to the meter is JSON.

* `ClosedUnder`, `solve_closed` — the solver stays within any set that the arithmetic does not
  leave.
* `fit_finite`, `fitMeter_finite` — the fit of finite flows is finite.
* `loads_toMqttJson` — the body of a finite fingerprint is a JSON object of finite numbers.
-/

/-! ### Sets of numbers that the arithmetic does not leave -/

section Closed

variable {K : Type} [Arith K] {P : K → Prop}

open Arith

/-- The operations of the solver do not leave a set.  It divides by pivots only. -/
structure ClosedUnder (P : K → Prop) : Prop where
  zero : P (ofNat 0)
  add : ∀ x y, P x → P y → P (add x y)
  sub : ∀ x y, P x → P y → P (sub x y)
  mul : ∀ x y, P x → P y → P (mul x y)
  div : ∀ x y, P x → P y → lt (abs y) tiny = false → P (div x y)

/-- All entries of a matrix are in the set. -/
def Within (P : K → Prop) (m : List (List K)) : Prop := ∀ row ∈ m, ∀ x ∈ row, P x

/-- A sum of products stays within what is closed under both. -/
theorem dot_closed (h : ClosedUnder P) {row col : List K} (hrow : ∀ x ∈ row, P x)
    (hcol : ∀ x ∈ col, P x) : P (dot row col) := by
  have hproducts : ∀ x ∈ List.zipWith mul row col, P x := by
    intro x hx
    obtain ⟨i, hi, rfl⟩ := List.getElem_of_mem hx
    rw [List.getElem_zipWith]
    exact h.mul _ _ (hrow _ (List.getElem_mem _)) (hcol _ (List.getElem_mem _))
  have hsum : ∀ (xs : List K) (acc : K), P acc → (∀ x ∈ xs, P x) → P (xs.foldl add acc) := by
    intro xs
    induction xs with
    | nil => exact fun acc hacc _ => hacc
    | cons x xs ih =>
      intro acc hacc hxs
      have hx := hxs x List.mem_cons_self
      exact ih _ (h.add _ _ hacc hx) fun y hy => hxs y (List.mem_cons_of_mem _ hy)
  exact hsum _ _ h.zero hproducts

omit [Arith K] in
theorem transpose_within : ∀ {m : List (List K)}, Within P m → Within P (transpose m)
  | [], _ => fun _ hrow => nomatch hrow
  | [row], h => by
    intro col hcol x hx
    obtain ⟨y, hy, rfl⟩ := List.mem_map.1 hcol
    rw [List.mem_singleton.1 hx]
    exact h row List.mem_cons_self y hy
  | row :: row' :: rows, h => by
    have hrest : Within P (transpose (row' :: rows)) :=
      transpose_within fun r hr => h r (List.mem_cons_of_mem _ hr)
    intro col hcol x hx
    rw [transpose] at hcol
    · obtain ⟨i, hi, rfl⟩ := List.getElem_of_mem hcol
      rw [List.getElem_zipWith] at hx
      rcases List.mem_cons.1 hx with rfl | hx
      · exact h row List.mem_cons_self _ (List.getElem_mem _)
      · exact hrest _ (List.getElem_mem _) x hx
    · exact List.cons_ne_nil _ _

theorem matmul_within (h : ClosedUnder P) {a b : List (List K)} (ha : Within P a)
    (hb : Within P b) : Within P (matmul a b) := by
  intro out hout x hx
  obtain ⟨row, hrow, rfl⟩ := List.mem_map.1 hout
  obtain ⟨col, hcol, rfl⟩ := List.mem_map.1 hx
  exact dot_closed h (ha row hrow) (transpose_within hb col hcol)

theorem matvec_closed (h : ClosedUnder P) {a : List (List K)} {v : List K} (ha : Within P a)
    (hv : ∀ x ∈ v, P x) : ∀ x ∈ matvec a v, P x := by
  intro x hx
  obtain ⟨row, hrow, rfl⟩ := List.mem_map.1 hx
  exact dot_closed h (ha row hrow) hv

omit [Arith K] in
/-- An entry of a row, or the default where the row is too short. -/
theorem getD_closed {xs : List K} {d : K} (hd : P d) (hxs : ∀ x ∈ xs, P x) (i : Nat) :
    P (xs.getD i d) := by
  rw [List.getD_eq_getElem?_getD]
  by_cases hi : i < xs.length
  · rw [List.getElem?_eq_getElem hi]
    exact hxs _ (List.getElem_mem hi)
  · rw [List.getElem?_eq_none (Nat.le_of_not_lt hi)]
    exact hd

omit [Arith K] in
theorem row_closed {m : List (List K)} (hm : Within P m) (r : Nat) : ∀ x ∈ m.getD r [], P x := by
  rw [List.getD_eq_getElem?_getD]
  by_cases hr : r < m.length
  · rw [List.getElem?_eq_getElem hr]
    exact hm _ (List.getElem_mem hr)
  · rw [List.getElem?_eq_none (Nat.le_of_not_lt hr)]
    exact fun x hx => nomatch hx

theorem entry_closed (h : ClosedUnder P) {m : List (List K)} (hm : Within P m) (r j : Nat) :
    P (entry m r j) := getD_closed h.zero (row_closed hm r) j

omit [Arith K] in
/-- Rows are only exchanged. -/
theorem swapRows_within {m : List (List K)} (hm : Within P m) (i p : Nat) :
    Within P (swapRows m i p) := by
  intro row hrow
  rcases List.mem_or_eq_of_mem_set hrow with hrow | rfl
  · rcases List.mem_or_eq_of_mem_set hrow with hrow | rfl
    · exact hm row hrow
    · exact row_closed hm p
  · exact row_closed hm i

omit [Arith K] in
theorem fromColumn_closed {i : Nat} {f : Nat → K → K} {row : List K} (hrow : ∀ x ∈ row, P x)
    (hf : ∀ j x, P x → P (f j x)) : ∀ x ∈ fromColumn i f row, P x := by
  intro x hx
  obtain ⟨j, hj, rfl⟩ := List.mem_mapIdx.1 hx
  have hold : P row[j] := hrow _ (List.getElem_mem hj)
  by_cases hij : i ≤ j
  · rw [if_pos hij]
    exact hf j _ hold
  · rw [if_neg hij]
    exact hold

/-- A round of elimination divides by its pivot alone, which is not tiny. -/
theorem eliminate_within (h : ClosedUnder P) {m : List (List K)} (hm : Within P m) {i : Nat}
    (hpivot : lt (abs (entry m i i)) tiny = false) : Within P (eliminate m i) := by
  have htop : ∀ x ∈ fromColumn i (fun _ x => div x (entry m i i)) (m.getD i []), P x :=
    fromColumn_closed (row_closed hm i) fun _ x hx => h.div x _ hx (entry_closed h hm i i) hpivot
  intro row hrow
  obtain ⟨r, hr, rfl⟩ := List.mem_mapIdx.1 hrow
  have hold : ∀ x ∈ m[r], P x := hm _ (List.getElem_mem hr)
  show ∀ x ∈ (if r = i then _ else _), P x
  by_cases hri : r = i
  · rw [if_pos hri]
    exact htop
  · rw [if_neg hri]
    refine fromColumn_closed hold fun j x hx => h.sub _ _ hx (h.mul _ _ ?_ ?_)
    · exact getD_closed h.zero hold i
    · exact getD_closed h.zero htop j

/-- All rounds, by induction on their number. -/
theorem solveFrom_within (h : ClosedUnder P) (n : Nat) {k i : Nat} {m out : List (List K)}
    (hm : Within P m) (hout : solveFrom n k i m = some out) : Within P out := by
  induction k generalizing i m with
  | zero =>
    cases hout
    exact hm
  | succ k ih =>
    have hswap := swapRows_within hm i (pivot m i n)
    simp only [solveFrom] at hout
    split at hout
    · cases hout
    · rename_i hpivot
      exact ih (eliminate_within h hswap (Bool.eq_false_iff.2 hpivot)) hout

/-- Where the coefficients are in the set, so is the solution. -/
theorem solve_closed (h : ClosedUnder P) {a : List (List K)} {b c : List K} (ha : Within P a)
    (hb : ∀ x ∈ b, P x) (hc : solve a b = some c) : ∀ x ∈ c, P x := by
  have haugmented : Within P (List.zipWith (fun row y => row ++ [y]) a b) := by
    intro row hrow x hx
    obtain ⟨i, hi, rfl⟩ := List.getElem_of_mem hrow
    rw [List.getElem_zipWith] at hx
    rcases List.mem_append.1 hx with hx | hx
    · exact ha _ (List.getElem_mem _) x hx
    · rw [List.mem_singleton.1 hx]
      exact hb _ (List.getElem_mem _)
  obtain ⟨m, hm, rfl⟩ := Option.map_eq_some_iff.1 hc
  intro x hx
  obtain ⟨i, -, rfl⟩ := List.mem_map.1 hx
  exact entry_closed h (solveFrom_within h _ haugmented hm) i _

end Closed

/-! ### The fit -/

variable {D : Type} [Python D]

/-- Neither NaN nor an infinity. -/
abbrev IsFinite (x : D) : Prop := Python.isFinite x = true

/-- What the fit of finite flows gives. -/
structure FiniteFit (fp : FitParams D) : Prop where
  numbers : ∀ x ∈ [fp.w, fp.a1, fp.p1, fp.a2, fp.p2], IsFinite x
  t1 : fp.t1 = period1
  t2 : fp.t2 = period2

section Fit

variable [ClosedPython D]

/-- The counts and hours of a pass are small integers. -/
theorem isFinite_float {n : Nat} (hn : n < 10 ^ 15) : IsFinite (float n : D) :=
  LawfulPython.isFinite_ofDecimal false n 0
    (lt_of_lt_of_le hn (Nat.pow_le_pow_right (by decide) (by decide))) le_rfl

theorem div_float_finite {x : D} (hx : IsFinite x) {n : Nat} (hpos : 0 < n) (hn : n < 10 ^ 15) :
    IsFinite (Python.div x (float n)) :=
  ClosedPython.isFinite_div x _ hx (isFinite_float hn) (ClosedPython.isZero_float n hpos hn)

/-- The solver does not leave the finite numbers: a pivot that it divides by is not zero. -/
theorem closedUnder_isFinite : ClosedUnder (IsFinite (D := D)) where
  zero := isFinite_float (by decide)
  add := ClosedPython.isFinite_add
  sub := ClosedPython.isFinite_sub
  mul := ClosedPython.isFinite_mul
  div x y hx hy hpivot := by
    by_cases hzero : Python.isZero y = true
    · have htiny := ClosedPython.lt_tiny y hzero
      have hlt : Python.lt (Python.abs y) (JsonFloat.ofDecimal false 1 (-12)) = false := hpivot
      rw [hlt] at htiny
      cases htiny
    · exact ClosedPython.isFinite_div x y hx hy (Bool.eq_false_iff.2 hzero)

/-- The hour of a reading, with its minutes and seconds. -/
theorem hourOf_finite (ts : ZonedTime) : IsFinite (hourOf ts : D) := by
  have hhour := ts.time.hour_range
  have hminute := ts.time.minute_range
  have hsecond := ts.time.second_range
  unfold hourOf
  refine ClosedPython.isFinite_add _ _ (ClosedPython.isFinite_add _ _ ?_ ?_) ?_
  · exact isFinite_float (by omega)
  · exact div_float_finite (isFinite_float (by omega)) (by decide) (by decide)
  · exact div_float_finite (isFinite_float (by omega)) (by decide) (by decide)

/-- The row of the design matrix, whose periods are the settings. -/
theorem designRow_finite {t : D} {row : List D} (ht : IsFinite t)
    (h : designRow t period1 period2 = some row) : ∀ x ∈ row, IsFinite x := by
  have hangle : IsFinite (Python.mul (Python.mul (float 2) Python.pi) t) :=
    ClosedPython.isFinite_mul _ _ (ClosedPython.isFinite_mul _ _ (isFinite_float (by decide))
      ClosedPython.isFinite_pi) ht
  have h1 := div_float_finite hangle (n := 24) (by decide) (by decide)
  have h2 := div_float_finite hangle (n := 12) (by decide) (by decide)
  simp only [designRow, Option.bind_eq_bind, Option.bind_eq_some_iff] at h
  obtain ⟨s1, hs1, c1, hc1, s2, hs2, c2, hc2, hrow⟩ := h
  cases hrow
  simp only [List.forall_mem_cons, List.not_mem_nil, false_implies, implies_true, and_true]
  refine ⟨isFinite_float (by decide), ?_, ?_, ?_, ?_⟩
  · exact ClosedPython.isFinite_sin _ _ h1 hs1
  · exact ClosedPython.isFinite_cos _ _ h1 hc1
  · exact ClosedPython.isFinite_sin _ _ h2 hs2
  · exact ClosedPython.isFinite_cos _ _ h2 hc2

/-- Amplitude and phase of finite coefficients. -/
theorem polar_finite {b c : D} (hb : IsFinite b) (hc : IsFinite c) :
    IsFinite (polar b c).1 ∧ IsFinite (polar b c).2 := by
  refine ⟨ClosedPython.isFinite_hypot b c hb hc, ?_⟩
  simp only [polar]
  split
  · exact isFinite_float (by decide)
  · exact ClosedPython.isFinite_atan2 c b hc hb

/-- The fit of finite flows. -/
theorem fit_finite {hours lms : List D} {fp : FitParams D} (hhours : ∀ t ∈ hours, IsFinite t)
    (hlms : ∀ x ∈ lms, IsFinite x) (h : fit hours lms period1 period2 = some fp) :
    FiniteFit fp := by
  unfold fit at h
  split at h
  · cases h
  simp only [Option.bind_eq_bind, Option.bind_eq_some_iff] at h
  obtain ⟨x, hx, c, hc, hfp⟩ := h
  have hrows : Within IsFinite x := by
    intro row hrow
    obtain ⟨t, ht, hrow⟩ := Cut.mem_of_mapM hx hrow
    exact designRow_finite (hhours t ht) hrow
  -- the normal equations are built by sums and products, and solved by divisions by pivots
  have htranspose := transpose_within hrows
  have hcoefficients := solve_closed closedUnder_isFinite
    (matmul_within closedUnder_isFinite htranspose hrows)
    (matvec_closed closedUnder_isFinite htranspose hlms) hc
  unfold fitParams at hfp
  split at hfp
  · rename_i w b1 c1 b2 c2
    cases hfp
    simp only [List.forall_mem_cons] at hcoefficients
    obtain ⟨hw, hb1, hc1, hb2, hc2, -⟩ := hcoefficients
    have hdaily := polar_finite hb1 hc1
    have htwice := polar_finite hb2 hc2
    refine ⟨?_, rfl, rfl⟩
    simp only [List.forall_mem_cons, List.not_mem_nil, false_implies, implies_true, and_true]
    exact ⟨hw, hdaily.1, hdaily.2, htwice.1, htwice.2⟩
  · cases hfp

/-- Every flow that is stored is finite. -/
def FlowsFinite (db : Db D) : Prop := ∀ r ∈ db.readings, ∀ lm ∈ r.lm, IsFinite lm

/-- A fit of finite flows, where it succeeds, has finite coefficients. -/
theorem fitMeter_finite {window : Window} {imei : Str} {db : Db D} {fp : FitParams D}
    (hflows : FlowsFinite db) (h : fitMeter window imei db = some fp) : FiniteFit fp := by
  simp only [fitMeter] at h
  split at h
  · cases h
  refine fit_finite ?_ ?_ h
  · intro t ht
    obtain ⟨r, -, rfl⟩ := List.mem_map.1 ht
    exact hourOf_finite r.1
  · intro x hx
    obtain ⟨sample, hsample, rfl⟩ := List.mem_map.1 hx
    have hmem := (List.mem_insertionSort _).1 hsample
    obtain ⟨r, hr, hlm⟩ := List.mem_filterMap.1 hmem
    obtain ⟨lm, hflow, rfl⟩ := Option.map_eq_some_iff.1 hlm
    exact hflows r (List.mem_reverse.1 (List.mem_filter.1 hr).1) lm hflow

end Fit

/-! ### The body -/

/-- A number that is finite. -/
def IsFiniteNumber : Json D → Prop
  | .int _ => True
  | .float x => IsFinite x
  | _ => False

/-- A body that is a JSON object of finite numbers. -/
def FiniteObject (D : Type) [Python D] (body : Str) : Prop :=
  ∃ members : Dict D, Json.loads body = some (.obj members) ∧ ∀ m ∈ members, IsFiniteNumber m.2

section Body

variable [ClosedPython D]

omit [ClosedPython D] in
/-- A finite number with four decimals. -/
theorem denotes_decimals {x : D} (hx : IsFinite x) :
    Json.Denotes (formatted (Text.fixedText 4) x) (.float (JsonFloat.ofDecimal (Python.signBit x)
      (Text.roundEven (|Python.value x| * 10 ^ 4)) (-4)) : Json D) := by
  rw [formatted, if_pos hx]
  have h := Json.denotes_fixed (D := D) (Python.signBit x) (k := 4) (by decide)
    (Text.roundEven (|Python.value x| * 10 ^ 4))
  unfold Text.fixedText
  cases hsign : Python.signBit x with
  | false =>
    rw [hsign] at h
    exact h
  | true =>
    rw [hsign] at h
    exact h

def decimalsMember (key : Str) (x : D) (hkey : Json.Plain key) (hx : IsFinite x) : Json.Member D :=
  ⟨key, formatted (Text.fixedText 4) x, _, hkey, denotes_decimals hx⟩

/-- A period as a member. -/
def periodMember (key : Str) (n : Nat) (hkey : Json.Plain key) : Json.Member D :=
  ⟨key, Text.udec n, .int n, hkey, Json.denotes_udec n⟩

/-- How `:g` writes a small integer. -/
theorem formatted_float {n : Nat} (hpos : 0 < n) (hn : n < 10 ^ 15) :
    formatted Text.generalText (float n : D) = Text.generalText false n := by
  have hvalue : Python.value (float n : D) = n := ClosedPython.value_float n hn
  have hne : (n : ℚ) ≠ 0 := Nat.cast_ne_zero.2 (Nat.pos_iff_ne_zero.1 hpos)
  have hsign : Python.signBit (float n : D) = false := by
    rw [LawfulPython.signBit_eq _ (by rwa [hvalue]), hvalue]
    exact decide_eq_false (not_lt.2 n.cast_nonneg)
  rw [formatted, if_pos (isFinite_float hn), hsign, hvalue]

/-- The members of a body. -/
def bodyMembers (fp : FitParams D) (h : FiniteFit fp) : List (Json.Member D) :=
  [decimalsMember "w".toList fp.w (by decide) (h.numbers _ (by simp)),
   decimalsMember "a1".toList fp.a1 (by decide) (h.numbers _ (by simp)),
   decimalsMember "p1".toList fp.p1 (by decide) (h.numbers _ (by simp)),
   decimalsMember "a2".toList fp.a2 (by decide) (h.numbers _ (by simp)),
   decimalsMember "p2".toList fp.p2 (by decide) (h.numbers _ (by simp)),
   periodMember "t1".toList 24 (by decide),
   periodMember "t2".toList 12 (by decide)]

/-- With finite coefficients the body is a JSON object. -/
theorem toMqttJson_object {fp : FitParams D} (h : FiniteFit fp) :
    toMqttJson fp = Json.objectText (bodyMembers fp h) := by
  have h1 : formatted Text.generalText fp.t1 = Text.udec 24 := by
    rw [h.t1]
    exact (formatted_float (by decide) (by decide)).trans (by decide +kernel)
  have h2 : formatted Text.generalText fp.t2 = Text.udec 12 := by
    rw [h.t2]
    exact (formatted_float (by decide) (by decide)).trans (by decide +kernel)
  unfold toMqttJson
  simp only [h1, h2, Json.objectText, Json.membersText, Json.Member.write, bodyMembers,
    decimalsMember, periodMember, String.reduceToList, List.append_assoc, List.cons_append,
    List.nil_append]

/-- The body of a finite fingerprint. -/
theorem loads_toMqttJson {fp : FitParams D} (h : FiniteFit fp) :
    FiniteObject D (toMqttJson fp) := by
  refine ⟨(bodyMembers fp h).map Json.Member.entry, ?_, ?_⟩
  · rw [toMqttJson_object h]
    exact Json.loads_objectText _
  · simp only [bodyMembers, List.map_cons, List.map_nil, List.forall_mem_cons, List.not_mem_nil,
      false_implies, implies_true, and_true]
    have hdecimals : ∀ x : D, IsFinite x → IsFiniteNumber (.float (JsonFloat.ofDecimal
        (Python.signBit x) (Text.roundEven (|Python.value x| * 10 ^ 4)) (-4)) : Json D) :=
      ClosedPython.isFinite_reread
    refine ⟨?_, ?_, ?_, ?_, ?_, trivial, trivial⟩
    all_goals exact hdecimals _ (h.numbers _ (by simp))

end Body

end Cloud

end Waterbox
