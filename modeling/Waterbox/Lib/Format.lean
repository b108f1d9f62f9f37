import Mathlib.Data.Int.Log
import Mathlib.Data.List.DropRight
import Mathlib.Data.Rat.Floor
import Mathlib.Tactic.Linarith
import Waterbox.Lib.Decimal

namespace Waterbox

/-!
# Numbers in texts

The format codes `.kf` and `g` of Python for a finite number, which is given by its exact value
and its sign bit, and what `strtod` reads from the texts they write.

* `fixedText`, `roundTo` — `.kf` and the value it writes.
* `generalText`, `roundSig` — `g`, with six significant digits, and the value it writes.
* `strtod_fixedText`, `strtod_generalText` — both values are read back exactly.
-/

namespace Text

/-! ### Rounding -/

/-- The integer next to a value that is not negative, ties to even. -/
def roundEven (q : ℚ) : Nat :=
  let n := ⌊q⌋₊
  if q - n < 1 / 2 ∨ (q - n = 1 / 2 ∧ n % 2 = 0) then n else n + 1

theorem roundEven_zero : roundEven 0 = 0 := by
  simp [roundEven]

/-- Rounding moves a number by at most a half. -/
theorem abs_roundEven_sub_le {q : ℚ} (hq : 0 ≤ q) : |(roundEven q : ℚ) - q| ≤ 1 / 2 := by
  have hlo : (⌊q⌋₊ : ℚ) ≤ q := Nat.floor_le hq
  have hhi : q < ⌊q⌋₊ + 1 := Nat.lt_floor_add_one q
  rw [abs_le]
  simp only [roundEven]
  split
  case isTrue h =>
    have hle : q - ⌊q⌋₊ ≤ 1 / 2 := h.elim le_of_lt fun h => h.1.le
    constructor <;> linarith
  case isFalse h =>
    have hge : 1 / 2 ≤ q - ⌊q⌋₊ := not_lt.1 (mt Or.inl h)
    push_cast
    constructor <;> linarith

/-- A value rounded to `k` decimals. -/
def roundTo (k : Nat) (q : ℚ) : ℚ := scaled (q < 0) (roundEven (|q| * 10 ^ k)) (-k)

/-- The six significant digits of a value, as a number, and the exponent of the first one. -/
def sixDigits (q : ℚ) : Nat × Int :=
  if q = 0 then (0, 0)
  else
    let e := Int.log 10 |q|
    let m := roundEven (|q| * 10 ^ (5 - e))
    -- the last digit may carry through all of them
    if m = 10 ^ 6 then (10 ^ 5, e + 1) else (m, e)

/-- A value rounded to six significant digits. -/
def roundSig (q : ℚ) : ℚ := scaled (q < 0) (sixDigits q).1 ((sixDigits q).2 - 5)

/-! ### Writing -/

/-- The minus sign of a negative number. -/
def signText (neg : Bool) : List Char := if neg then ['-'] else []

/-- `.kf`. -/
def fixedText (k : Nat) (neg : Bool) (q : ℚ) : List Char :=
  signText neg ++ fixed k (roundEven (|q| * 10 ^ k))

/-- The zeros at the end of a fraction are left out, and the point with the whole fraction. -/
def trimmed (k n : Nat) : List Char :=
  let frac := (pad0 k (udec (n % 10 ^ k))).rdropWhile (· = '0')
  if frac.isEmpty then udec (n / 10 ^ k) else udec (n / 10 ^ k) ++ '.' :: frac

/-- An exponent, with at least two digits. -/
def exponentText (e : Int) : List Char :=
  'e' :: (if e < 0 then '-' else '+') :: pad0 2 (udec e.natAbs)

/-- `g`. -/
def generalText (neg : Bool) (q : ℚ) : List Char :=
  let (m, e) := sixDigits q
  signText neg ++
    if e < -4 ∨ 6 ≤ e then trimmed 5 m ++ exponentText e else trimmed (5 - e).toNat m

example : fixedText 4 true (-1 / 20000) = "-0.0000".toList ∧
    generalText false 24 = "24".toList ∧ generalText true (-1234567 / 2) = "-617284".toList ∧
    generalText false (9999995 / 10) = "1e+06".toList := by
  decide +kernel

/-- The characters of numbers. -/
def NumberChar (c : Char) : Prop := c.isDigit = true ∨ c ∈ ['-', '+', '.', 'e']

theorem numberChar_signText {neg : Bool} : ∀ c ∈ signText neg, NumberChar c := by
  intro c hc
  cases neg with
  | true =>
    obtain rfl := List.mem_singleton.1 hc
    exact .inr (by decide)
  | false => cases hc

theorem numberChar_fixed {k n : Nat} : ∀ c ∈ fixed k n, NumberChar c := by
  intro c hc
  rcases List.mem_append.1 hc with hc | hc
  · exact .inl (isDigit_udec hc)
  · rcases List.mem_cons.1 hc with rfl | hc
    · exact .inr (by decide)
    · exact .inl (isDigit_pad0 hc)

theorem numberChar_trimmed {k n : Nat} : ∀ c ∈ trimmed k n, NumberChar c := by
  intro c hc
  simp only [trimmed] at hc
  split at hc
  · exact .inl (isDigit_udec hc)
  · rcases List.mem_append.1 hc with hc | hc
    · exact .inl (isDigit_udec hc)
    · rcases List.mem_cons.1 hc with rfl | hc
      · exact .inr (by decide)
      · exact .inl (isDigit_pad0 ((List.rdropWhile_prefix _ _).subset hc))

theorem numberChar_exponentText {e : Int} : ∀ c ∈ exponentText e, NumberChar c := by
  intro c hc
  rcases List.mem_cons.1 hc with rfl | hc
  · exact .inr (by decide)
  · rcases List.mem_cons.1 hc with rfl | hc
    · refine .inr ?_
      split <;> decide
    · exact .inl (isDigit_pad0 hc)

theorem numberChar_fixedText {k : Nat} {neg : Bool} {q : ℚ} :
    ∀ c ∈ fixedText k neg q, NumberChar c := by
  intro c hc
  rcases List.mem_append.1 hc with hc | hc
  · exact numberChar_signText c hc
  · exact numberChar_fixed c hc

theorem numberChar_generalText {neg : Bool} {q : ℚ} :
    ∀ c ∈ generalText neg q, NumberChar c := by
  intro c hc
  rcases List.mem_append.1 hc with hc | hc
  · exact numberChar_signText c hc
  · split at hc
    · rcases List.mem_append.1 hc with hc | hc
      · exact numberChar_trimmed c hc
      · exact numberChar_exponentText c hc
    · exact numberChar_trimmed c hc

/-! ### Reading -/

/-- A text that a number ends at. -/
def EndsNumber (t : List Char) : Prop :=
  ∀ c ∈ t.head?, c.isDigit = false ∧ c ≠ '.' ∧ c ≠ 'e' ∧ c ≠ 'E'

section Reading

variable {t : List Char}

theorem EndsNumber.digits (h : EndsNumber t) : EndsDigits t := fun c hc => (h c hc).1

/-- Behind a number that ends no fraction begins. -/
theorem EndsNumber.fraction (h : EndsNumber t) : fraction t = ([], t) := by
  cases t with
  | nil => rfl
  | cons c t =>
    have hc := (h c rfl).2.1
    rw [Text.fraction]
    rintro u ⟨⟩
    exact hc rfl

/-- And no exponent. -/
theorem EndsNumber.exponent (h : EndsNumber t) : exponent t = 0 := by
  cases t with
  | nil => rfl
  | cons c t =>
    have hc := (h c rfl).2.2
    simp only [Text.exponent, hc.1, hc.2, or_self, if_false]

theorem endsDigits_exponentText (e : Int) (t : List Char) :
    EndsDigits (exponentText e ++ t) := endsDigits_cons (by decide) _

theorem fraction_exponentText (e : Int) (t : List Char) :
    fraction (exponentText e ++ t) = ([], exponentText e ++ t) := rfl

theorem exponent_exponentText (e : Int) (ht : EndsDigits t) :
    exponent (exponentText e ++ t) = e := by
  have hdigits : digits (pad0 2 (udec e.natAbs) ++ t) = pad0 2 (udec e.natAbs) :=
    digits_append (fun _ => isDigit_pad0) ht
  by_cases hneg : e < 0
  · simp only [exponentText, if_pos hneg, List.cons_append, exponent, true_or, if_true, sign,
      hdigits, ofDigitChars_pad0]
    omega
  · simp only [exponentText, if_neg hneg, List.cons_append, exponent, true_or, if_true, sign,
      hdigits, ofDigitChars_pad0, Bool.false_eq_true, if_false]
    omega

theorem isSpace_digit {c : Char} (hc : c.isDigit = true) : isSpace c = false := by
  have hrange := toNat_of_isDigit hc
  have hspace : c ≠ ' ' := ne_of_isDigit hc (by decide)
  have hafter : ¬ c ≤ '\r' := by
    rw [Char.le_def, UInt32.le_iff_toNat_le]
    show ¬ c.toNat ≤ 13
    omega
  simp only [isSpace, hspace, hafter, decide_false, Bool.and_false, Bool.or_self]

/-- The sign is read back. -/
theorem sign_signText (neg : Bool) {c : Char} (hc : c.isDigit = true) (u : List Char) :
    sign ((signText neg ++ c :: u).dropWhile isSpace) = (neg, c :: u) := by
  have hspace := isSpace_digit hc
  cases neg with
  | true => rfl
  | false =>
    rw [signText, if_neg Bool.false_ne_true, List.nil_append,
      List.dropWhile_cons_of_neg (by rw [hspace]; exact Bool.false_ne_true), sign]
    · rintro u ⟨⟩
      cases hc
    · rintro u ⟨⟩
      cases hc

/-- A number with sign and digits: what is read depends on what follows the digits. -/
theorem strtod_signed (neg : Bool) {ds : List Char} (hds : ds ≠ [])
    (hdigits : ∀ c ∈ ds, c.isDigit = true) (ht : EndsDigits t) :
    strtod (signText neg ++ (ds ++ t)) =
      scaled neg (Nat.ofDigitChars 10 (ds ++ (fraction t).1) 0)
        (exponent (fraction t).2 - (fraction t).1.length) := by
  obtain ⟨c, cs, rfl⟩ := List.exists_cons_of_ne_nil hds
  have hsign := sign_signText neg (hdigits c List.mem_cons_self) (cs ++ t)
  rw [← List.cons_append] at hsign
  simp only [strtod, hsign, digits_append hdigits ht, afterDigits_append hdigits ht]

/-- A number with sign and digits is no word. -/
theorem numeral_udec (neg : Bool) (n : Nat) (u : List Char) :
    numeral (signText neg ++ (udec n ++ u)) = .number (strtod (signText neg ++ (udec n ++ u))) := by
  obtain ⟨c, cs, hudec⟩ := List.exists_cons_of_ne_nil (Nat.toDigits_ne_nil (n := n) (b := 10))
  have hc : c.isDigit = true :=
    isDigit_udec (n := n) (by rw [udec, hudec]; exact List.mem_cons_self)
  rw [udec, hudec]
  exact numeral_of_digit (sign_signText neg hc (cs ++ u)) hc

/-- Zeros at the end of the digits count as powers of ten. -/
theorem scaled_mul (neg : Bool) (m j : Nat) (e : Int) :
    scaled neg (m * 10 ^ j) e = scaled neg m (e + j) := by
  rw [scaled, scaled, zpow_add₀ (by norm_num), zpow_natCast]
  push_cast
  ring

theorem udec_ne_nil (n : Nat) : udec n ≠ [] := Nat.toDigits_ne_nil

/-- The digits behind the point. -/
theorem fraction_point {fs : List Char} (hfs : ∀ c ∈ fs, c.isDigit = true) (ht : EndsDigits t) :
    fraction ('.' :: (fs ++ t)) = (fs, t) := by
  rw [fraction, digits_append hfs ht, afterDigits_append hfs ht]

/-- A number with `k` decimals is read back as its digits over `10 ^ k`. -/
theorem strtod_fixed (neg : Bool) {k : Nat} (hk : 0 < k) (n : Nat) (ht : EndsDigits t) :
    strtod (signText neg ++ (fixed k n ++ t)) = scaled neg n (exponent t - k) := by
  have hfrac : fraction ('.' :: (pad0 k (udec (n % 10 ^ k)) ++ t)) =
      (pad0 k (udec (n % 10 ^ k)), t) :=
    fraction_point (fun _ => isDigit_pad0) ht
  have hlen : (pad0 k (udec (n % 10 ^ k))).length = k :=
    length_pad0 hk (Nat.mod_lt _ (Nat.pow_pos (by decide)))
  rw [fixed, List.append_assoc, List.cons_append,
    strtod_signed neg (udec_ne_nil _) (fun _ => isDigit_udec)
      (endsDigits_cons (by decide) _), hfrac, ofDigitChars_fixed hk, hlen]

/-- The zeros that are left out do not count. -/
theorem strtod_trimmed (neg : Bool) (k n : Nat) (ht : EndsDigits t) (hfrac : fraction t = ([], t)) :
    strtod (signText neg ++ (trimmed k n ++ t)) = scaled neg n (exponent t - k) := by
  let zeros := (pad0 k (udec (n % 10 ^ k))).rtakeWhile (· = '0')
  let frac := (pad0 k (udec (n % 10 ^ k))).rdropWhile (· = '0')
  have hsplit : frac ++ zeros = pad0 k (udec (n % 10 ^ k)) := List.rdropWhile_append_rtakeWhile
  have hzeros : zeros = List.replicate zeros.length '0' :=
    List.eq_replicate_of_mem fun c hc =>
      of_decide_eq_true (List.mem_rtakeWhile_imp (p := fun d => decide (d = '0')) hc)
  have hdigits : ∀ c ∈ frac, c.isDigit = true := fun c hc =>
    isDigit_pad0 (hsplit ▸ List.mem_append_left _ hc)
  by_cases hempty : frac = []
  · have hmod : n % 10 ^ k = 0 := by
      rw [← ofDigitChars_pad0 k (n % 10 ^ k), ← hsplit, hempty, List.nil_append, hzeros,
        Nat.ofDigitChars_replicate_zero, Nat.mul_zero]
    have htrimmed : trimmed k n = udec (n / 10 ^ k) := if_pos (List.isEmpty_iff.2 hempty)
    have hn : n / 10 ^ k * 10 ^ k = n := Nat.div_mul_cancel (Nat.dvd_of_mod_eq_zero hmod)
    rw [htrimmed, strtod_signed neg (udec_ne_nil _) (fun _ => isDigit_udec) ht, hfrac,
      List.append_nil, udec, Nat.ofDigitChars_ten_toDigits, ← hn, scaled_mul, hn]
    simp
  · have hk : 0 < k := by
      -- without decimals the fraction is a single zero
      by_contra hk
      obtain rfl : k = 0 := by omega
      have hmod : n % 10 ^ 0 = 0 := Nat.mod_one n
      refine hempty ?_
      show (pad0 0 (udec (n % 10 ^ 0))).rdropWhile (· = '0') = []
      rw [hmod]
      rfl
    have hlen : frac.length + zeros.length = k := by
      rw [← List.length_append, hsplit]
      exact length_pad0 hk (Nat.mod_lt _ (Nat.pow_pos (by decide)))
    have hn : Nat.ofDigitChars 10 (udec (n / 10 ^ k) ++ frac) 0 * 10 ^ zeros.length = n := by
      have hall := ofDigitChars_fixed hk n
      rw [← hsplit, hzeros, ← List.append_assoc, Nat.ofDigitChars_append,
        Nat.ofDigitChars_replicate_zero, Nat.mul_comm] at hall
      exact hall
    have htrimmed : trimmed k n = udec (n / 10 ^ k) ++ '.' :: frac :=
      if_neg (mt List.isEmpty_iff.1 hempty)
    rw [htrimmed, List.append_assoc, List.cons_append,
      strtod_signed neg (udec_ne_nil _) (fun _ => isDigit_udec) (endsDigits_cons (by decide) _),
      fraction_point hdigits ht]
    show scaled neg (Nat.ofDigitChars 10 (udec (n / 10 ^ k) ++ frac) 0) (exponent t - frac.length) =
      scaled neg n (exponent t - k)
    conv_rhs => rw [← hn]
    rw [scaled_mul]
    congr 1
    omega

/-- The sign of zero does not count. -/
theorem scaled_sign {neg : Bool} {q : ℚ} (hsign : q ≠ 0 → neg = decide (q < 0)) {m : Nat}
    (hm : q = 0 → m = 0) (e : Int) : scaled neg m e = scaled (q < 0) m e := by
  by_cases hq : q = 0
  · rw [hm hq, scaled, scaled]
    simp
  · rw [hsign hq]

/-- `.kf` writes the rounded value. -/
theorem strtod_fixedText {neg : Bool} {q : ℚ} (hsign : q ≠ 0 → neg = decide (q < 0)) {k : Nat}
    (hk : 0 < k) (ht : EndsNumber t) : strtod (fixedText k neg q ++ t) = roundTo k q := by
  have hzero : q = 0 → roundEven (|q| * 10 ^ k) = 0 := by
    rintro rfl
    rw [abs_zero, zero_mul, roundEven_zero]
  rw [fixedText, List.append_assoc, strtod_fixed neg hk _ ht.digits, ht.exponent, zero_sub, roundTo,
    scaled_sign hsign hzero]

/-- `g` writes the six significant digits. -/
theorem strtod_generalText {neg : Bool} {q : ℚ} (hsign : q ≠ 0 → neg = decide (q < 0))
    (ht : EndsNumber t) : strtod (generalText neg q ++ t) = roundSig q := by
  have hzero : q = 0 → (sixDigits q).1 = 0 := by
    rintro rfl
    rfl
  rw [generalText, roundSig, ← scaled_sign hsign hzero]
  generalize sixDigits q = p
  obtain ⟨m, e⟩ := p
  simp only
  split
  · rw [List.append_assoc, List.append_assoc,
      strtod_trimmed neg 5 m (endsDigits_exponentText e t) (fraction_exponentText e t),
      exponent_exponentText e ht.digits]
    rfl
  case isFalse h =>
    rw [List.append_assoc, strtod_trimmed neg _ m ht.digits ht.fraction, ht.exponent]
    congr 1
    omega

/-- A text of `%.kf` has a number at its head. -/
theorem numeral_fixedText (neg : Bool) (q : ℚ) (k : Nat) (t : List Char) :
    numeral (fixedText k neg q ++ t) = .number (strtod (fixedText k neg q ++ t)) := by
  rw [fixedText, fixed, List.append_assoc, List.append_assoc]
  exact numeral_udec neg _ _

/-- So has one of `:g`. -/
theorem numeral_generalText (neg : Bool) (q : ℚ) (t : List Char) :
    numeral (generalText neg q ++ t) = .number (strtod (generalText neg q ++ t)) := by
  have htrimmed : ∀ k n, ∃ u, trimmed k n = udec (n / 10 ^ k) ++ u := by
    intro k n
    rw [trimmed]
    split
    · exact ⟨[], (List.append_nil _).symm⟩
    · exact ⟨_, rfl⟩
  rw [generalText]
  generalize sixDigits q = p
  obtain ⟨m, e⟩ := p
  simp only
  split
  · obtain ⟨u, hu⟩ := htrimmed 5 m
    rw [hu, List.append_assoc, List.append_assoc, List.append_assoc]
    exact numeral_udec neg _ _
  · obtain ⟨u, hu⟩ := htrimmed (5 - e).toNat m
    rw [hu, List.append_assoc, List.append_assoc]
    exact numeral_udec neg _ _

end Reading

/-! ### The values that are written -/

/-- Rounded to `k` decimals, a number moves by half a unit of the last one. -/
theorem abs_round_sub_le {q : ℚ} (hq : 0 ≤ q) (k : Int) :
    |roundEven (q * 10 ^ k) * 10 ^ (-k) - q| ≤ 1 / 2 * (10 : ℚ) ^ (-k) := by
  have hpos : ∀ e : Int, (0 : ℚ) < 10 ^ e := fun e => zpow_pos (by norm_num) e
  have hround := abs_roundEven_sub_le (mul_nonneg hq (hpos k).le)
  have hback : q * 10 ^ k * 10 ^ (-k) = q := by
    rw [mul_assoc, ← zpow_add₀ (by norm_num), add_neg_cancel, zpow_zero, mul_one]
  have hdiff : roundEven (q * 10 ^ k) * 10 ^ (-k) - q =
      (roundEven (q * 10 ^ k) - q * 10 ^ k) * 10 ^ (-k) := by
    rw [sub_mul, hback]
  rw [hdiff, abs_mul, abs_of_pos (hpos _)]
  exact mul_le_mul_of_nonneg_right hround (hpos _).le

theorem abs_scaled_sub_le {q r : ℚ} {m : Nat} {e : Int} (h : |m * (10 : ℚ) ^ e - abs q| ≤ r) :
    |scaled (q < 0) m e - q| ≤ r := by
  by_cases hneg : q < 0
  · have habs : |q| = -q := abs_of_neg hneg
    rw [habs, ← abs_neg] at h
    rw [scaled, if_pos (decide_eq_true hneg)]
    convert h using 2
    ring
  · rw [abs_of_nonneg (not_lt.1 hneg)] at h
    rwa [scaled, if_neg (by simpa using hneg), one_mul]

/-- `.kf` rounds to the nearest decimal. -/
theorem abs_roundTo_sub_le (k : Nat) (q : ℚ) : |roundTo k q - q| ≤ 1 / 2 * 10 ^ (-(k : Int)) := by
  have hround := abs_round_sub_le (abs_nonneg q) k
  rw [zpow_natCast] at hround
  exact abs_scaled_sub_le hround

/-- The digits of `g` before a carry through all of them is shortened. -/
theorem sixDigits_value {q : ℚ} (hq : q ≠ 0) :
    ((sixDigits q).1 : ℚ) * 10 ^ ((sixDigits q).2 - 5) =
      roundEven (|q| * 10 ^ (5 - Int.log 10 |q|)) * 10 ^ (-(5 - Int.log 10 |q|)) := by
  rw [sixDigits, if_neg hq]
  simp only
  split
  case isTrue h =>
    rw [h, show Int.log 10 |q| + 1 - 5 = 1 + -(5 - Int.log 10 |q|) by omega,
      zpow_add₀ (by norm_num : (10 : ℚ) ≠ 0)]
    push_cast
    ring
  case isFalse h =>
    rw [show Int.log 10 |q| - 5 = -(5 - Int.log 10 |q|) by omega]

/-- There are six significant digits. -/
theorem sixDigits_range {q : ℚ} (hq : q ≠ 0) :
    10 ^ 5 ≤ (sixDigits q).1 ∧ (sixDigits q).1 < 10 ^ 6 := by
  have hpos : 0 < |q| := abs_pos.2 hq
  let e := Int.log 10 |q|
  have hscale : (0 : ℚ) < 10 ^ (5 - e) := zpow_pos (by norm_num) _
  -- the exponent puts the scaled number between `10 ^ 5` and `10 ^ 6`
  have hlo : (10 : ℚ) ^ e ≤ |q| := Int.zpow_log_le_self (by decide) hpos
  have hhi : |q| < (10 : ℚ) ^ (e + 1) := Int.lt_zpow_succ_log_self (by decide) |q|
  have hlo' : ((10 ^ 5 : Nat) : ℚ) ≤ |q| * 10 ^ (5 - e) := by
    have hmul := mul_le_mul_of_nonneg_right hlo hscale.le
    rwa [← zpow_add₀ (by norm_num), add_sub_cancel] at hmul
  have hhi' : |q| * 10 ^ (5 - e) < ((10 ^ 6 : Nat) : ℚ) := by
    have hmul := mul_lt_mul_of_pos_right hhi hscale
    rwa [← zpow_add₀ (by norm_num), show e + 1 + (5 - e) = 6 by omega] at hmul
  have hfloor : 10 ^ 5 ≤ ⌊|q| * 10 ^ (5 - e)⌋₊ := Nat.le_floor hlo'
  have hceil : ⌊|q| * 10 ^ (5 - e)⌋₊ < 10 ^ 6 := Nat.floor_lt' (by decide) |>.2 hhi'
  have hround : 10 ^ 5 ≤ roundEven (|q| * 10 ^ (5 - e)) ∧
      roundEven (|q| * 10 ^ (5 - e)) ≤ 10 ^ 6 := by
    simp only [roundEven]
    split <;> omega
  rw [sixDigits, if_neg hq]
  simp only
  split
  · exact ⟨le_rfl, (by decide : 10 ^ 5 < 10 ^ 6)⟩
  case isFalse h => exact ⟨hround.1, lt_of_le_of_ne hround.2 h⟩

/-- `g` rounds to the nearest number with six significant digits. -/
theorem roundSig_spec {q : ℚ} (hq : q ≠ 0) :
    (∃ (m : Nat) (e : Int), 10 ^ 5 ≤ m ∧ m < 10 ^ 6 ∧ roundSig q = scaled (q < 0) m (e - 5)) ∧
    |roundSig q - q| ≤ 1 / 2 * 10 ^ (Int.log 10 |q| - 5) := by
  obtain ⟨hlo, hhi⟩ := sixDigits_range hq
  refine ⟨⟨_, _, hlo, hhi, rfl⟩, ?_⟩
  have hround := abs_round_sub_le (abs_nonneg q) (5 - Int.log 10 |q|)
  rw [← sixDigits_value hq, neg_sub] at hround
  exact abs_scaled_sub_le hround

end Text

end Waterbox
