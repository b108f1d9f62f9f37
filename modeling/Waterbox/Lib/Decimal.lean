import Mathlib.Algebra.Order.Field.Rat
import Waterbox.Lib.Text

namespace Waterbox

/-!
# Decimal numbers in texts

`strtod` reads the decimal number at the start of a text, exactly: an optional sign, digits with
an optional point, and an optional exponent.  What follows the number is ignored.

* `numeral` — the number or the word that a text begins with.
* `strtod_word` — a word has no digits.
-/

namespace Text

/-- An optional sign: whether it is a minus, and the text after it. -/
def sign : List Char → Bool × List Char
  | '-' :: t => (true, t)
  | '+' :: t => (false, t)
  | t => (false, t)

/-- The digits at the start of a text. -/
def digits (t : List Char) : List Char := t.takeWhile Char.isDigit

/-- The text after the digits at its start. -/
def afterDigits (t : List Char) : List Char := t.dropWhile Char.isDigit

/-- The digits after a point: the fraction, and the text after it. -/
def fraction : List Char → List Char × List Char
  | '.' :: t => (digits t, afterDigits t)
  | t => ([], t)

/-- The exponent at the start of a text, 0 where there is none. -/
def exponent : List Char → Int
  | c :: t =>
    if c = 'e' ∨ c = 'E' then
      let (neg, ds) := sign t
      let n : Int := Nat.ofDigitChars 10 (digits ds) 0
      if neg then -n else n
    else 0
  | [] => 0

/-- The number `± m · 10 ^ k`. -/
def scaled (neg : Bool) (m : Nat) (k : Int) : ℚ := (if neg then -1 else 1) * m * 10 ^ k

/-- White space in the sense of `isspace`. -/
def isSpace (c : Char) : Bool := c = ' ' || ('\t' ≤ c && c ≤ '\r')

/-- The value `strtod` reads at the start of a text, 0 where there is no number. -/
def strtod (text : List Char) : ℚ :=
  let (neg, t) := sign (text.dropWhile isSpace)
  let (frac, rest) := fraction (afterDigits t)
  scaled neg (Nat.ofDigitChars 10 (digits t ++ frac) 0) (exponent rest - frac.length)

example : strtod "-12.50e1,".toList = -125 := by decide +kernel

/-! ### Words for numbers -/

/-- What a text begins with in the sense of `strtod`. -/
inductive Numeral where
  | number (q : ℚ)
  | infinity (neg : Bool)
  | nan
deriving DecidableEq

/-- The words `inf` and `nan` may stand behind a sign, in upper and lower case. -/
def numeral (text : List Char) : Numeral :=
  let (neg, t) := sign (text.dropWhile isSpace)
  let word := (t.take 3).map Char.toLower
  if word = "inf".toList then .infinity neg
  else if word = "nan".toList then .nan
  else .number (strtod text)

example : numeral " -Infinity".toList = .infinity true ∧ numeral "true".toList = .number 0 := by
  decide +kernel

/-! ### Digits that are written are read back -/

/-- A text that a run of digits ends at. -/
def EndsDigits (t : List Char) : Prop := ∀ c ∈ t.head?, c.isDigit = false

theorem endsDigits_cons {c : Char} (hc : c.isDigit = false) (t : List Char) :
    EndsDigits (c :: t) := by
  intro d hd
  cases hd
  exact hc

theorem toNat_of_isDigit {c : Char} (hc : c.isDigit = true) : 48 ≤ c.toNat ∧ c.toNat ≤ 57 := by
  simp only [Char.isDigit, Bool.and_eq_true, decide_eq_true_eq, ge_iff_le, UInt32.le_iff_toNat_le]
    at hc
  exact hc

theorem ne_of_isDigit {c d : Char} (hc : c.isDigit = true) (hd : d.isDigit = false) : c ≠ d := by
  rintro rfl
  rw [hc] at hd
  cases hd

/-- A letter does not begin a number. -/
theorem strtod_of_letter {text t : List Char} {neg : Bool} {c : Char}
    (htext : sign (text.dropWhile isSpace) = (neg, c :: t)) (hdigit : c.isDigit = false)
    (hpoint : c ≠ '.') : strtod text = 0 := by
  have hends : EndsDigits (c :: t) := endsDigits_cons hdigit t
  have hdigits : digits (c :: t) = [] := by
    simp [digits, hdigit]
  have hafter : afterDigits (c :: t) = c :: t := by
    simp [afterDigits, hdigit]
  have hfraction : fraction (c :: t) = ([], c :: t) := by
    rw [fraction]
    rintro u ⟨⟩
    exact hpoint rfl
  simp only [strtod, htext, hdigits, hafter, hfraction, List.append_nil, Nat.ofDigitChars_nil,
    scaled, Nat.cast_zero, mul_zero, zero_mul]

theorem toLower_of_isDigit {c : Char} (hc : c.isDigit = true) : c.toLower = c := by
  have hrange := toNat_of_isDigit hc
  refine dif_neg fun h => ?_
  have hletter : 65 ≤ c.toNat := UInt32.le_iff_toNat_le.1 h.1
  omega

/-- A word begins with its first letter. -/
theorem head_of_word {t w : List Char} {d : Char} (hd : d.isDigit = false) (hpoint : d ≠ '.')
    (h : (t.take 3).map Char.toLower = d :: w) :
    ∃ c u, t = c :: u ∧ c.isDigit = false ∧ c ≠ '.' := by
  cases t with
  | nil => cases h
  | cons c u =>
    rw [List.take_succ_cons, List.map_cons] at h
    have hlower : c.toLower = d := (List.cons.inj h).1
    refine ⟨c, u, rfl, ?_, ?_⟩
    · by_contra hdigit
      rw [Bool.not_eq_false] at hdigit
      rw [toLower_of_isDigit hdigit] at hlower
      rw [hlower, hd] at hdigit
      cases hdigit
    · rintro rfl
      exact hpoint hlower.symm

/-- A word is read as 0 where only numbers are read. -/
theorem strtod_word {text : List Char} (h : ∀ q, numeral text ≠ .number q) : strtod text = 0 := by
  rw [numeral] at h
  cases htext : sign (text.dropWhile isSpace) with
  | mk neg t =>
    have hzero : (∃ c u, t = c :: u ∧ c.isDigit = false ∧ c ≠ '.') → strtod text = 0 := by
      rintro ⟨c, u, rfl, hdigit, hpoint⟩
      exact strtod_of_letter htext hdigit hpoint
    simp only [htext] at h
    split_ifs at h with hinf hnan
    · exact hzero (head_of_word (by decide) (by decide) hinf)
    · exact hzero (head_of_word (by decide) (by decide) hnan)
    · exact absurd rfl (h _)

theorem strtod_of_numeral {text : List Char} {q : ℚ} (h : numeral text = .number q) :
    strtod text = q := by
  simp only [numeral] at h
  split_ifs at h
  exact Numeral.number.inj h

/-- A digit begins a number. -/
theorem numeral_of_digit {text t : List Char} {neg : Bool} {c : Char}
    (htext : sign (text.dropWhile isSpace) = (neg, c :: t)) (hdigit : c.isDigit = true) :
    numeral text = .number (strtod text) := by
  have hword : ∀ (d : Char) (w : List Char), d.isDigit = false → d ≠ '.' →
      ((c :: t).take 3).map Char.toLower ≠ d :: w := by
    intro d w hd hpoint h
    obtain ⟨_, _, hcons, hno, -⟩ := head_of_word hd hpoint h
    rw [← (List.cons.inj hcons).1, hdigit] at hno
    cases hno
  have hinf := hword 'i' ['n', 'f'] (by decide) (by decide)
  have hnan := hword 'n' ['a', 'n'] (by decide) (by decide)
  simp only [numeral, htext]
  exact (if_neg hinf).trans (if_neg hnan)

theorem isDigit_udec {n : Nat} {c : Char} (hc : c ∈ udec n) : c.isDigit = true :=
  Nat.isDigit_of_mem_toDigits (by decide) (by decide) hc

theorem isDigit_pad0 {w n : Nat} {c : Char} (hc : c ∈ pad0 w (udec n)) : c.isDigit = true := by
  rcases List.mem_append.1 hc with hc | hc
  · rw [List.eq_of_mem_replicate hc]
    rfl
  · exact isDigit_udec hc

theorem digits_append {ds t : List Char} (hds : ∀ c ∈ ds, c.isDigit = true) (ht : EndsDigits t) :
    digits (ds ++ t) = ds := by
  rw [digits, List.takeWhile_append_of_pos hds]
  cases t with
  | nil => simp
  | cons c t => simp [ht c rfl]

theorem afterDigits_append {ds t : List Char} (hds : ∀ c ∈ ds, c.isDigit = true)
    (ht : EndsDigits t) : afterDigits (ds ++ t) = t := by
  rw [afterDigits, List.dropWhile_append_of_pos hds]
  cases t with
  | nil => rfl
  | cons c t => simp [ht c rfl]

/-- Leading zeros do not change the number. -/
theorem ofDigitChars_pad0 (w n : Nat) : Nat.ofDigitChars 10 (pad0 w (udec n)) 0 = n := by
  rw [pad0, Nat.ofDigitChars_append, Nat.ofDigitChars_replicate_zero, Nat.mul_zero, udec,
    Nat.ofDigitChars_ten_toDigits]

theorem length_udec_le {n k : Nat} (hk : 0 < k) : (udec n).length ≤ k ↔ n < 10 ^ k :=
  Nat.length_toDigits_le_iff (by decide) hk

theorem length_pad0 {w n : Nat} (hw : 0 < w) (hn : n < 10 ^ w) : (pad0 w (udec n)).length = w := by
  have hlen : (udec n).length ≤ w := (length_udec_le hw).2 hn
  rw [pad0, List.length_append, List.length_replicate]
  omega

/-- The digits of `fixed k n` are those of `n`. -/
theorem ofDigitChars_fixed {k : Nat} (hk : 0 < k) (n : Nat) :
    Nat.ofDigitChars 10 (udec (n / 10 ^ k) ++ pad0 k (udec (n % 10 ^ k))) 0 = n := by
  have hpos : 0 < 10 ^ k := Nat.pow_pos (by decide)
  rw [Nat.ofDigitChars_append, Nat.ofDigitChars_eq_ofDigitChars_zero,
    length_pad0 hk (Nat.mod_lt _ hpos), ofDigitChars_pad0, udec, Nat.ofDigitChars_ten_toDigits,
    Nat.div_add_mod]

/-- A number of more than one digit does not begin with a zero. -/
theorem udec_cons {n : Nat} (hn : 0 < n) :
    ∃ c ds, udec n = c :: ds ∧ c.isDigit = true ∧ c ≠ '0' := by
  induction n using Nat.strong_induction_on with
  | _ n ih =>
    by_cases hlt : n < 10
    · refine ⟨n.digitChar, [], Nat.toDigits_of_lt_base hlt, ?_, ?_⟩
      · simpa [Nat.isDigit_digitChar] using hlt
      · simpa using hn.ne'
    · obtain ⟨c, ds, hudec, hdigit, hzero⟩ := ih (n / 10) (by omega) (by omega)
      refine ⟨c, ds ++ [(n % 10).digitChar], ?_, hdigit, hzero⟩
      rw [udec, Nat.toDigits_of_base_le (by decide) (by omega), ← udec, hudec, List.cons_append]

end Text

end Waterbox
