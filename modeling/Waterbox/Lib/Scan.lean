import Waterbox.Lib.Format

namespace Waterbox

/-!
# Reading fields in the manner of `sscanf`

A format is a list of directives.  `scan` gives the values it converts up to the first directive
that does not match; their number is what `sscanf` returns.
-/

namespace Text

inductive Directive
  /-- White space in the format, which matches any amount of it. -/
  | space
  | literal (c : Char)
  /-- `%d`, of at most `width` characters. -/
  | int (width : Nat)
  /-- `%i`, which takes the base from the digits. -/
  | anyInt
  /-- `%s`. -/
  | word

/-- A value that was converted. -/
inductive Item
  | int (n : Int)
  | word (s : List Char)
deriving DecidableEq

/-- The part of a format that has no conversions. -/
def plain (s : List Char) : List Directive :=
  s.map fun c => if isSpace c then .space else .literal c

/-- The value of a digit in any base up to 16. -/
def digitValue (c : Char) : Nat :=
  if c.isDigit then c.toNat - '0'.toNat
  else if 'a' ≤ c ∧ c ≤ 'f' then c.toNat - 'a'.toNat + 10
  else if 'A' ≤ c ∧ c ≤ 'F' then c.toNat - 'A'.toNat + 10
  else 16

/-- The digits of a base at the start of a text, as a number, and the rest. -/
def readDigits (base : Nat) (t : List Char) : Option (Nat × List Char) :=
  match t.takeWhile (digitValue · < base) with
  | [] => none
  | d :: ds => some ((d :: ds).foldl (fun n c => base * n + digitValue c) 0,
      t.dropWhile (digitValue · < base))

def signed (neg : Bool) (n : Nat) : Int := if neg then -n else n

/-- `%d` of at most `width` characters. -/
def readInt (width : Nat) (t : List Char) : Option (Int × List Char) :=
  let t := t.dropWhile isSpace
  let (neg, body) := sign (t.take width)
  (readDigits 10 body).map fun (n, rest) => (signed neg n, rest ++ t.drop width)

/-- The base of a number, from its prefix, and where its digits begin. -/
def anyBase (t : List Char) : Nat × List Char :=
  if t.head? = some '0' then
    if t[1]? = some 'x' ∨ t[1]? = some 'X' then (16, t.drop 2) else (8, t)
  else (10, t)

/-- `%i`. -/
def readAnyInt (t : List Char) : Option (Int × List Char) :=
  let (neg, body) := sign (t.dropWhile isSpace)
  let (base, digits) := anyBase body
  (readDigits base digits).map fun (n, rest) => (signed neg n, rest)

/-- `%s`. -/
def readWord (t : List Char) : Option (List Char × List Char) :=
  let t := t.dropWhile isSpace
  match t.takeWhile (!isSpace ·) with
  | [] => none
  | c :: s => some (c :: s, t.dropWhile (!isSpace ·))

/-- The values converted from a text. -/
def scan : List Directive → List Char → List Item
  | [], _ => []
  | .space :: ds, t => scan ds (t.dropWhile isSpace)
  | .literal c :: ds, t =>
    match t with
    | [] => []
    | d :: t => if d = c then scan ds t else []
  | .int width :: ds, t =>
    match readInt width t with
    | none => []
    | some (n, t) => .int n :: scan ds t
  | .anyInt :: ds, t =>
    match readAnyInt t with
    | none => []
    | some (n, t) => .int n :: scan ds t
  | .word :: ds, t =>
    match readWord t with
    | none => []
    | some (s, t) => .word s :: scan ds t

/-! ### Digits -/

theorem digitValue_digit {c : Char} (hc : c.isDigit = true) : digitValue c = c.toNat - '0'.toNat :=
  if_pos hc

theorem digitValue_lt_ten {c : Char} : digitValue c < 10 ↔ c.isDigit = true := by
  unfold digitValue
  split_ifs with hdigit
  · have hrange := toNat_of_isDigit hdigit
    have hzero : '0'.toNat = 48 := rfl
    exact ⟨fun _ => hdigit, fun _ => by omega⟩
  all_goals exact ⟨fun h => by omega, fun h => absurd h hdigit⟩

/-- A run of digits of a base up to ten is read as a number. -/
theorem readDigits_append {base : Nat} (hbase : base ≤ 10) {ds t : List Char} (hne : ds ≠ [])
    (hds : ∀ c ∈ ds, digitValue c < base) (ht : EndsDigits t) :
    readDigits base (ds ++ t) = some (Nat.ofDigitChars base ds 0, t) := by
  have hin : ∀ c ∈ ds, decide (digitValue c < base) = true := fun c hc => decide_eq_true (hds c hc)
  have hout : ∀ c ∈ t.head?, decide (digitValue c < base) = false := by
    intro c hc
    have hnot : ¬ digitValue c < 10 := by
      rw [digitValue_lt_ten, ht c hc]
      exact Bool.false_ne_true
    exact decide_eq_false (by omega)
  have htake : (ds ++ t).takeWhile (digitValue · < base) = ds := by
    rw [List.takeWhile_append_of_pos hin]
    cases t with
    | nil => simp
    | cons c t => rw [List.takeWhile_cons, hout c rfl, if_neg Bool.false_ne_true, List.append_nil]
  have hdrop : (ds ++ t).dropWhile (digitValue · < base) = t := by
    rw [List.dropWhile_append_of_pos hin]
    cases t with
    | nil => rfl
    | cons c t => rw [List.dropWhile_cons, hout c rfl, if_neg Bool.false_ne_true]
  have hvalue : ∀ n,
      ds.foldl (fun n c => base * n + digitValue c) n = Nat.ofDigitChars base ds n := by
    clear hne hin htake hdrop
    induction ds with
    | nil => exact fun n => Nat.ofDigitChars_nil.symm
    | cons d ds ih =>
      intro n
      have hdigit : d.isDigit = true :=
        digitValue_lt_ten.1 (Nat.lt_of_lt_of_le (hds d List.mem_cons_self) hbase)
      rw [List.foldl_cons, ih fun c hc => hds c (List.mem_cons_of_mem d hc), Nat.ofDigitChars_cons,
        digitValue_digit hdigit]
  rw [readDigits, htake, hdrop]
  cases ds with
  | nil => exact absurd rfl hne
  | cons d ds => exact congrArg (fun n => some (n, t)) (hvalue 0)

theorem sign_digit {c : Char} (hc : c.isDigit = true) (t : List Char) :
    sign (c :: t) = (false, c :: t) := by
  have hplus : c ≠ '+' := ne_of_isDigit hc rfl
  have hminus : c ≠ '-' := ne_of_isDigit hc rfl
  simp [sign, hplus, hminus]

theorem dropWhile_space {c : Char} (hc : isSpace c = false) (t : List Char) :
    (c :: t).dropWhile isSpace = c :: t := by
  rw [List.dropWhile_cons, hc, if_neg Bool.false_ne_true]

/-! ### Directives -/

variable {ds : List Directive}

/-- A format's own text, without spaces, is skipped. -/
theorem scan_plain {s : List Char} (hs : ∀ c ∈ s, isSpace c = false) (t : List Char) :
    scan (plain s ++ ds) (s ++ t) = scan ds t := by
  induction s with
  | nil => rfl
  | cons c s ih =>
    have hc := hs c List.mem_cons_self
    show scan ((if isSpace c then Directive.space else .literal c) :: (plain s ++ ds)) _ = _
    rw [hc, if_neg Bool.false_ne_true]
    show (if c = c then scan (plain s ++ ds) (s ++ t) else []) = _
    rw [if_pos rfl]
    exact ih fun d hd => hs d (List.mem_cons_of_mem c hd)

/-- A format's own text converts nothing. -/
theorem scan_plain_end (s t : List Char) : scan (plain s) t = [] := by
  induction s generalizing t with
  | nil => rfl
  | cons c s ih =>
    show scan ((if isSpace c then Directive.space else .literal c) :: plain s) t = []
    cases isSpace c with
    | true => exact ih _
    | false =>
      cases t with
      | nil => rfl
      | cons d t =>
        show (if d = c then scan (plain s) t else []) = []
        rw [ih, ite_self]

/-- A format's own text is skipped with the space behind it. -/
theorem scan_heading {s t : List Char} (hs : ∀ c ∈ s, isSpace c = false)
    (ht : ∀ c ∈ t.head?, isSpace c = false) :
    scan (plain s ++ .space :: ds) (s ++ ' ' :: t) = scan ds t := by
  have hskip : (' ' :: t).dropWhile isSpace = t := by
    rw [List.dropWhile_cons, if_pos (by decide)]
    cases t with
    | nil => rfl
    | cons c t => exact dropWhile_space (ht c rfl) t
  rw [scan_plain hs, scan, hskip]

/-- A number of `w` digits is read by a conversion of that width. -/
theorem scan_int {w n : Nat} (hw : 0 < w) (hn : n < 10 ^ w) (t : List Char) :
    scan (.int w :: ds) (pad0 w (udec n) ++ t) = .int n :: scan ds t := by
  have hlen := length_pad0 hw hn
  have hdigits : ∀ c ∈ pad0 w (udec n), c.isDigit = true := fun c hc => isDigit_pad0 hc
  have hvalue := ofDigitChars_pad0 w n
  have hread : readInt w (pad0 w (udec n) ++ t) = some ((n : Int), t) := by
    generalize pad0 w (udec n) = u at hlen hdigits hvalue
    cases u with
    | nil => exact absurd hlen (by rw [List.length_nil]; omega)
    | cons c u =>
      have hc := hdigits c List.mem_cons_self
      have htake : (c :: (u ++ t)).take w = c :: u := by
        rw [← List.cons_append, List.take_left' hlen]
      have hdrop : (c :: (u ++ t)).drop w = t := by
        rw [← List.cons_append, List.drop_left' hlen]
      have hnum : readDigits 10 (c :: u) = some (n, []) := by
        have := readDigits_append (Nat.le_refl 10) (List.cons_ne_nil c u)
          (fun d hd => digitValue_lt_ten.2 (hdigits d hd)) (t := []) (by intro d hd; cases hd)
        rwa [List.append_nil, hvalue] at this
      rw [List.cons_append, readInt]
      simp only [dropWhile_space (isSpace_digit hc), htake, hdrop, sign_digit hc, hnum,
        Option.map_some, List.nil_append, signed, if_neg Bool.false_ne_true]
  rw [scan, hread]

/-- A text at which a number in any base ends. -/
def EndsAnyInt (t : List Char) : Prop := EndsDigits t ∧ ∀ c ∈ t.head?, c ≠ 'x' ∧ c ≠ 'X'

theorem endsAnyInt_cons {c : Char} (hc : c.isDigit = false) (hx : c ≠ 'x') (hX : c ≠ 'X')
    (t : List Char) : EndsAnyInt (c :: t) := by
  refine ⟨endsDigits_cons hc t, ?_⟩
  rintro d ⟨⟩
  exact ⟨hx, hX⟩

/-- A decimal number without leading zeros is read by `%i`. -/
theorem scan_anyInt {n : Nat} {t : List Char} (ht : EndsAnyInt t) :
    scan (.anyInt :: ds) (udec n ++ t) = .int n :: scan ds t := by
  obtain ⟨hdigits, hletter⟩ := ht
  have hread : readAnyInt (udec n ++ t) = some ((n : Int), t) := by
    rcases Nat.eq_zero_or_pos n with rfl | hn
    · -- a zero is read as a number in base eight
      have hbase : anyBase ('0' :: t) = (8, '0' :: t) := by
        have hx : t.head? ≠ some 'x' := fun h => (hletter 'x' h).1 rfl
        have hX : t.head? ≠ some 'X' := fun h => (hletter 'X' h).2 rfl
        rw [List.head?_eq_getElem?] at hx hX
        simp [anyBase, hx, hX]
      have hnum : readDigits 8 ('0' :: t) = some (0, t) :=
        readDigits_append (by decide) (List.cons_ne_nil '0' [])
          (List.forall_mem_singleton.2 (by decide)) hdigits
      have hc : '0'.isDigit = true := rfl
      rw [show udec 0 = ['0'] from rfl, List.singleton_append, readAnyInt]
      simp only [dropWhile_space (isSpace_digit hc), sign_digit hc, hbase, hnum, Option.map_some,
        signed, if_neg Bool.false_ne_true]
    · obtain ⟨c, u, hudec, hc, hzero⟩ := udec_cons hn
      have hbase : anyBase (c :: (u ++ t)) = (10, c :: (u ++ t)) := by
        simp [anyBase, hzero]
      have hall : ∀ d ∈ c :: u, digitValue d < 10 := fun d hd =>
        digitValue_lt_ten.2 (isDigit_udec (hudec ▸ hd))
      have hnum := readDigits_append (Nat.le_refl 10) (List.cons_ne_nil c u) hall hdigits
      rw [← hudec, udec, Nat.ofDigitChars_ten_toDigits, ← udec, hudec, List.cons_append] at hnum
      rw [hudec, List.cons_append, readAnyInt]
      simp only [dropWhile_space (isSpace_digit hc), sign_digit hc, hbase, hnum, Option.map_some,
        signed, if_neg Bool.false_ne_true]
  rw [scan, hread]

/-- A text without spaces is read by `%s` up to the next space. -/
theorem scan_word {w t : List Char} (hw : w ≠ []) (hsolid : ∀ c ∈ w, isSpace c = false)
    (ht : ∀ c ∈ t.head?, isSpace c = true) :
    scan (.word :: ds) (w ++ t) = .word w :: scan ds t := by
  have hin : ∀ c ∈ w, (!isSpace c) = true := fun c hc => by rw [hsolid c hc]; rfl
  have htake : (w ++ t).takeWhile (!isSpace ·) = w := by
    rw [List.takeWhile_append_of_pos hin]
    cases t with
    | nil => simp
    | cons c t => simp [ht c rfl]
  have hdrop : (w ++ t).dropWhile (!isSpace ·) = t := by
    rw [List.dropWhile_append_of_pos hin]
    cases t with
    | nil => rfl
    | cons c t => simp [ht c rfl]
  have hread : readWord (w ++ t) = some (w, t) := by
    cases w with
    | nil => exact absurd rfl hw
    | cons c w =>
      have hstart : (c :: w ++ t).dropWhile isSpace = c :: w ++ t :=
        dropWhile_space (hsolid c List.mem_cons_self) _
      rw [readWord, hstart]
      simp only [htake, hdrop]
  rw [scan, hread]

end Text

end Waterbox
