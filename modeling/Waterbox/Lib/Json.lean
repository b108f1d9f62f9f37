import Waterbox.Lib.Decimal

namespace Waterbox

/-!
# JSON texts

`Json.loads` reads a JSON text the way Python's `json.loads` does: numbers without fraction and
exponent are integers, the others are read into a number type of the caller's, `NaN` and
`Infinity` are admitted, and the last of several members with one key counts.  The texts are
decoded already; a lone surrogate, which a text of characters cannot hold, is refused.

* `Json.Denotes text v` — a text that is read as `v` wherever a value may stand.
* `Json.Member` — a member of an object together with the proof that its text is read as its value.
* `Json.loads_objectText` — an object written from such members is read back.
-/

open Text

/-- Numbers that the literals of JSON texts are read into. -/
class JsonFloat (D : Type) where
  /-- The number nearest to `± m · 10 ^ k`. -/
  ofDecimal : Bool → Nat → Int → D
  nan : D
  infinity : Bool → D

/-- The values of JSON texts. -/
inductive Json (D : Type) where
  | null
  | bool (b : Bool)
  | int (n : Int)
  | float (x : D)
  | str (s : List Char)
  | arr (items : List (Json D))
  | obj (members : List (List Char × Json D))

namespace Json

variable {D : Type}

/-! ### Reading -/

def isSpace (c : Char) : Bool := c = ' ' || c = '\t' || c = '\n' || c = '\r'

/-- The text after white space. -/
def skip (t : List Char) : List Char := t.dropWhile isSpace

/-- The value of a hexadecimal digit. -/
def hexDigit (c : Char) : Option Nat :=
  if c.isDigit then some (c.toNat - '0'.toNat)
  else if 'a' ≤ c ∧ c ≤ 'f' then some (c.toNat - 'a'.toNat + 10)
  else if 'A' ≤ c ∧ c ≤ 'F' then some (c.toNat - 'A'.toNat + 10)
  else none

def hex (ds : List Char) : Option Nat :=
  ds.foldl (fun n d => n.bind fun n => (hexDigit d).map (16 * n + ·)) (some 0)

/-- The character after a backslash, without `u`. -/
def escape : Char → Option Nat
  | '"' => some '"'.toNat
  | '\\' => some '\\'.toNat
  | '/' => some '/'.toNat
  | 'b' => some 8
  | 'f' => some 12
  | 'n' => some 10
  | 'r' => some 13
  | 't' => some 9
  | _ => none

/-- The code points of a string up to its closing quotation mark, and the text after it. -/
def codes : List Char → Option (List Nat × List Char)
  | [] => none
  | c :: t =>
    if c = '"' then some ([], t)
    else if c = '\\' then
      match t with
      | [] => none
      | e :: u =>
        if e = 'u' then
          match u with
          | a :: b :: c :: d :: v => do
            let n ← hex [a, b, c, d]
            let (s, rest) ← codes v
            some (n :: s, rest)
          | _ => none
        else do
          let n ← escape e
          let (s, rest) ← codes u
          some (n :: s, rest)
    else if c.toNat < 32 then none
    else do
      let (s, rest) ← codes t
      some (c.toNat :: s, rest)

/-- The characters of code points in which a surrogate pair stands for one character. -/
def joinSurrogates : List Nat → Option (List Char)
  | [] => some []
  | n :: s =>
    if 0xD800 ≤ n ∧ n < 0xDC00 then
      match s with
      | [] => none
      | m :: s =>
        if 0xDC00 ≤ m ∧ m < 0xE000 then
          (joinSurrogates s).map (Char.ofNat (0x10000 + (n - 0xD800) * 0x400 + (m - 0xDC00)) :: ·)
        else none
    else if 0xDC00 ≤ n ∧ n < 0xE000 then none
    else (joinSurrogates s).map (Char.ofNat n :: ·)

/-- A string after its opening quotation mark. -/
def string (t : List Char) : Option (List Char × List Char) := do
  let (ns, rest) ← codes t
  let s ← joinSurrogates ns
  some (s, rest)

section Reader

variable [JsonFloat D]

/-- The fraction of a number literal, and the text after it. -/
def fraction : List Char → List Char × List Char
  | '.' :: t => if (digits t).isEmpty then ([], '.' :: t) else (digits t, afterDigits t)
  | t => ([], t)

/-- The exponent of a number literal, where it has one, and the text after it. -/
def exponent : List Char → Option Int × List Char
  | c :: t =>
    if c = 'e' ∨ c = 'E' then
      let (neg, ds) := sign t
      let n : Int := Nat.ofDigitChars 10 (digits ds) 0
      if (digits ds).isEmpty then (none, c :: t)
      else (some (if neg then -n else n), afterDigits ds)
    else (none, c :: t)
  | [] => (none, [])

/-- A number literal after its integer digits. -/
def numberRest (neg : Bool) (ds t : List Char) : Json D × List Char :=
  let (frac, t) := fraction t
  let (e, t) := exponent t
  let m := Nat.ofDigitChars 10 (ds ++ frac) 0
  if frac.isEmpty ∧ e.isNone then (.int (if neg then -m else m), t)
  else (.float (JsonFloat.ofDecimal neg m (e.getD 0 - frac.length)), t)

/-- A number literal after its sign. -/
def unsigned (neg : Bool) : List Char → Option (Json D × List Char)
  | [] => none
  | c :: t =>
    if c = '0' then some (numberRest neg ['0'] t)
    else if c.isDigit then some (numberRest neg (digits (c :: t)) (afterDigits (c :: t)))
    else none

def number : List Char → Option (Json D × List Char)
  | '-' :: t => unsigned true t
  | t => unsigned false t

/-- The words that stand for a value. -/
def words : List (List Char × Json D) :=
  [("null".toList, .null), ("true".toList, .bool true), ("false".toList, .bool false),
   ("NaN".toList, .float JsonFloat.nan), ("Infinity".toList, .float (JsonFloat.infinity false)),
   ("-Infinity".toList, .float (JsonFloat.infinity true))]

/-- A word or a number. -/
def scalar (t : List Char) : Option (Json D × List Char) :=
  match words.find? fun w => w.1.isPrefixOf t with
  | some w => some (w.2, t.drop w.1.length)
  | none => number t

mutual

/-- The value at the start of a text, with at most `n` levels and members, and the text after
    it. -/
def value : Nat → List Char → Option (Json D × List Char)
  | 0, _ => none
  | n + 1, t =>
    match t with
    | '"' :: u => (string u).map fun r => (.str r.1, r.2)
    | '{' :: u =>
      match skip u with
      | '}' :: rest => some (.obj [], rest)
      | u => (members n u).map fun r => (.obj r.1, r.2)
    | '[' :: u =>
      match skip u with
      | ']' :: rest => some (.arr [], rest)
      | u => (elements n u).map fun r => (.arr r.1, r.2)
    | t => scalar t

/-- The members of an object from the key of one of them on. -/
def members : Nat → List Char → Option (List (List Char × Json D) × List Char)
  | 0, _ => none
  | n + 1, t =>
    match t with
    | '"' :: u =>
      match string u with
      | none => none
      | some (key, rest) =>
        match skip rest with
        | ':' :: rest =>
          match value n (skip rest) with
          | none => none
          | some (v, rest) =>
            match skip rest with
            | '}' :: rest => some ([(key, v)], rest)
            | ',' :: rest => (members n (skip rest)).map fun r => ((key, v) :: r.1, r.2)
            | _ => none
        | _ => none
    | _ => none

/-- The elements of an array from one of them on. -/
def elements : Nat → List Char → Option (List (Json D) × List Char)
  | 0, _ => none
  | n + 1, t =>
    match value n t with
    | none => none
    | some (v, rest) =>
      match skip rest with
      | ']' :: rest => some ([v], rest)
      | ',' :: rest => (elements n (skip rest)).map fun r => (v :: r.1, r.2)
      | _ => none

end

/-- `json.loads(text)`. -/
def loads (text : List Char) : Option (Json D) :=
  match value (text.length + 1) (skip text) with
  | some (v, rest) => if (skip rest).isEmpty then some v else none
  | none => none

end Reader

/-- The member of an object with a given key: the last one, where there are several. -/
def get (members : List (List Char × Json D)) (key : List Char) : Json D :=
  (members.reverse.lookup key).getD .null

/-! ### Reading what was written -/

/-- Characters that stand for themselves in a string. -/
def Plain (s : List Char) : Prop := ∀ c ∈ s, c ≠ '"' ∧ c ≠ '\\' ∧ 32 ≤ c.toNat

instance (s : List Char) : Decidable (Plain s) := List.decidableBAll _ s

theorem plain_digit {c : Char} (hc : c.isDigit = true) : c ≠ '"' ∧ c ≠ '\\' ∧ 32 ≤ c.toNat :=
  ⟨ne_of_isDigit hc rfl, ne_of_isDigit hc rfl, by have := toNat_of_isDigit hc; omega⟩

theorem codes_plain {s : List Char} (hs : Plain s) (rest : List Char) :
    codes (s ++ '"' :: rest) = some (s.map Char.toNat, rest) := by
  induction s with
  | nil =>
    rw [codes.eq_def]
    rfl
  | cons c s ih =>
    obtain ⟨hquote, hslash, hctl⟩ := hs c List.mem_cons_self
    have ih := ih fun d hd => hs d (List.mem_cons_of_mem _ hd)
    rw [codes.eq_def]
    simp only [List.cons_append, hquote, hslash, if_false, if_neg (Nat.not_lt.2 hctl), ih]
    rfl

/-- A character is no surrogate. -/
theorem joinSurrogates_map (s : List Char) : joinSurrogates (s.map Char.toNat) = some s := by
  induction s with
  | nil => rfl
  | cons c s ih =>
    have hvalid : c.toNat < 0xD800 ∨ 0xDFFF < c.toNat ∧ c.toNat < 0x110000 := c.valid
    have hhigh : ¬ (0xD800 ≤ c.toNat ∧ c.toNat < 0xDC00) := by omega
    have hlow : ¬ (0xDC00 ≤ c.toNat ∧ c.toNat < 0xE000) := by omega
    rw [joinSurrogates.eq_def]
    simp only [List.map_cons, hhigh, hlow, if_false, ih, Option.map_some, Char.ofNat_toNat]

theorem string_plain {s : List Char} (hs : Plain s) (rest : List Char) :
    string (s ++ '"' :: rest) = some (s, rest) := by
  simp only [string, codes_plain hs, Option.bind_eq_bind, Option.bind_some, joinSurrogates_map]

theorem skip_cons {c : Char} (hc : isSpace c = false) (t : List Char) : skip (c :: t) = c :: t := by
  simp [skip, hc]

/-- The characters that may follow a member's value where nothing is indented. -/
def Closes (c : Char) : Prop := c = ',' ∨ c = '}'

section Denotes

variable [JsonFloat D]

/-- `text` is read as `v` wherever a value may stand. -/
structure Denotes (text : List Char) (v : Json D) : Prop where
  solid : ∃ c t, text = c :: t ∧ isSpace c = false
  read : ∀ n c rest, Closes c → value (n + 1) (text ++ c :: rest) = some (v, c :: rest)

theorem Denotes.skip {text : List Char} {v : Json D} (h : Denotes text v) (rest : List Char) :
    skip (text ++ rest) = text ++ rest := by
  obtain ⟨c, t, rfl, hc⟩ := h.solid
  exact skip_cons hc _

/-- A string. -/
theorem denotes_str {s : List Char} (hs : Plain s) :
    Denotes (D := D) ('"' :: s ++ ['"']) (.str s) where
  solid := ⟨'"', _, rfl, rfl⟩
  read n c rest _ := by
    have hread := string_plain hs (c :: rest)
    simp only [List.cons_append, List.append_assoc, List.nil_append, value, hread, Option.map_some]

theorem fraction_closes {c : Char} (hc : Closes c) (rest : List Char) :
    fraction (c :: rest) = ([], c :: rest) := by
  rcases hc with rfl | rfl <;> rfl

theorem exponent_closes {c : Char} (hc : Closes c) (rest : List Char) :
    exponent (c :: rest) = (none, c :: rest) := by
  rcases hc with rfl | rfl <;> rfl

theorem endsDigits_closes {c : Char} (hc : Closes c) (rest : List Char) :
    EndsDigits (c :: rest) := by
  rcases hc with rfl | rfl <;> exact endsDigits_cons rfl _

/-- The integer digits of a number that is written without leading zeros. -/
theorem unsigned_udec (neg : Bool) (n : Nat) {t : List Char} (ht : EndsDigits t) :
    unsigned (D := D) neg (udec n ++ t) = some (numberRest neg (udec n) t) := by
  rcases Nat.eq_zero_or_pos n with rfl | hn
  · rfl
  obtain ⟨c, ds, hudec, hdigit, hzero⟩ := udec_cons hn
  have hall : ∀ d ∈ udec n, d.isDigit = true := fun d hd => isDigit_udec hd
  have hcons : udec n ++ t = c :: (ds ++ t) := by rw [hudec, List.cons_append]
  rw [hcons, unsigned, if_neg hzero, if_pos hdigit, ← hcons, digits_append hall ht,
    afterDigits_append hall ht]

theorem numberRest_int (neg : Bool) (n : Nat) {c : Char} (hc : Closes c) (rest : List Char) :
    numberRest (D := D) neg (udec n) (c :: rest) =
      (.int (if neg then -n else n), c :: rest) := by
  simp only [numberRest, fraction_closes hc, exponent_closes hc, List.append_nil, udec,
    Nat.ofDigitChars_ten_toDigits]
  rfl

theorem numberRest_fixed (neg : Bool) {k : Nat} (hk : 0 < k) (n : Nat) {c : Char} (hc : Closes c)
    (rest : List Char) :
    numberRest (D := D) neg (udec (n / 10 ^ k)) ('.' :: pad0 k (udec (n % 10 ^ k)) ++ c :: rest) =
      (.float (JsonFloat.ofDecimal neg n (-k)), c :: rest) := by
  have hlen : (pad0 k (udec (n % 10 ^ k))).length = k :=
    length_pad0 hk (Nat.mod_lt _ (Nat.pow_pos (by decide)))
  have hempty : (pad0 k (udec (n % 10 ^ k))).isEmpty = false := by
    rw [List.isEmpty_eq_false_iff, ← List.length_pos_iff, hlen]
    exact hk
  have hall : ∀ d ∈ pad0 k (udec (n % 10 ^ k)), d.isDigit = true := fun d hd => isDigit_pad0 hd
  have hends := endsDigits_closes hc rest
  have hfrac : fraction ('.' :: pad0 k (udec (n % 10 ^ k)) ++ c :: rest) =
      (pad0 k (udec (n % 10 ^ k)), c :: rest) := by
    simp only [fraction, List.cons_append, digits_append hall hends, afterDigits_append hall hends,
      hempty, Bool.false_eq_true, if_false]
  simp only [numberRest, hfrac, exponent_closes hc, ofDigitChars_fixed hk, hempty, hlen,
    Bool.false_eq_true, false_and, if_false, Option.getD_none]
  congr 3
  omega

/-- A text that begins with a digit, or with a minus and a digit, is no word. -/
theorem scalar_number {c : Char} {t : List Char}
    (hc : c.isDigit = true ∨ c = '-' ∧ ∀ d ∈ t.head?, d.isDigit = true) :
    scalar (D := D) (c :: t) = number (c :: t) := by
  have hnone : (words (D := D)).find? (fun w => w.1.isPrefixOf (c :: t)) = none := by
    rw [List.find?_eq_none]
    intro w hw
    -- `c` is a digit or a minus, so it is not the first letter of a word
    have hletter : ∀ d : Char, d.isDigit = false → d ≠ '-' → (d == c) = false := by
      intro d hd hminus
      rw [beq_eq_false_iff_ne]
      rintro rfl
      rcases hc with hc | ⟨hc, -⟩
      · rw [hd] at hc
        cases hc
      · exact hminus hc
    simp only [words, List.mem_cons, List.not_mem_nil, or_false] at hw
    rcases hw with rfl | rfl | rfl | rfl | rfl | rfl
    · simp [List.isPrefixOf, hletter 'n' rfl (by decide)]
    · simp [List.isPrefixOf, hletter 't' rfl (by decide)]
    · simp [List.isPrefixOf, hletter 'f' rfl (by decide)]
    · simp [List.isPrefixOf, hletter 'N' rfl (by decide)]
    · simp [List.isPrefixOf, hletter 'I' rfl (by decide)]
    · -- only this word begins with a minus, and no digit follows there
      rcases hc with hc | ⟨rfl, hc⟩
      · have hne : ('-' == c) = false := by
          rw [beq_eq_false_iff_ne]
          rintro rfl
          cases hc
        simp [List.isPrefixOf, hne]
      · cases t with
        | nil => simp [List.isPrefixOf]
        | cons d t =>
          have hne : ('I' == d) = false := by
            rw [beq_eq_false_iff_ne]
            rintro rfl
            have := hc 'I' rfl
            cases this
          simp [List.isPrefixOf, hne]
  rw [scalar, hnone]

theorem value_scalar {c : Char} (hquote : c ≠ '"') (hbrace : c ≠ '{') (hbracket : c ≠ '[')
    (n : Nat) (t : List Char) : value (D := D) (n + 1) (c :: t) = scalar (c :: t) := by
  rw [value.eq_def]
  simp only
  split
  · exact absurd (List.cons.inj ‹_›).1 hquote
  · exact absurd (List.cons.inj ‹_›).1 hbrace
  · exact absurd (List.cons.inj ‹_›).1 hbracket
  · rfl

/-- A number, once its digits are read. -/
theorem denotes_number (neg : Bool) {d : Char} {t : List Char} {v : Json D}
    (hd : d.isDigit = true)
    (h : ∀ c rest, Closes c → unsigned neg (d :: t ++ c :: rest) = some (v, c :: rest)) :
    Denotes (if neg then '-' :: d :: t else d :: t) v := by
  have hne : ∀ c : Char, c.isDigit = false → d ≠ c := by
    rintro c hc rfl
    rw [hd] at hc
    cases hc
  cases neg with
  | false =>
    refine ⟨⟨d, t, rfl, ?_⟩, fun n c rest hc => ?_⟩
    · simp [isSpace, hne ' ' rfl, hne '\t' rfl, hne '\n' rfl, hne '\r' rfl]
    · have hnumber : number (D := D) (d :: t ++ c :: rest) =
        unsigned false (d :: t ++ c :: rest) := by
        rw [number.eq_def]
        split
        · next h => cases h; exact absurd rfl (hne '-' rfl)
        · rfl
      simp only [Bool.false_eq_true, if_false]
      rw [List.cons_append, value_scalar (hne _ rfl) (hne _ rfl) (hne _ rfl),
        scalar_number (.inl hd), ← List.cons_append, hnumber, h c rest hc]
  -- behind the minus, the digits are read as without it
  | true =>
    refine ⟨⟨'-', d :: t, rfl, rfl⟩, fun n c rest hc => ?_⟩
    simp only [if_true]
    rw [List.cons_append, value_scalar (by decide) (by decide) (by decide), scalar_number]
    · exact h c rest hc
    · refine .inr ⟨rfl, fun e he => ?_⟩
      cases he
      exact hd

/-- The number `%u` writes. -/
theorem denotes_udec (n : Nat) : Denotes (D := D) (udec n) (.int n) := by
  obtain ⟨d, t, hudec, hd⟩ : ∃ d t, udec n = d :: t ∧ d.isDigit = true := by
    cases h : udec n with
    | nil => exact absurd h Nat.toDigits_ne_nil
    | cons d t => exact ⟨d, t, rfl, isDigit_udec (h ▸ List.mem_cons_self)⟩
  rw [hudec]
  refine denotes_number false hd fun c rest hc => ?_
  rw [← hudec, unsigned_udec false n (endsDigits_closes hc rest), numberRest_int false n hc]
  rfl

/-- The number `%d` writes. -/
theorem denotes_sdec (n : Int) : Denotes (D := D) (sdec n) (.int n) := by
  obtain ⟨d, t, hudec, hd⟩ : ∃ d t, udec n.natAbs = d :: t ∧ d.isDigit = true := by
    cases h : udec n.natAbs with
    | nil => exact absurd h Nat.toDigits_ne_nil
    | cons d t => exact ⟨d, t, rfl, isDigit_udec (h ▸ List.mem_cons_self)⟩
  have hsdec : sdec n = if decide (n < 0) then '-' :: d :: t else d :: t := by
    simp only [sdec, hudec, decide_eq_true_eq]
  rw [hsdec]
  refine denotes_number _ hd fun c rest hc => ?_
  rw [← hudec, unsigned_udec _ _ (endsDigits_closes hc rest), numberRest_int _ _ hc]
  congr 3
  rcases lt_or_ge n 0 with hneg | hneg
  · rw [decide_eq_true hneg, if_pos rfl]
    omega
  · rw [decide_eq_false (by omega), if_neg (by decide)]
    omega

/-- A decimal fraction. -/
theorem denotes_fixed (neg : Bool) {k : Nat} (hk : 0 < k) (n : Nat) :
    Denotes (D := D) (if neg then '-' :: fixed k n else fixed k n)
      (.float (JsonFloat.ofDecimal neg n (-k))) := by
  obtain ⟨d, t, hudec, hd⟩ : ∃ d t, udec (n / 10 ^ k) = d :: t ∧ d.isDigit = true := by
    cases h : udec (n / 10 ^ k) with
    | nil => exact absurd h Nat.toDigits_ne_nil
    | cons d t => exact ⟨d, t, rfl, isDigit_udec (h ▸ List.mem_cons_self)⟩
  have hfixed : fixed k n = d :: (t ++ '.' :: pad0 k (udec (n % 10 ^ k))) := by
    rw [fixed, hudec, List.cons_append]
  rw [hfixed]
  refine denotes_number neg hd fun c rest hc => ?_
  have hpoint : EndsDigits ('.' :: pad0 k (udec (n % 10 ^ k)) ++ c :: rest) :=
    endsDigits_cons rfl _
  rw [← hfixed, fixed, List.append_assoc, unsigned_udec neg _ hpoint, numberRest_fixed neg hk n hc]

end Denotes

/-! ### Objects -/

/-- A member of an object, written: its text is read as its value. -/
structure Member (D : Type) [JsonFloat D] where
  key : List Char
  text : List Char
  value : Json D
  plain : Plain key
  denotes : Denotes text value

section Object

variable [JsonFloat D]

namespace Member

def write (m : Member D) : List Char := '"' :: m.key ++ '"' :: ':' :: m.text

/-- What is read for a member. -/
def entry (m : Member D) : List Char × Json D := (m.key, m.value)

end Member

/-- The members of an object after its opening brace. -/
def membersText : List (Member D) → List Char
  | [] => ['}']
  | [m] => m.write ++ ['}']
  | m :: ms => m.write ++ ',' :: membersText ms

/-- An object without white space. -/
def objectText (ms : List (Member D)) : List Char := '{' :: membersText ms

/-- A member up to the character after its value. -/
theorem members_member (m : Member D) (n : Nat) {c : Char} (hc : Closes c) (rest : List Char) :
    members (n + 2) (m.write ++ c :: rest) =
      match c :: rest with
      | '}' :: rest => some ([m.entry], rest)
      | ',' :: rest => (members (n + 1) (skip rest)).map fun r => (m.entry :: r.1, r.2)
      | _ => none := by
  have hstring := string_plain m.plain (':' :: (m.text ++ c :: rest))
  have hread := m.denotes.read n c rest hc
  have hskip := m.denotes.skip (c :: rest)
  have hcolon : skip (':' :: (m.text ++ c :: rest)) = ':' :: (m.text ++ c :: rest) :=
    skip_cons rfl _
  have hclose : skip (c :: rest) = c :: rest := by
    rcases hc with rfl | rfl <;> exact skip_cons rfl _
  simp only [Member.write, List.cons_append, List.append_assoc, members, hstring, hcolon, hskip,
    hread, hclose]
  rcases hc with rfl | rfl <;> rfl

theorem members_membersText (ms : List (Member D)) (hms : ms ≠ []) (n : Nat)
    (hn : ms.length < n) (rest : List Char) :
    members n (membersText ms ++ rest) = some (ms.map Member.entry, rest) := by
  induction ms generalizing n with
  | nil => exact absurd rfl hms
  | cons m ms ih =>
    obtain ⟨n, rfl⟩ : ∃ k, n = k + 2 := ⟨n - 2, by simp only [List.length_cons] at hn; omega⟩
    cases ms with
    | nil =>
      rw [membersText, List.append_assoc, List.singleton_append,
        members_member m n (.inr rfl) rest]
      rfl
    | cons m' ms =>
      have hskip : skip (membersText (m' :: ms) ++ rest) = membersText (m' :: ms) ++ rest := by
        cases ms <;> exact skip_cons rfl _
      have ih := ih (List.cons_ne_nil _ _) (n + 1) (by simp only [List.length_cons] at hn ⊢; omega)
      rw [membersText, List.append_assoc, List.cons_append, members_member m n (.inl rfl) _]
      · simp only [hskip, ih, Option.map_some, List.map_cons]
      · simp

theorem length_membersText (ms : List (Member D)) : ms.length < (membersText ms).length := by
  induction ms with
  | nil => simp [membersText]
  | cons m ms ih =>
    cases ms with
    | nil => simp [membersText, Member.write]
    | cons m' ms =>
      simp only [membersText, List.length_append, List.length_cons] at ih ⊢
      omega

theorem value_object (n : Nat) (t : List Char) :
    value (D := D) (n + 1) ('{' :: '"' :: t) =
      (members n ('"' :: t)).map fun r => (.obj r.1, r.2) := by
  have hskip : skip ('"' :: t) = '"' :: t := skip_cons rfl t
  simp only [value, hskip]
  rfl

/-- An object that was written is read back. -/
theorem loads_objectText (ms : List (Member D)) :
    loads (objectText ms) = some (.obj (ms.map Member.entry)) := by
  have hskip : skip (objectText ms) = objectText ms := skip_cons rfl _
  cases ms with
  | nil => rfl
  | cons m ms =>
    have hlen : (m :: ms).length < (objectText (m :: ms)).length :=
      Nat.lt_succ_of_lt (length_membersText (m :: ms))
    have hread := members_membersText (m :: ms) (List.cons_ne_nil _ _) _ hlen []
    obtain ⟨t, ht⟩ : ∃ t, membersText (m :: ms) = '"' :: t := by
      cases ms <;> exact ⟨_, rfl⟩
    rw [List.append_nil] at hread
    rw [loads, hskip]
    generalize (objectText (m :: ms)).length = n at hread ⊢
    rw [objectText, ht, value_object, ← ht, hread]
    rfl

end Object

end Json

end Waterbox
