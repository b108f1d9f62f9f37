import Waterbox.Lib.Format
import Waterbox.Lib.Json

namespace Waterbox

/-!
# The numbers in a JSON object

Number literals are read exactly.  The words `NaN` and `Infinity`, which `loads` admits, are not
JSON: a text with one of them is no object here.

* `Json.object` — the members of a text that is a JSON object.
* `Json.numberAt` — the number that a key stands for.
* `Json.mem_of_numberAt` — a member that is a number is there.
* `Json.object_head` — an object begins with a brace.
* `Json.numeral_denotes` — a number literal is what `strtod` reads there, too.
-/

namespace Json

open Text

/-- The exact value of a literal; the words have none. -/
instance : JsonFloat (Option ℚ) where
  ofDecimal neg m k := some (scaled neg m k)
  nan := none
  infinity _ := none

mutual

/-- A value in which every number has a value. -/
def standard : Json (Option ℚ) → Bool
  | .float none => false
  | .arr items => standardItems items
  | .obj members => standardMembers members
  | _ => true

def standardItems : List (Json (Option ℚ)) → Bool
  | [] => true
  | v :: vs => standard v && standardItems vs

def standardMembers : List (List Char × Json (Option ℚ)) → Bool
  | [] => true
  | (_, v) :: ms => standard v && standardMembers ms

end

/-- The members of a text that is a JSON object. -/
def object (text : List Char) : Option (List (List Char × Json (Option ℚ))) :=
  match loads text with
  | some (.obj ms) => if standardMembers ms then some ms else none
  | _ => none

/-- The value of a number. -/
def asNumber : Json (Option ℚ) → Option ℚ
  | .int n => some n
  | .float x => x
  | _ => none

/-- The number that a key stands for, where its member is a number. -/
def numberAt (key : List Char) (ms : List (List Char × Json (Option ℚ))) : Option ℚ :=
  asNumber (get ms key)

example :
    (object "\x7b\"u\":\x7b\"v\":2\x7d,\"v\":0.5,\"w\":[]\x7d".toList).map
      (numberAt "v".toList) = some (some (1 / 2)) ∧ (object "\x7b\"u\":NaN\x7d".toList).isNone ∧
    (object "\x7b\"v\":true\x7d".toList).map (numberAt "v".toList) = some none := by
  decide +kernel

/-- A member that is a number is there. -/
theorem mem_of_numberAt {ms : List (List Char × Json (Option ℚ))} {key : List Char} {q : ℚ}
    (h : numberAt key ms = some q) : key ∈ ms.map Prod.fst := by
  by_contra hno
  have hlookup : ms.reverse.lookup key = none := by
    rw [List.lookup_eq_none_iff]
    intro m hm
    rw [bne_iff_ne]
    rintro rfl
    exact hno (List.mem_map_of_mem (List.mem_reverse.1 hm))
  rw [numberAt, get, hlookup] at h
  cases h

/-! ### The brace of an object -/

section Brace

variable {D : Type} [JsonFloat D]

theorem numberRest_ne_obj (neg : Bool) (ds t : List Char) (ms : List (List Char × Json D)) :
    (numberRest neg ds t).1 ≠ .obj ms := by
  unfold numberRest
  dsimp only
  split <;> exact fun h => nomatch h

theorem unsigned_ne_obj {neg : Bool} {t rest : List Char} {ms : List (List Char × Json D)} :
    unsigned neg t ≠ some (.obj ms, rest) := by
  cases t with
  | nil => exact fun h => nomatch h
  | cons c t =>
    intro h
    rw [unsigned] at h
    split at h
    · exact numberRest_ne_obj _ _ _ _ (congrArg Prod.fst (Option.some.inj h))
    · split at h
      · exact numberRest_ne_obj _ _ _ _ (congrArg Prod.fst (Option.some.inj h))
      · cases h

theorem scalar_ne_obj {t rest : List Char} {ms : List (List Char × Json D)} :
    scalar t ≠ some (.obj ms, rest) := by
  intro h
  unfold scalar at h
  split at h
  case h_1 w hw =>
    have hmem := List.mem_of_find?_eq_some hw
    have hval : w.2 = .obj ms := congrArg Prod.fst (Option.some.inj h)
    simp only [words, List.mem_cons, List.not_mem_nil, or_false] at hmem
    rcases hmem with rfl | rfl | rfl | rfl | rfl | rfl <;> cases hval
  case h_2 =>
    unfold number at h
    split at h <;> exact unsigned_ne_obj h

/-- Only a text that begins with a brace is read as an object. -/
theorem value_obj_head {n : Nat} {t rest : List Char} {ms : List (List Char × Json D)}
    (h : value n t = some (.obj ms, rest)) : t.head? = some '{' := by
  cases n with
  | zero => cases h
  | succ n =>
    rw [value.eq_def] at h
    dsimp only at h
    split at h
    · -- a string
      cases hs : string _ with
      | none => rw [hs] at h; cases h
      | some r => rw [hs] at h; cases h
    · rfl
    · -- an array
      split at h
      · cases h
      · cases he : elements (D := D) n _ with
        | none => rw [he] at h; cases h
        | some r => rw [he] at h; cases h
    · exact (scalar_ne_obj h).elim

end Brace

/-- An object begins with a brace. -/
theorem object_head {t : List Char} {ms : List (List Char × Json (Option ℚ))}
    (h : object t = some ms) : (skip t).head? = some '{' := by
  unfold object at h
  split at h
  case h_1 ms' hloads =>
    unfold loads at hloads
    split at hloads
    case h_1 v rest hvalue =>
      split at hloads
      · cases hloads
        exact value_obj_head hvalue
      · cases hloads
    case h_2 => cases hloads
  case h_2 => cases h

/-! ### Number literals -/

section Literals

/-- The fraction as JSON reads it is the one `strtod` reads. -/
theorem fraction_eq {t : List Char} (h : EndsNumber (exponent (fraction t).2).2) :
    fraction t = Text.fraction t := by
  cases t with
  | nil => rfl
  | cons c t =>
    by_cases hc : c = '.'
    · subst hc
      by_cases hdigits : (digits t).isEmpty = true
      · -- a point without digits is left over
        have hleft : fraction ('.' :: t) = ([], '.' :: t) := if_pos hdigits
        rw [hleft] at h
        exact absurd rfl (h '.' rfl).2.1
      · exact if_neg hdigits
    · rw [fraction, Text.fraction]
      · rintro u ⟨⟩
        exact hc rfl
      · rintro u ⟨⟩
        exact hc rfl

/-- So is the exponent. -/
theorem exponent_eq {t : List Char} (h : EndsNumber (exponent t).2) :
    (exponent t).1.getD 0 = Text.exponent t := by
  cases t with
  | nil => rfl
  | cons c t =>
    by_cases hc : c = 'e' ∨ c = 'E'
    · simp only [exponent, if_pos hc] at h ⊢
      simp only [Text.exponent, if_pos hc]
      by_cases hdigits : (digits (sign t).2).isEmpty = true
      · -- a letter without digits is left over
        rw [if_pos hdigits] at h
        have hends := (h c rfl).2.2
        exact absurd hc (not_or.2 hends)
      · rw [if_neg hdigits]
        rfl
    · simp only [exponent, Text.exponent, if_neg hc]
      rfl

/-- Digits are not left over. -/
theorem endsDigits_of_numberRest {neg : Bool} {ds t : List Char}
    (hends : EndsNumber (numberRest (D := Option ℚ) neg ds t).2) : EndsDigits t := by
  intro c hc
  obtain ⟨u, rfl⟩ := List.head?_eq_some_iff.1 hc
  by_contra hdigit
  rw [Bool.not_eq_false] at hdigit
  have hfraction : fraction (c :: u) = ([], c :: u) := by
    rw [fraction]
    rintro v ⟨⟩
    cases hdigit
  have hexponent : exponent (c :: u) = (none, c :: u) := by
    refine if_neg ?_
    rintro (rfl | rfl) <;> cases hdigit
  have hleft : (numberRest (D := Option ℚ) neg ds (c :: u)).2 = c :: u := by
    simp only [numberRest, hfraction, hexponent]
    split <;> rfl
  rw [hleft] at hends
  rw [(hends c rfl).1] at hdigit
  cases hdigit

/-- The value of a literal, in the words of `strtod`. -/
theorem numberRest_value {neg : Bool} {ds t : List Char} {q : ℚ}
    (hq : asNumber (numberRest neg ds t).1 = some q)
    (hends : EndsNumber (numberRest (D := Option ℚ) neg ds t).2) :
    scaled neg (Nat.ofDigitChars 10 (ds ++ (Text.fraction t).1) 0)
      (Text.exponent (Text.fraction t).2 - (Text.fraction t).1.length) = q := by
  have hrest : EndsNumber (exponent (fraction t).2).2 := by
    simp only [numberRest] at hends
    split at hends <;> exact hends
  have hfraction := fraction_eq hrest
  have hexponent := exponent_eq hrest
  rw [hfraction] at hexponent
  simp only [numberRest, hfraction] at hq
  split at hq
  case isTrue h =>
    -- an integer has neither a fraction nor an exponent
    obtain ⟨hfrac, hnone⟩ := h
    rw [List.isEmpty_iff] at hfrac
    rw [Option.isNone_iff_eq_none] at hnone
    rw [hnone] at hexponent
    rw [← Option.some.inj hq, ← hexponent, hfrac, scaled]
    cases neg <;> simp
  case isFalse =>
    rw [← hexponent]
    exact Option.some.inj hq

/-- A number begins with a digit. -/
theorem unsigned_digit {neg : Bool} {t : List Char} {r : Json (Option ℚ) × List Char}
    (h : unsigned neg t = some r) : ∃ c u, t = c :: u ∧ c.isDigit = true := by
  cases t with
  | nil => cases h
  | cons c t =>
    refine ⟨c, t, rfl, ?_⟩
    rw [unsigned] at h
    split_ifs at h with hzero hdigit
    · rw [hzero]
      rfl
    · exact hdigit

/-- The digits of a literal are those that `strtod` finds. -/
theorem numeral_unsigned {text t rest : List Char} {neg : Bool} {v : Json (Option ℚ)} {q : ℚ}
    (htext : sign (text.dropWhile Text.isSpace) = (neg, t)) (h : unsigned neg t = some (v, rest))
    (hq : asNumber v = some q) (hends : EndsNumber rest) : numeral text = .number q := by
  obtain ⟨c, t, rfl, hdigit⟩ := unsigned_digit h
  have hvalue : ∀ ds u : List Char, numberRest neg ds u = (v, rest) → EndsDigits u ∧
      scaled neg (Nat.ofDigitChars 10 (ds ++ (Text.fraction u).1) 0)
        (Text.exponent (Text.fraction u).2 - (Text.fraction u).1.length) = q := by
    intro ds u hread
    have hleft : EndsNumber (numberRest (D := Option ℚ) neg ds u).2 := by
      rw [hread]
      exact hends
    refine ⟨endsDigits_of_numberRest hleft, numberRest_value ?_ hleft⟩
    rw [hread]
    exact hq
  rw [numeral_of_digit htext hdigit]
  congr 1
  simp only [strtod, htext]
  rw [unsigned] at h
  by_cases hzero : c = '0'
  · -- no digit follows a leading zero
    rw [if_pos hzero] at h
    obtain ⟨hdigits, hread⟩ := hvalue ['0'] t (Option.some.inj h)
    have hall : ∀ d ∈ ['0'], d.isDigit = true := List.forall_mem_singleton.2 rfl
    have hsplit : c :: t = ['0'] ++ t := by rw [hzero]; rfl
    rw [hsplit, digits_append hall hdigits, afterDigits_append hall hdigits]
    exact hread
  · rw [if_neg hzero, if_pos hdigit] at h
    exact (hvalue _ _ (Option.some.inj h)).2

/-- The same with a sign. -/
theorem numeral_number {t rest : List Char} {v : Json (Option ℚ)} {q : ℚ}
    (h : number t = some (v, rest)) (hq : asNumber v = some q) (hends : EndsNumber rest) :
    numeral t = .number q := by
  rw [number.eq_def] at h
  split at h
  case h_1 u => exact numeral_unsigned rfl h hq hends
  case h_2 hminus =>
    obtain ⟨c, u, rfl, hdigit⟩ := unsigned_digit h
    refine numeral_unsigned ?_ h hq hends
    have hspace : ¬ Text.isSpace c = true := by
      rw [isSpace_digit hdigit]
      exact Bool.false_ne_true
    rw [List.dropWhile_cons_of_neg hspace, sign]
    · rintro v ⟨⟩
      cases hdigit
    · rintro v ⟨⟩
      cases hdigit

/-- A value that is a number was read from a literal. -/
theorem number_of_value {n : Nat} {t rest : List Char} {v : Json (Option ℚ)} {q : ℚ}
    (h : value n t = some (v, rest)) (hq : asNumber v = some q) : number t = some (v, rest) := by
  have hcontainer : ∀ {α : Type} {f : α → Json (Option ℚ)} {r : Option (α × List Char)},
      r.map (fun r => (f r.1, r.2)) = some (v, rest) → (∀ a, asNumber (f a) = none) → False := by
    intro α f r hr hf
    obtain ⟨x, -, hx⟩ := Option.map_eq_some_iff.1 hr
    rw [← (Prod.mk.inj hx).1, hf] at hq
    cases hq
  cases n with
  | zero => cases h
  | succ n =>
    rw [value.eq_def] at h
    dsimp only at h
    split at h
    · exact (hcontainer h fun _ => rfl).elim
    · split at h
      · cases h
        cases hq
      · exact (hcontainer h fun _ => rfl).elim
    · split at h
      · cases h
        cases hq
      · exact (hcontainer h fun _ => rfl).elim
    · rw [scalar] at h
      split at h
      case h_1 w hw =>
        -- a word has no value
        have hmem := List.mem_of_find?_eq_some hw
        have hnone : ∀ w ∈ words (D := Option ℚ), asNumber w.2 = none := by
          simp [words, asNumber, JsonFloat.nan, JsonFloat.infinity]
        rw [← (Prod.mk.inj (Option.some.inj h)).1, hnone w hmem] at hq
        cases hq
      case h_2 => exact h

/-- Where the text of a member's value is a number literal, `strtod` reads it as that number. -/
theorem numeral_denotes {text : List Char} {v : Json (Option ℚ)} {q : ℚ} (h : Denotes text v)
    (hq : asNumber v = some q) {c : Char} (hc : Closes c) (t : List Char) :
    numeral (text ++ c :: t) = .number q := by
  have hends : EndsNumber (c :: t) := by
    rintro d ⟨⟩
    rcases hc with rfl | rfl <;> decide
  exact numeral_number (number_of_value (h.read 0 c t hc) hq) hq hends

end Literals

end Json

end Waterbox
