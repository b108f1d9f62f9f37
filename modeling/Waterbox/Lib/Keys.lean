import Waterbox.Lib.Text

namespace Waterbox

/-!
# Keys that are found by their first occurrence

A reader that knows no JSON finds a member of an object by the first occurrence of its quoted
key, and the value behind the first colon after it.  In an object whose values contain no
quotation mark that is the member itself, whatever else the values contain.

* `objectText` — the text of an object with given keys and values.
* `strstr_objectText` — a key is found at its own member; `strstr_objectText_none` — no other key is
  found.
* `strstr_eq_some_iff`, `strchr_eq_some_iff` — what a search gives.
* `BehindColon` — the text that such a reader takes for the value; `behindColon_iff` — it is what
  the two searches find.
* `strchr_fieldsText` — the colon behind it is the one before the value.
-/

namespace Text

/-- A key and the text of its value. -/
abbrev Field := List Char × List Char

def quoted (key : List Char) : List Char := '"' :: key ++ ['"']

/-- The fields up to the closing brace. -/
def fieldsText : List Field → List Char
  | [] => ['}']
  | [f] => quoted f.1 ++ ':' :: f.2 ++ ['}']
  | f :: g :: fs => quoted f.1 ++ ':' :: f.2 ++ ',' :: fieldsText (g :: fs)

def objectText (fs : List Field) : List Char := '{' :: fieldsText fs

theorem fieldsText_concat (fs : List Field) : ∃ u, fieldsText fs = u ++ ['}'] := by
  induction fs with
  | nil => exact ⟨[], rfl⟩
  | cons f fs ih =>
    cases fs with
    | nil => exact ⟨_, rfl⟩
    | cons g fs =>
      obtain ⟨u, hu⟩ := ih
      refine ⟨quoted f.1 ++ ':' :: f.2 ++ ',' :: u, ?_⟩
      rw [fieldsText, hu, List.append_assoc _ (',' :: u), List.cons_append]

/-- The characters of the text are those of its keys and values, and four marks. -/
theorem mem_fieldsText {c : Char} {fs : List Field} (h : c ∈ fieldsText fs) :
    c ∈ ['"', ':', ',', '}'] ∨ ∃ f ∈ fs, c ∈ f.1 ∨ c ∈ f.2 := by
  induction fs with
  | nil =>
    rw [fieldsText, List.mem_singleton] at h
    exact .inl (by rw [h]; decide)
  | cons f fs ih =>
    have hfield : c ∈ quoted f.1 ++ ':' :: f.2 → c ∈ ['"', ':', ',', '}'] ∨ c ∈ f.1 ∨ c ∈ f.2 := by
      simp only [quoted, List.cons_append, List.mem_append, List.mem_cons, List.not_mem_nil,
        or_false]
      tauto
    cases fs with
    | nil =>
      rcases List.mem_append.1 h with h | h
      · exact (hfield h).imp_right fun h => ⟨f, List.mem_cons_self, h⟩
      · exact .inl (by rw [List.mem_singleton.1 h]; decide)
    | cons g fs =>
      rcases List.mem_append.1 h with h | h
      · exact (hfield h).imp_right fun h => ⟨f, List.mem_cons_self, h⟩
      · rcases List.mem_cons.1 h with rfl | h
        · exact .inl (by decide)
        · exact (ih h).imp_right fun ⟨f, hf, h⟩ => ⟨f, List.mem_cons_of_mem _ hf, h⟩

/-- A field of which the quotation marks are those of its key. -/
structure Field.Clean (f : Field) : Prop where
  key : '"' ∉ f.1 ∧ ':' ∉ f.1
  value : '"' ∉ f.2

/-- Characters that the pattern does not begin with are skipped. -/
theorem strstr_skip {c : Char} {p u : List Char} (hu : c ∉ u) (t : List Char) :
    strstr (c :: p) (u ++ t) = strstr (c :: p) t := by
  induction u with
  | nil => rfl
  | cons d u ih =>
    have hne : (c == d) = false :=
      beq_eq_false_iff_ne.2 (Ne.symm (List.ne_of_not_mem_cons hu).symm)
    rw [List.cons_append, strstr, List.isPrefixOf, hne, Bool.false_and, if_neg Bool.false_ne_true]
    exact ih (List.not_mem_of_not_mem_cons hu)

/-- What a search gives is the end of the text from the first place of the pattern on. -/
theorem strstr_eq_some_iff {pat s p : List Char} :
    strstr pat s = some p ↔
      pat <+: p ∧ ∃ u, s = u ++ p ∧ ∀ v, v ++ pat <+: s → u.length ≤ v.length := by
  induction s with
  | nil =>
    rw [strstr]
    constructor
    · intro h
      split at h
      case isTrue hpat =>
        cases h
        rw [List.isEmpty_iff.1 hpat]
        exact ⟨List.prefix_refl _, [], rfl, fun _ _ => Nat.zero_le _⟩
      case isFalse => cases h
    · rintro ⟨hpat, u, hs, -⟩
      obtain ⟨-, rfl⟩ := List.append_eq_nil_iff.1 hs.symm
      rw [List.prefix_nil.1 hpat]
      rfl
  | cons c s ih =>
    rw [strstr]
    by_cases hstart : pat <+: c :: s
    · rw [if_pos (List.isPrefixOf_iff_prefix.2 hstart)]
      constructor
      · rintro ⟨⟩
        exact ⟨hstart, [], rfl, fun _ _ => Nat.zero_le _⟩
      · rintro ⟨-, u, hs, hfirst⟩
        have hu : u = [] := List.length_eq_zero_iff.1 (Nat.le_zero.1 (hfirst [] hstart))
        rw [hs, hu]
        rfl
    · rw [if_neg (mt List.isPrefixOf_iff_prefix.1 hstart), ih]
      refine and_congr_right fun hpat => ?_
      constructor
      · rintro ⟨u, hs, hfirst⟩
        refine ⟨c :: u, congrArg (List.cons c) hs, fun v hv => ?_⟩
        cases v with
        | nil => exact absurd hv hstart
        | cons d v =>
          rw [List.cons_append, List.cons_prefix_cons] at hv
          exact Nat.succ_le_succ (hfirst v hv.2)
      · rintro ⟨u, hs, hfirst⟩
        cases u with
        | nil => exact absurd (hs ▸ hpat) hstart
        | cons d u =>
          obtain ⟨rfl, htail⟩ := List.cons.inj hs
          refine ⟨u, htail, fun v hv => ?_⟩
          exact Nat.succ_le_succ_iff.1 (hfirst (c :: v) (List.cons_prefix_cons.2 ⟨rfl, hv⟩))

/-- A search succeeds where the text holds the pattern. -/
theorem strstr_isSome_iff {pat s : List Char} : (strstr pat s).isSome = true ↔ pat <:+: s := by
  induction s with
  | nil =>
    rw [strstr, List.infix_nil]
    split
    case isTrue h => exact iff_of_true rfl (List.isEmpty_iff.1 h)
    case isFalse h => exact iff_of_false Bool.false_ne_true (mt List.isEmpty_iff.2 h)
  | cons c s ih =>
    rw [strstr, List.infix_cons_iff]
    split
    case isTrue h => exact iff_of_true rfl (.inl (List.isPrefixOf_iff_prefix.1 h))
    case isFalse h => rw [ih, or_iff_right (mt List.isPrefixOf_iff_prefix.2 h)]

/-- A pattern does not end in what does not hold its last character. -/
theorem infix_append_iff {p u v : List Char} {c : Char} (hv : c ∉ v) :
    p ++ [c] <:+: u ++ v ↔ p ++ [c] <:+: u := by
  constructor
  · rintro ⟨s, t, h⟩
    rcases List.append_eq_append_iff.1 h with ⟨a, hu, -⟩ | ⟨b, hsp, hb⟩
    · exact ⟨s, a, hu.symm⟩
    · cases List.eq_nil_or_concat b with
      | inl hnil =>
        rw [hnil, List.append_nil] at hsp
        exact ⟨s, [], by rw [List.append_nil, hsp]⟩
      | inr hlast =>
        -- the last character would be one of `v`
        obtain ⟨b, d, rfl⟩ := hlast
        rw [List.concat_eq_append] at hsp hb
        rw [← List.append_assoc, ← List.append_assoc] at hsp
        have hsame : c = d := List.singleton_inj.1 (List.append_inj' hsp rfl).2
        rw [hb, hsame] at hv
        have hmem : d ∈ b ++ [d] := List.mem_append_right _ (List.mem_singleton_self d)
        exact absurd (List.mem_append_left _ hmem) hv
  · exact fun h => h.trans (List.prefix_append u v).isInfix

theorem strchr_skip {c : Char} {u : List Char} (hu : c ∉ u) (t : List Char) :
    strchr c (u ++ c :: t) = some (c :: t) := by
  induction u with
  | nil => exact if_pos rfl
  | cons d u ih =>
    have hne : d ≠ c := (List.ne_of_not_mem_cons hu).symm
    rw [List.cons_append, strchr, if_neg hne]
    exact ih (List.not_mem_of_not_mem_cons hu)

theorem strchr_eq_some_iff {c : Char} {s q : List Char} :
    strchr c s = some q ↔ ∃ u t, q = c :: t ∧ s = u ++ c :: t ∧ c ∉ u := by
  induction s with
  | nil =>
    refine iff_of_false (fun h => nomatch h) ?_
    rintro ⟨u, t, -, hs, -⟩
    exact absurd hs.symm (List.append_ne_nil_of_right_ne_nil u (List.cons_ne_nil c t))
  | cons d s ih =>
    rw [strchr]
    by_cases hd : d = c
    · subst hd
      rw [if_pos rfl]
      constructor
      · rintro ⟨⟩
        exact ⟨[], s, rfl, rfl, List.not_mem_nil⟩
      · rintro ⟨u, t, hq, hs, hu⟩
        cases u with
        | nil => rw [hq, hs]; rfl
        | cons e u => exact absurd (List.cons.inj hs).1 (List.ne_of_not_mem_cons hu)
    · rw [if_neg hd, ih]
      constructor
      · rintro ⟨u, t, hq, hs, hu⟩
        exact ⟨d :: u, t, hq, congrArg (List.cons d) hs,
          List.not_mem_cons_of_ne_of_not_mem (Ne.symm hd) hu⟩
      · rintro ⟨u, t, hq, hs, hu⟩
        cases u with
        | nil => exact absurd (List.cons.inj hs).1 hd
        | cons e u =>
          exact ⟨u, t, hq, (List.cons.inj hs).2, List.not_mem_of_not_mem_cons hu⟩

/-- A key in quotation marks has its first place in a text, a colon follows it, and `rest` is the
    text behind the first such colon. -/
def BehindColon (key text rest : List Char) : Prop :=
  ∃ before between, text = before ++ (quoted key ++ between ++ ':' :: rest) ∧ ':' ∉ between ∧
    ∀ v, v ++ quoted key <+: text → before.length ≤ v.length

/-- A search for the key and another for a colon find that text. -/
theorem behindColon_iff {key text rest : List Char} (hkey : ':' ∉ key) :
    BehindColon key text rest ↔
      ∃ p, strstr (quoted key) text = some p ∧ strchr ':' p = some (':' :: rest) := by
  have hquoted : ':' ∉ quoted key := by
    simp [quoted, hkey]
  constructor
  · rintro ⟨before, between, htext, hbetween, hfirst⟩
    refine ⟨quoted key ++ between ++ ':' :: rest, ?_, ?_⟩
    · rw [strstr_eq_some_iff, List.append_assoc]
      refine ⟨List.prefix_append _ _, before, ?_, hfirst⟩
      rw [htext, List.append_assoc]
    · refine strchr_skip (fun h => ?_) rest
      exact (List.mem_append.1 h).elim hquoted hbetween
  · rintro ⟨p, hp, hcolon⟩
    obtain ⟨⟨r, hr⟩, before, htext, hfirst⟩ := strstr_eq_some_iff.1 hp
    obtain ⟨u, t, hrest, hsplit, hu⟩ := strchr_eq_some_iff.1 hcolon
    obtain rfl : rest = t := (List.cons.inj hrest).2
    -- the colon is none of the characters of the key
    rw [← hr] at hsplit
    rcases List.append_eq_append_iff.1 hsplit with ⟨between, hbetween, hr'⟩ | ⟨a, hquote, ha⟩
    · refine ⟨before, between, ?_, fun h => hu ?_, hfirst⟩
      · rw [htext, ← hr, hr', List.append_assoc]
      · exact hbetween ▸ List.mem_append_right _ h
    · cases a with
      | nil =>
        rw [List.append_nil] at hquote
        refine ⟨before, [], ?_, List.not_mem_nil, hfirst⟩
        rw [htext, ← hr, List.append_nil, ← List.nil_append r, ← ha]
      | cons d a =>
        obtain rfl : ':' = d := (List.cons.inj ha).1
        exact absurd (hquote ▸ List.mem_append_right u List.mem_cons_self) hquoted

theorem strstr_of_start {p : List Char} (hp : p ≠ []) (t : List Char) :
    strstr p (p ++ t) = some (p ++ t) := by
  obtain ⟨c, cs, rfl⟩ := List.exists_cons_of_ne_nil hp
  exact if_pos (List.isPrefixOf_iff_prefix.2 (List.prefix_append _ _))

/-- Two keys in quotation marks of which one begins the other are equal. -/
theorem eq_of_quoted_starts {key key' t : List Char} (hkey : '"' ∉ key) (hkey' : '"' ∉ key')
    (h : key ++ ['"'] <+: key' ++ '"' :: t) : key = key' := by
  induction key generalizing key' with
  | nil =>
    cases key' with
    | nil => rfl
    | cons d key' =>
      obtain rfl : '"' = d := (List.cons_prefix_cons.1 h).1
      exact absurd List.mem_cons_self hkey'
  | cons c key ih =>
    cases key' with
    | nil =>
      obtain rfl : c = '"' := (List.cons_prefix_cons.1 h).1
      exact absurd List.mem_cons_self hkey
    | cons d key' =>
      obtain ⟨hcd, hrest⟩ := List.cons_prefix_cons.1 h
      rw [hcd, ih (List.not_mem_of_not_mem_cons hkey) (List.not_mem_of_not_mem_cons hkey') hrest]

theorem strstr_cons_of_not_start {p t : List Char} {c : Char} (h : ¬ p <+: c :: t) :
    strstr p (c :: t) = strstr p t :=
  if_neg (mt List.isPrefixOf_iff_prefix.1 h)

/-- The search for a key goes past a field with another key. -/
theorem strstr_field {key : List Char} {f : Field} (hkey : '"' ∉ key) (hcolon : ':' ∉ key)
    (hne : key ≠ f.1) (hf : f.Clean) {c : Char} (hc : c ≠ '"') (t : List Char) :
    strstr (quoted key) (quoted f.1 ++ ':' :: f.2 ++ c :: t) = strstr (quoted key) t := by
  -- the quotation mark before the key
  have hopen : ¬ quoted key <+: '"' :: (f.1 ++ '"' :: ':' :: f.2 ++ c :: t) := by
    intro h
    rw [quoted, List.cons_append, List.cons_prefix_cons, List.append_assoc, List.cons_append] at h
    exact hne (eq_of_quoted_starts hkey hf.key.1 h.2)
  -- the quotation mark behind it, which a colon follows
  have hclose : ¬ quoted key <+: '"' :: (':' :: f.2 ++ c :: t) := by
    intro h
    cases key with
    | nil =>
      simp only [quoted, List.nil_append, List.cons_append, List.cons_prefix_cons] at h
      exact absurd h.2.1 (by decide)
    | cons d key =>
      simp only [quoted, List.cons_append, List.cons_prefix_cons] at h
      exact hcolon (h.2.1 ▸ List.mem_cons_self)
  have hvalue : '"' ∉ ':' :: f.2 ++ [c] := by
    simp [hf.value, hc.symm]
  have htext : quoted f.1 ++ ':' :: f.2 ++ c :: t =
      '"' :: (f.1 ++ '"' :: ':' :: f.2 ++ c :: t) := by
    simp [quoted]
  rw [htext, strstr_cons_of_not_start hopen, List.append_assoc, quoted, List.cons_append,
    strstr_skip hf.key.1]
  show strstr (quoted key) ('"' :: (':' :: f.2 ++ c :: t)) = strstr (quoted key) t
  rw [strstr_cons_of_not_start hclose]
  have hskip := strstr_skip (p := key ++ ['"']) hvalue t
  rw [List.append_assoc] at hskip
  exact hskip

/-- A key is found at its own field. -/
theorem strstr_fieldsText {pre post : List Field} {f : Field} (hpre : ∀ g ∈ pre, g.Clean)
    (hf : f.Clean) (hne : ∀ g ∈ pre, f.1 ≠ g.1) :
    strstr (quoted f.1) (fieldsText (pre ++ f :: post)) = some (fieldsText (f :: post)) := by
  induction pre with
  | nil =>
    cases post with
    | nil =>
      rw [List.nil_append, fieldsText, List.append_assoc]
      exact strstr_of_start (by simp [quoted]) _
    | cons g post =>
      rw [List.nil_append, fieldsText, List.append_assoc]
      exact strstr_of_start (by simp [quoted]) _
  | cons g pre ih =>
    have hrest : fieldsText (g :: pre ++ f :: post) =
        quoted g.1 ++ ':' :: g.2 ++ ',' :: fieldsText (pre ++ f :: post) := by
      cases pre <;> rfl
    rw [hrest, strstr_field hf.key.1 hf.key.2 (hne g List.mem_cons_self)
      (hpre g List.mem_cons_self) (by decide)]
    exact ih (fun g hg => hpre g (List.mem_cons_of_mem _ hg))
      fun g hg => hne g (List.mem_cons_of_mem _ hg)

theorem strstr_objectText {pre post : List Field} {f : Field} (hpre : ∀ g ∈ pre, g.Clean)
    (hf : f.Clean) (hne : ∀ g ∈ pre, f.1 ≠ g.1) :
    strstr (quoted f.1) (objectText (pre ++ f :: post)) = some (fieldsText (f :: post)) := by
  have hskip := strstr_skip (c := '"') (p := f.1 ++ ['"']) (u := ['{']) (by decide)
    (fieldsText (pre ++ f :: post))
  exact hskip.trans (strstr_fieldsText hpre hf hne)

/-- A key of no field is not found. -/
theorem strstr_objectText_none {fs : List Field} {key : List Char} (hkey : '"' ∉ key)
    (hcolon : ':' ∉ key) (hclean : ∀ f ∈ fs, f.Clean) (hne : ∀ f ∈ fs, key ≠ f.1) :
    strstr (quoted key) (objectText fs) = none := by
  have hfields : strstr (quoted key) (fieldsText fs) = none := by
    induction fs with
    | nil => exact strstr_skip (c := '"') (p := key ++ ['"']) (u := ['}']) (by decide) []
    | cons f fs ih =>
      have ih := ih (fun g hg => hclean g (List.mem_cons_of_mem _ hg))
        fun g hg => hne g (List.mem_cons_of_mem _ hg)
      have hpast : ∀ {c : Char} (_ : c ≠ '"') (t : List Char),
          strstr (quoted key) (quoted f.1 ++ ':' :: f.2 ++ c :: t) = strstr (quoted key) t :=
        fun hc => strstr_field hkey hcolon (hne f List.mem_cons_self)
          (hclean f List.mem_cons_self) hc
      cases fs with
      | nil => exact hpast (by decide) []
      | cons g fs => exact (hpast (by decide) _).trans ih
  have hskip := strstr_skip (c := '"') (p := key ++ ['"']) (u := ['{']) (by decide)
    (fieldsText fs)
  exact hskip.trans hfields

/-- The value of a field, with what follows it, begins behind the first colon. -/
theorem strchr_fieldsText {f : Field} (hf : f.Clean) (post : List Field) :
    ∃ c t, (c = ',' ∨ c = '}') ∧
      strchr ':' (fieldsText (f :: post)) = some (':' :: (f.2 ++ c :: t)) := by
  have hcolon : ':' ∉ quoted f.1 := by
    simp [quoted, hf.key.2]
  cases post with
  | nil =>
    refine ⟨'}', [], .inr rfl, ?_⟩
    rw [fieldsText, List.append_assoc]
    exact strchr_skip hcolon _
  | cons g post =>
    refine ⟨',', fieldsText (g :: post), .inl rfl, ?_⟩
    rw [fieldsText, List.append_assoc]
    exact strchr_skip hcolon _

end Text

end Waterbox
