import Mathlib.Data.List.DropRight
import Waterbox.Firmware.PlainMessages
import Waterbox.Firmware.ValvePosition

namespace Waterbox

/-!
# What a command asks for and what is done

A command is a word or a JSON object with a number `v`.  `parseCommand()` knows the words, but of an
object it reads the number behind the first colon after the first `"v"`, whatever stands there.

* `asked` — the command a payload stands for.
* `Decoded` — a payload has the effect it asks for, and no other.
* `Legible` — where `"v"` stands in the text, and the number behind it.
* `parseCommand_eq_asked_iff` — where the code reads what is asked.
* `legible_plain` — an object that is written plainly.
* `commands_decoded_iff` — the effect on the valve.
-/

open Cut Text
open Json (Member)

variable {F : Type}

/-! ### Commands -/

/-- The words for an open and for a closed valve. -/
def openingWords : List CString := ["on".toList, "open".toList, "1".toList]

def closingWords : List CString := ["off".toList, "close".toList, "0".toList]

namespace GsmMqttClient

/-- The payload without white space at its ends. -/
def trim (payload : CString) : CString := (payload.dropWhile isBlank).rdropWhile isBlank

/-- The number of the member `v`, where the payload is a JSON object that has one. -/
def commandNumber (payload : CString) : Option ℚ :=
  (Json.object (trim payload)).bind (Json.numberAt "v".toList)

/-- The command a payload stands for. -/
def asked (payload : CString) : Command :=
  if trim payload ∈ openingWords then .on
  else if trim payload ∈ closingWords then .off
  else match commandNumber payload with
    | some v => if 1 / 2 ≤ v then .on else .off
    | none => .none

variable (F) in
/-- The number that a text begins with is at least a half, as a `float`. -/
def AtLeastHalf [CFloat F] (text : CString) : Prop :=
  CFloat.le (CFloat.ofRat (1 / 2) : F) (CFloat.ofNumeral (numeral text)) = true

variable (F) in
/-- The texts that are read for what they say.  A word is followed by no NUL.  Of any other payload
    the first 179 bytes up to a NUL count: in an object with a number `v` the first `"v"` there is
    followed by a colon, and behind the colon by a number on the same side of a half; in what is no
    such object, and begins with a brace, the first `"v"` is followed by no colon. -/
def Legible [CFloat F] (payload : CString) : Prop :=
  if strip payload ∈ openingWords ++ closingWords then trim payload = strip payload
  else match commandNumber payload with
    | some v => ∃ text, BehindColon "v".toList (copyMsg (strip payload)) text ∧
        (AtLeastHalf F text ↔ 1 / 2 ≤ v)
    | none => (strip payload).head? = some '{' →
        ∀ text, ¬ BehindColon "v".toList (copyMsg (strip payload)) text

/-! ### The code's reading -/

theorem strip_eq_trim (payload : CString) :
    strip payload = (trim payload).rdropWhile fun c => isBlank c || c = '\x00' := by
  set t := payload.dropWhile isBlank with ht
  have htake : ∀ u : CString, ((u.dropWhile isBlank).dropWhile fun c => isBlank c || c = '\x00') =
      u.dropWhile fun c => isBlank c || c = '\x00' := by
    intro u
    induction u with
    | nil => rfl
    | cons c u ih =>
      by_cases hc : isBlank c = true
      · rw [List.dropWhile_cons_of_pos hc, ih, List.dropWhile_cons_of_pos (by simp [hc])]
      · rw [List.dropWhile_cons_of_neg hc]
  rw [strip, trim, ← ht, List.rdropWhile, List.rdropWhile, List.reverse_reverse, htake]

theorem strip_prefix_trim (payload : CString) : strip payload <+: trim payload := by
  rw [strip_eq_trim]
  exact List.rdropWhile_prefix _ _

/-- Where nothing is stripped, nothing is trimmed. -/
theorem trim_of_strip {payload : CString} (h : strip payload = payload) :
    trim payload = payload := by
  have hlen := (strip_prefix_trim payload).length_le
  rw [h] at hlen
  have hsublist : (trim payload).Sublist payload :=
    (List.rdropWhile_prefix _ _).sublist.trans (List.dropWhile_suffix _).sublist
  exact hsublist.eq_of_length_le hlen

/-- A word is no word any more when something follows it. -/
theorem strip_eq_trim_of_word {payload : CString}
    (h : trim payload ∈ openingWords ++ closingWords) : strip payload = trim payload := by
  have hall : ∀ w ∈ openingWords ++ closingWords,
      (w.rdropWhile fun c => isBlank c || c = '\x00') = w := by decide
  rw [strip_eq_trim]
  exact hall _ h

/-- A payload that begins like a word is no object. -/
theorem commandNumber_of_word {payload : CString}
    (h : strip payload ∈ openingWords ++ closingWords) : commandNumber payload = none := by
  have hall : ∀ w ∈ openingWords ++ closingWords,
      w ≠ [] ∧ Json.isSpace (w.headD '{') = false ∧ w.headD '{' ≠ '{' := by decide
  obtain ⟨hne, hspace, hbrace⟩ := hall _ h
  obtain ⟨c, w, hw⟩ := List.exists_cons_of_ne_nil hne
  rw [hw, List.headD_cons] at hspace hbrace
  obtain ⟨u, hu⟩ := strip_prefix_trim payload
  have htrim : trim payload = c :: (w ++ u) := by rw [← hu, hw, List.cons_append]
  rw [commandNumber]
  cases hobj : Json.object (trim payload) with
  | none => rfl
  | some ms =>
    have hhead := Json.object_head hobj
    rw [htrim, Json.skip_cons hspace] at hhead
    exact absurd (Option.some.inj hhead) hbrace

theorem brace_of_trim {payload : CString} (h : (trim payload).head? = some '{') :
    (strip payload).head? = some '{' := by
  obtain ⟨w, hw⟩ := List.head?_eq_some_iff.1 h
  have hne : strip payload ≠ [] := by
    rw [strip_eq_trim, hw]
    intro hnil
    have hall := List.rdropWhile_eq_nil_iff.1 hnil '{' List.mem_cons_self
    exact absurd hall (by decide)
  obtain ⟨c, t, ht⟩ := List.exists_cons_of_ne_nil hne
  obtain ⟨u, hu⟩ := strip_prefix_trim payload
  rw [ht, hw, List.cons_append] at hu
  rw [ht, (List.cons.inj hu).1]
  rfl

/-- An object begins with its brace. -/
theorem brace_of_number {payload : CString} {v : ℚ} (h : commandNumber payload = some v) :
    (strip payload).head? = some '{' := by
  obtain ⟨ms, hobject, -⟩ := Option.bind_eq_some_iff.1 h
  have hhead := Json.object_head hobject
  refine brace_of_trim ?_
  cases htrim : trim payload with
  | nil =>
    rw [htrim] at hhead
    cases hhead
  | cons c w =>
    -- nothing is skipped, as the first character is not blank
    have hfirst : c ∈ (payload.dropWhile isBlank).head? := by
      obtain ⟨u, hu⟩ := List.rdropWhile_prefix isBlank (payload.dropWhile isBlank)
      rw [trim] at htrim
      rw [← hu, htrim]
      rfl
    have hblank : isBlank c = false := by
      have hnot := List.head?_dropWhile_not isBlank payload
      rw [hfirst] at hnot
      exact hnot
    have hspace : Json.isSpace c = false := by
      simp only [isBlank, Bool.or_eq_false_iff, decide_eq_false_iff_not] at hblank
      simp only [Json.isSpace, Bool.or_eq_false_iff, decide_eq_false_iff_not]
      tauto
    rw [htrim, Json.skip_cons hspace] at hhead
    exact hhead

/-- Where the code looks for the number of an object. -/
def commandText (payload : CString) : Option CString :=
  if (strip payload).head? = some '{' then behind (quoted "v".toList) (strip payload) else none

theorem commandText_eq_some_iff {payload text : CString} :
    commandText payload = some text ↔
      (strip payload).head? = some '{' ∧
        BehindColon "v".toList (copyMsg (strip payload)) text := by
  rw [commandText]
  split
  case isTrue hbrace =>
    rw [behind_eq_some_iff (by decide)]
    exact (and_iff_right hbrace).symm
  case isFalse hbrace => exact iff_of_false (fun h => nomatch h) fun h => hbrace h.1

/-- An object in which a colon follows a `"v"` has five characters. -/
theorem length_of_commandText {payload text : CString} (h : commandText payload = some text) :
    5 ≤ (strip payload).length ∧ (strip payload).head? = some '{' := by
  obtain ⟨hbrace, before, between, htext, -, -⟩ := commandText_eq_some_iff.1 h
  refine ⟨?_, hbrace⟩
  -- the key does not begin at the brace
  have hbefore : before ≠ [] := by
    rintro rfl
    obtain ⟨t, ht⟩ := List.head?_eq_some_iff.1 hbrace
    have hcopy : copyMsg (strip payload) = '{' :: cstr (t.take 178) := by
      rw [ht, copyMsg, cstr, cstr, msgSize]
      exact List.takeWhile_cons_of_pos (by decide)
    rw [hcopy] at htext
    exact absurd (List.cons.inj htext).1 (by decide)
  have hpos := List.length_pos_iff.2 hbefore
  have hcopy : (copyMsg (strip payload)).length ≤ (strip payload).length :=
    ((List.takeWhile_prefix _).length_le).trans (List.length_take_le' _ _)
  have hlen := congrArg List.length htext
  simp only [List.length_append, List.length_cons, quoted, List.length_nil, String.reduceToList]
    at hlen
  omega

theorem mem_openingWords {t : CString} :
    t ∈ openingWords ↔ t = "on".toList ∨ t = "open".toList ∨ t = "1".toList := by
  simp only [openingWords, List.mem_cons, List.not_mem_nil, or_false]

theorem mem_closingWords {t : CString} :
    t ∈ closingWords ↔ t = "off".toList ∨ t = "close".toList ∨ t = "0".toList := by
  simp only [closingWords, List.mem_cons, List.not_mem_nil, or_false]

theorem side_eq_iff {a b : Prop} [Decidable a] [Decidable b] :
    ((if a then Command.on else .off) = if b then .on else .off) ↔ (a ↔ b) := by
  by_cases ha : a <;> by_cases hb : b <;> simp [ha, hb]

variable [CFloat F]

theorem parseCommand_word (payload : CString) :
    (payload ∈ openingWords → parseCommand (F := F) payload = .on) ∧
      (payload ∈ closingWords → parseCommand (F := F) payload = .off) := by
  constructor
  · intro h
    rw [parseCommand, if_pos (mem_openingWords.1 h)]
  · intro h
    have hne : ∀ w ∈ closingWords, w ∉ openingWords := by decide
    rw [parseCommand, if_neg (mt mem_openingWords.2 (hne _ h)), if_pos (mem_closingWords.1 h)]

/-- What is read where the payload is no word. -/
theorem parseCommand_other {payload : CString}
    (h : strip payload ∉ openingWords ++ closingWords) :
    parseCommand (F := F) (strip payload) =
      match commandText payload with
      | some text =>
        if CFloat.le (CFloat.ofRat (1 / 2) : F) (CFloat.atof text) then .on else .off
      | none => .none := by
  rw [List.mem_append, not_or, mem_openingWords, mem_closingWords] at h
  have hkey : "\"v\"".toList = quoted "v".toList := rfl
  rw [parseCommand, if_neg h.1, if_neg h.2, hkey]
  cases htext : commandText payload with
  | some text =>
    obtain ⟨hlen, hbrace⟩ := length_of_commandText htext
    rw [commandText, if_pos hbrace] at htext
    rw [if_pos ⟨hlen, hbrace⟩, jsonFloat_copyMsg, htext]
    rfl
  | none =>
    by_cases hbrace : (strip payload).head? = some '{'
    · rw [commandText, if_pos hbrace] at htext
      rw [jsonFloat_copyMsg, htext]
      exact ite_self _
    · rw [if_neg fun hc => hbrace hc.2]

/-- A word is read as what it says, and asked for unless a NUL follows it. -/
theorem parseCommand_word_iff {payload : CString}
    (h : strip payload ∈ openingWords ++ closingWords) :
    parseCommand (F := F) (strip payload) = asked payload ↔ trim payload = strip payload := by
  have hread := parseCommand_word (F := F) (strip payload)
  by_cases htrim : trim payload = strip payload
  · refine iff_of_true ?_ htrim
    rw [asked, htrim]
    rcases List.mem_append.1 h with h | h
    · rw [hread.1 h, if_pos h]
    · have hne : ∀ w ∈ closingWords, w ∉ openingWords := by decide
      rw [hread.2 h, if_neg (hne _ h), if_pos h]
  · -- a NUL follows the word, and nothing is asked
    refine iff_of_false ?_ htrim
    have hno : trim payload ∉ openingWords ++ closingWords :=
      fun h => htrim (strip_eq_trim_of_word h).symm
    rw [List.mem_append, not_or] at hno
    rw [asked, if_neg hno.1, if_neg hno.2, commandNumber_of_word h]
    rcases List.mem_append.1 h with h | h
    · rw [hread.1 h]
      exact fun h => nomatch h
    · rw [hread.2 h]
      exact fun h => nomatch h

/-- What a payload asks for that is no word. -/
theorem asked_other {payload : CString} (h : strip payload ∉ openingWords ++ closingWords) :
    asked payload =
      match commandNumber payload with
      | some v => if 1 / 2 ≤ v then .on else .off
      | none => .none := by
  have hno : trim payload ∉ openingWords ++ closingWords := by
    intro hword
    rw [strip_eq_trim_of_word hword] at h
    exact h hword
  rw [List.mem_append, not_or] at hno
  rw [asked, if_neg hno.1, if_neg hno.2]

/-- The code reads what is asked if and only if the payload is legible. -/
theorem parseCommand_eq_asked_iff [LawfulAtof F] (payload : CString) :
    parseCommand (F := F) (strip payload) = asked payload ↔ Legible F payload := by
  rw [Legible]
  by_cases hword : strip payload ∈ openingWords ++ closingWords
  · rw [if_pos hword]
    exact parseCommand_word_iff hword
  · rw [if_neg hword, parseCommand_other hword, asked_other hword]
    -- no word: the code reads a text and a number, and may find one without the other
    cases htext : commandText payload with
    | none =>
      have hnowhere : (strip payload).head? = some '{' →
          ∀ text, ¬ BehindColon "v".toList (copyMsg (strip payload)) text := by
        intro hbrace text hbehind
        rw [commandText_eq_some_iff.2 ⟨hbrace, hbehind⟩] at htext
        cases htext
      cases hnumber : commandNumber payload with
      | none => exact iff_of_true rfl hnowhere
      | some v =>
        refine iff_of_false ?_ fun h => ?_
        · dsimp only
          split <;> exact fun h => nomatch h
        · obtain ⟨text, hbehind, -⟩ := h
          exact hnowhere (brace_of_number hnumber) text hbehind
    | some text =>
      obtain ⟨hbrace, hbehind⟩ := commandText_eq_some_iff.1 htext
      cases commandNumber payload with
      | none =>
        refine iff_of_false ?_ fun h => h hbrace text hbehind
        dsimp only
        split <;> exact fun h => nomatch h
      | some v =>
        dsimp only
        rw [LawfulAtof.atof_eq]
        refine side_eq_iff.trans ⟨fun h => ⟨text, hbehind, h⟩, ?_⟩
        rintro ⟨text', hbehind', h⟩
        rw [behindColon_unique (by decide) hbehind' hbehind] at h
        exact h

/-- An object that is written plainly is legible, unless its `v` is no number or is rounded to the
    other side of a half. -/
theorem legible_plain {ms : List (Member (Option ℚ))} (h : PlainMessage ms)
    (hv : ∀ m ∈ ms, m.key = "v".toList → ∃ q, Json.asNumber m.value = some q ∧
      (CFloat.le (CFloat.ofRat (1 / 2) : F) (CFloat.ofRat q) = true ↔ 1 / 2 ≤ q)) :
    Legible F (Json.objectText ms) := by
  have hbrace : (Json.objectText ms).head? = some '{' := rfl
  have hword : Json.objectText ms ∉ openingWords ++ closingWords := by
    intro hmem
    have hall : ∀ w ∈ openingWords ++ closingWords, w.head? ≠ some '{' := by decide
    exact hall _ hmem hbrace
  have hstrip := PlainMessage.strip_eq ms
  rw [Legible, commandNumber, trim_of_strip hstrip, hstrip, h.copyMsg_eq, if_neg hword,
    h.object_eq, Option.bind_some]
  -- with a member `v` its number is read, and without one nothing is
  by_cases hkey : "v".toList ∈ ms.map Member.key
  · obtain ⟨m, hm, hmv⟩ := List.mem_map.1 hkey
    obtain ⟨q, hq, hside⟩ := hv m hm hmv
    obtain ⟨hnumber, text, hbehind, hnumeral⟩ := h.behindColon_number hm hq
    rw [hmv] at hnumber hbehind
    rw [hnumber]
    refine ⟨text, hbehind, ?_⟩
    rw [AtLeastHalf, hnumeral]
    exact hside
  · rw [(PlainMessage.numberAt_absent hkey).1]
    exact fun _ => h.behindColon_absent (by decide) (by decide) hkey

end GsmMqttClient

/-! ### The effect -/

/-- The position a command asks for. -/
def Command.side : Command → Option Bool
  | .on => some true
  | .off => some false
  | .none => Option.none

/-- The effect of a command that was carried out: the latch is where it is asked to be and the flag
    says so, or nothing at all has changed. -/
def Done (cmd : Command) (s t : Sys F) : Prop :=
  match cmd.side with
  | some v => t.board.latchOpen = v ∧ t.board.valve.isOpen = v
  | none => t = s

/-- Where the power fails meanwhile, the latch is where it was or where it is asked to be. -/
def Underway (cmd : Command) (s t : Sys F) : Prop :=
  match cmd.side with
  | some v => t.board.latchOpen = s.board.latchOpen ∨ t.board.latchOpen = v
  | none => False

open GsmMqttClient

variable [CFloat F]

variable (F) in
/-- A payload on the command topic has the effect of the command it stands for. -/
def Decoded (payload : CString) : Prop :=
  ∀ s : Sys F, Listening s →
    wp (onMessage WaterboxFsm.handlers s.board.radio.topicCmd payload)
      (fun _ t => Done (asked payload) s t) (fun t => Underway (asked payload) s t) s

namespace WaterboxFsm

omit [CFloat F] in
/-- The coil moves the latch to the side that is asked for, and the position is saved. -/
theorem actuate_placed (v l : Bool) :
    Triple (fun s : Sys F => s.board.valve.speed = Settings.valveSpeed ∧ s.board.latchOpen = l)
      (LatchingValve.apply v >>= fun _ => persistNow) (fun _ => Placed v v)
      (fun s => s.board.latchOpen = l ∨ s.board.latchOpen = v) := by
  refine Triple.bind (Q := fun _ => Placed v v) ?_ fun _ => ?_
  · refine (LatchingValve.apply_placed v (L := fun _ => True) (fun _ h => .inl h.2)
      (fun _ _ => trivial) (fun s e rest _ h => ?_) (fun _ _ h => h) fun _ h => h.1).conseq
      (fun _ h => h) (fun _ _ h => h.1) (fun _ h => h)
    exact ⟨(congrArg LatchingValve.speed (Board.after_valve _ _)).trans h.1,
      (Board.after_latchOpen _ _).trans h.2⟩
  · have hcut : ∀ s : Sys F, Placed v v s → s.board.latchOpen = l ∨ s.board.latchOpen = v :=
      fun _ h => .inr h.latch
    refine Keeps.bind (look_keeps _) fun _ => ?_
    exact MeterStore.save_keeps Placed.fsmStable.toPortStable hcut (fun _ _ h => h.frame rfl rfl)
      (fun _ _ h => h.frame rfl rfl) (fun _ h => h.frame rfl rfl) _ _

/-- A command has its effect. -/
theorem obey_done (cmd : Command) {s : Sys F} (hs : Listening s) :
    wp (obey handlers cmd) (fun _ t => Done cmd s t) (fun t => Underway cmd s t) s := by
  have hlogged : ∀ v, Triple (Placed v v) (emit (.commanded cmd) : Fw F Unit)
      (fun _ t => t.board.latchOpen = v ∧ t.board.valve.isOpen = v)
      (fun t => t.board.latchOpen = s.board.latchOpen ∨ t.board.latchOpen = v) :=
    fun v t ht => ⟨ht.latch, ht.flag⟩
  cases cmd with
  | none =>
    show Done .none s s
    rfl
  | on => exact Triple.bind (actuate_placed true _) (fun _ => hlogged true) s ⟨hs.speed, rfl⟩
  | off => exact Triple.bind (actuate_placed false _) (fun _ => hlogged false) s ⟨hs.speed, rfl⟩

/-- With the power on, a command is carried out. -/
theorem obey_finishes (cmd : Command) (latchOpen : Bool) :
    ∃ t : Sys F,
      obey handlers cmd (heard blank latchOpen (List.replicate 3 willing)) = (some (), t) := by
  cases cmd with
  | none => exact ⟨_, rfl⟩
  | on => exact ⟨_, rfl⟩
  | off => exact ⟨_, rfl⟩

omit [CFloat F] in
theorem latch_of_done {cmd : Command} {s t : Sys F} (h : Done cmd s t) :
    t.board.latchOpen = cmd.side.getD s.board.latchOpen := by
  cases cmd with
  | none =>
    have heq : t = s := h
    rw [heq]
    rfl
  | on => exact h.1
  | off => exact h.1

/-- Commands that leave the latch in the same place, wherever it was, are the same. -/
theorem side_injective {c d : Command} (h : ∀ l, c.side.getD l = d.side.getD l) : c = d := by
  revert h
  cases c <;> cases d <;> decide

/-- A payload has its effect if and only if the code reads what it asks. -/
theorem decoded_iff_read (payload : CString) :
    Decoded F payload ↔ parseCommand (F := F) (strip payload) = asked payload := by
  constructor
  · intro h
    refine side_injective fun l => ?_
    have hheard := listening_heard (F := F) blank l (List.replicate 3 willing)
    obtain ⟨t, ht⟩ := obey_finishes (F := F) (parseCommand (F := F) (strip payload)) l
    have hcode := latch_of_done (wp_finished (m := obey handlers _) (obey_done _ hheard) ht)
    rw [← onMessage_command hheard] at ht
    have hasked := latch_of_done (wp_finished (m := onMessage handlers _ payload) (h _ hheard) ht)
    exact hcode.symm.trans hasked
  · intro h s hs
    rw [wp, onMessage_command hs, h]
    exact obey_done (asked payload) hs

/-- The command decoding of the documentation: a payload on the command topic has the effect of the
    command it stands for, and no other, if and only if it is legible.  An object that is written
    plainly is. -/
theorem commands_decoded_iff [LawfulAtof F] :
    (∀ payload : CString, Decoded F payload ↔ Legible F payload) ∧
      ∀ ms : List (Member (Option ℚ)), PlainMessage ms →
        (∀ m ∈ ms, m.key = "v".toList → ∃ q, Json.asNumber m.value = some q ∧
          (CFloat.le (CFloat.ofRat (1 / 2) : F) (CFloat.ofRat q) = true ↔ 1 / 2 ≤ q)) →
        Decoded F (Json.objectText ms) := by
  have hiff : ∀ payload : CString, Decoded F payload ↔ Legible F payload := fun payload =>
    (decoded_iff_read payload).trans (parseCommand_eq_asked_iff payload)
  exact ⟨hiff, fun ms h hv => (hiff _).2 (legible_plain h hv)⟩

/-- An object with another member before its `v` opens the valve. -/
theorem commands_decoded_plain : Decoded Single "\x7b\"t\":-3,\"v\":0.5\x7d".toList := by
  let t : Member (Option ℚ) := ⟨"t".toList, sdec (-3), .int (-3), by decide, Json.denotes_sdec _⟩
  let v : Member (Option ℚ) :=
    ⟨"v".toList, fixed 1 5, .float (some (scaled false 5 (-1))), by decide,
      Json.denotes_fixed false (by decide) 5⟩
  have htext : Json.objectText [t, v] = "\x7b\"t\":-3,\"v\":0.5\x7d".toList := by decide +kernel
  have hplain : PlainMessage [t, v] := by
    refine ⟨by decide, by decide, ?_, by simp [t, v, Json.standard], ?_, ?_⟩
    · decide +kernel
    · rw [htext]
      decide
    · rw [htext]
      decide
  rw [← htext]
  refine commands_decoded_iff.2 _ hplain ?_
  intro m hm hkey
  rcases List.mem_pair.1 hm with rfl | rfl
  · exact absurd hkey (by decide)
  · exact ⟨scaled false 5 (-1), rfl, by decide +kernel⟩

/-- A `"v"` that is a value opens the valve. -/
theorem commands_misread : ¬ ∀ payload : CString, Decoded Single payload := by
  intro h
  have hread := (decoded_iff_read (F := Single) _).1 (h "\x7b\"x\":\"v\",\"y\":1\x7d".toList)
  exact absurd hread (by decide +kernel)

end WaterboxFsm

end Waterbox
