import Waterbox.Firmware.Settings
import Waterbox.Lib.Gather
import Waterbox.Lib.Keys
import Mathlib.Data.List.TakeWhile

namespace Waterbox

/-!
# `receive` and `ATcommand` of `sim800.cpp`

The level below the one at which the environment decides a reply: the bytes of the modem arrive at
the serial port over the rounds of a polling loop, and a reply is what stands in the buffer when the
loop ends.

* `receive_of_not_wraps` — the loop reads a reply that comes in time, to its end and no further.
* `receive_of_wraps` — nothing is read where the end of the wait lies behind the wrap of `millis()`
  and the clock before it.
* `shortest_unended` — a reply ends at its end text.
* `atCommand_answered` — what `ATcommand` makes of a reply, for any way in which its bytes are
  spread over the wait.
-/

namespace SerialPort

open Text Gather

def bufLength : Nat := 100
def okStr : CString := "OK\r\n".toList
def errorStr : CString := "ERROR\r\n".toList

/-- One round of the loop: the milliseconds since the call, and the bytes that have arrived since
    the last round. -/
structure Sight where
  elapsed : Nat
  arrived : List Char

/-- `found(buf, check)`. -/
def found (buf : List Char) : Option CString → Bool
  | none => false
  | some check => (strstr check (cstr buf)).isSome

/-- What a command leaves: the value returned, the buffer of 100 bytes, and the bytes that have not
    been read. -/
structure Receipt where
  ok : Bool
  buf : List Char
  unread : List Char

/-- Write `text` to the start of a buffer. -/
def overwrite (buf text : List Char) : List Char := text ++ buf.drop text.length

/-- `timeIsOut > millis()` fails. -/
def late (start timeIsOut : U32) (s : Sight) : Bool :=
  !decide (timeIsOut > start + BitVec.ofNat 32 s.elapsed)

def polls (start timeIsOut : U32) (sights : List Sight) : List (Poll Char) :=
  sights.map fun s => ⟨late start timeIsOut s, s.arrived⟩

/-- `ok` or `error`, after a byte was read. -/
def ends (checkok checkerror : Option CString) (buf : List Char) : Bool :=
  found buf checkok || found buf checkerror

/-- `receive(buf, timeout, checkok, checkerror)`, called when `millis()` is `start`; `none` where
    the loop goes on after all `sights`. -/
def receive (buf : List Char) (timeout : U16) (checkok checkerror : Option CString) (start : U32)
    (sights : List Sight) : Option Receipt :=
  let timeIsOut := start + timeout.setWidth 32
  let test := ends checkok checkerror
  (gather test (bufLength - 1) (polls start timeIsOut sights) [] []).map fun o =>
    { ok := o.passed && found o.buffer checkok
      buf := overwrite buf (o.buffer ++ ['\x00'])
      unread := o.port ++ arrivals o.rest }

/-- `strlen`. -/
def strlen (buf : List Char) : Nat := (cstr buf).length

/-- `for (unsigned int i = 0; i <= strlen(buf) - 2; ++i) buf[i] = buf[i + 2];` — `none` is an access
    behind the buffer. -/
def shiftLeft : Nat → U16 → List Char → Option (List Char)
  | 0, _, _ => none
  | fuel + 1, i, buf =>
    if i ≤ BitVec.ofNat 16 (strlen buf) - 2 then
      match buf[i.toNat + 2]? with
      | none => none
      | some c => shiftLeft fuel (i + 1) (buf.set i.toNat c)
    else some buf

def crlf : CString := ['\r', '\n']

/-- Remove a CRLF from the head. -/
def trimHead (buf : List Char) : Option (List Char) :=
  if (cstr buf).take 2 = crlf then shiftLeft buf.length 0 buf else some buf

/-- Remove a CRLF from the tail. -/
def trimTail (buf : List Char) : List Char :=
  if strlen buf > 2 ∧ (cstr buf).drop (strlen buf - 2) = crlf then buf.set (strlen buf - 2) '\x00'
  else buf

/-- `ATcommand(command, buf, checkok, checkerror, timeout)` from the call of `receive` on, which
    takes 16 bits of the timeout. -/
def atCommand (buf : List Char) (checkok checkerror : Option CString) (timeout : U32) (start : U32)
    (sights : List Sight) : Option Receipt := do
  let r ← receive buf (timeout.setWidth 16) checkok checkerror start sights
  if r.ok then
    let buf ← trimHead r.buf
    some { r with buf := trimTail buf }
  else some r

/-- `ATcommand(command, buf)`. -/
def atCommandDefault (buf : List Char) : U32 → List Sight → Option Receipt :=
  atCommand buf (some okStr) (some errorStr) 5000

/-! ### A reply that comes in time -/

/-- A reply of the modem during a wait, in whatever pieces it arrives: the clock runs on and stays
    within the wait, and once the reply is there, the port is looked at often enough. -/
structure Arrives (timeout : Nat) (reply later : List Char) (sights : List Sight) : Prop where
  sorted : (sights.map (·.elapsed)).Pairwise (· ≤ ·)
  within : ∀ s ∈ sights, s.elapsed < timeout
  text : sights.flatMap (·.arrived) = reply ++ later
  rounds : ∃ ps qs, sights = ps ++ qs ∧ reply.length ≤ (ps.flatMap (·.arrived)).length ∧
    reply.length ≤ qs.length

/-- The end of the wait lies behind the wrap of `millis()`, and the clock does not yet when it is
    looked at first. -/
def Wraps (start : U32) (timeout : Nat) (sights : List Sight) : Prop :=
  2 ^ 32 ≤ start.toNat + timeout ∧ ∀ s ∈ sights.head?, start.toNat + s.elapsed < 2 ^ 32

/-- A reply that arrives at once, before a port that is looked at often enough. -/
theorem arrives_at_once {timeout : Nat} (htimeout : 1 < timeout) (reply : List Char) :
    Arrives timeout reply [] (⟨0, reply⟩ :: List.replicate reply.length ⟨1, []⟩) where
  sorted := by
    rw [List.map_cons, List.map_replicate, List.pairwise_cons, List.pairwise_replicate]
    exact ⟨fun _ _ => Nat.zero_le _, .inr (Nat.le_refl 1)⟩
  within := by
    intro s hs
    rcases List.mem_cons.1 hs with rfl | hs
    · exact Nat.lt_trans Nat.zero_lt_one htimeout
    · rw [List.eq_of_mem_replicate hs]
      exact htimeout
  text := by
    rw [List.flatMap_cons, List.flatMap_replicate, List.flatten_replicate_nil]
  rounds := ⟨[⟨0, reply⟩], _, rfl, by simp, by simp⟩

theorem late_eq {start : U32} {timeout : U16} {s : Sight} (hs : s.elapsed < timeout.toNat) :
    late start (start + timeout.setWidth 32) s =
      decide (2 ^ 32 ≤ start.toNat + timeout.toNat ∧ start.toNat + s.elapsed < 2 ^ 32) := by
  have hstart := start.isLt
  have htimeout := timeout.isLt
  have hend : (start + timeout.setWidth 32).toNat = (start.toNat + timeout.toNat) % 2 ^ 32 := by
    rw [BitVec.toNat_add, BitVec.toNat_setWidth_of_le (by decide)]
  have hnow : (start + BitVec.ofNat 32 s.elapsed).toNat = (start.toNat + s.elapsed) % 2 ^ 32 := by
    rw [BitVec.toNat_add, BitVec.toNat_ofNat, Nat.add_mod_mod]
  simp only [late, gt_iff_lt, BitVec.lt_def, hend, hnow, ← decide_not, decide_eq_decide]
  omega

theorem arrivals_polls (start timeIsOut : U32) (sights : List Sight) :
    arrivals (polls start timeIsOut sights) = sights.flatMap (·.arrived) := by
  rw [arrivals, polls, List.flatMap_map]

variable {timeout : U16} {checkok checkerror : Option CString} {start : U32} {sights : List Sight}
  {buf reply later : List Char}

/-- A wait that wraps ends at the first look at the clock. -/
theorem receive_of_wraps (h : Arrives timeout.toNat reply later sights) (hne : sights ≠ [])
    (hwraps : Wraps start timeout.toNat sights) :
    receive buf timeout checkok checkerror start sights =
      some ⟨false, overwrite buf ['\x00'], reply ++ later⟩ := by
  obtain ⟨-, hwithin, htext, -⟩ := h
  obtain ⟨s, rest, rfl⟩ := List.exists_cons_of_ne_nil hne
  have hlate : late start (start + timeout.setWidth 32) s = true := by
    rw [late_eq (hwithin s List.mem_cons_self)]
    exact decide_eq_true ⟨hwraps.1, hwraps.2 s rfl⟩
  rw [receive, polls, List.map_cons, gather_end (by simp [hlate]), ← polls, Option.map_some,
    List.nil_append, List.nil_append, arrivals_polls, ← htext]
  rfl

/-- In a wait that does not wrap, no look at the clock is late. -/
theorem late_of_not_wraps (h : Arrives timeout.toNat reply later sights)
    (hwraps : ¬ Wraps start timeout.toNat sights) {s : Sight} (hs : s ∈ sights) :
    late start (start + timeout.setWidth 32) s = false := by
  rw [late_eq (h.within s hs)]
  apply decide_eq_false
  rintro ⟨hend, hnow⟩
  apply hwraps
  refine ⟨hend, ?_⟩
  -- the first look is not later than this one
  intro s' hs'
  obtain ⟨rest, rfl⟩ := List.head?_eq_some_iff.1 hs'
  have hsorted := h.sorted
  rw [List.map_cons, List.pairwise_cons] at hsorted
  rcases List.mem_cons.1 hs with rfl | hs
  · exact hnow
  · have := hsorted.1 _ (List.mem_map_of_mem hs)
    omega

/-- A wait that does not wrap reads the reply to its end, and nothing behind it. -/
theorem receive_of_not_wraps (h : Arrives timeout.toNat reply later sights)
    (hk : Shortest (ends checkok checkerror) reply reply.length) (hlen : reply.length < bufLength)
    (hwraps : ¬ Wraps start timeout.toNat sights) :
    receive buf timeout checkok checkerror start sights =
      some ⟨found reply checkok, overwrite buf (reply ++ ['\x00']), later⟩ := by
  have hlate : ∀ p ∈ polls start (start + timeout.setWidth 32) sights, p.late = false := by
    intro p hp
    obtain ⟨s, hs, rfl⟩ := List.mem_map.1 hp
    exact late_of_not_wraps h hwraps hs
  obtain ⟨-, -, htext, ps, qs, rfl, hps, hqs⟩ := h
  have happend : polls start (start + timeout.setWidth 32) (ps ++ qs) =
      polls start (start + timeout.setWidth 32) ps ++
        polls start (start + timeout.setWidth 32) qs :=
    List.map_append
  have harrive :
      arrivals (polls start (start + timeout.setWidth 32) (ps ++ qs)) = reply ++ later := by
    rw [arrivals_polls, htext]
  rw [happend] at hlate harrive
  obtain ⟨port, rest, hgather, hrest⟩ := gather_eq hlate (hk.append later)
    (Nat.le_sub_one_of_lt hlen) harrive (by rw [arrivals_polls]; exact hps)
    (by rw [polls, List.length_map]; exact hqs)
  rw [List.drop_left] at hrest
  rw [List.take_left] at hgather
  rw [receive, happend, hgather, Option.map_some]
  dsimp only
  rw [hrest, Bool.true_and]

/-! ### Replies that end with `OK` or `ERROR` -/

theorem cstr_append {u : List Char} (hu : '\x00' ∉ u) (v : List Char) :
    cstr (u ++ v) = u ++ cstr v := by
  apply List.takeWhile_append_of_pos
  intro c hc
  exact decide_eq_true (ne_of_mem_of_not_mem hc hu)

theorem cstr_nul {u : List Char} (hu : '\x00' ∉ u) (v : List Char) :
    cstr (u ++ '\x00' :: v) = u := by
  rw [cstr_append hu]
  exact List.append_nil u

/-- A pattern lies in a text where `found` says so. -/
theorem found_iff {p buf : List Char} : found buf (some p) = true ↔ p <:+: cstr buf := by
  rw [found, strstr_isSome_iff]

theorem cstr_eq {u : List Char} (hu : '\x00' ∉ u) : cstr u = u :=
  List.takeWhile_eq_self_iff.2 fun _ hc => decide_eq_true (ne_of_mem_of_not_mem hc hu)

/-- Text without a NUL in which no reply ends. -/
structure Unended (u : List Char) : Prop where
  nul : '\x00' ∉ u
  ok : ¬ okStr <:+: u
  error : ¬ errorStr <:+: u

/-- Text without a NUL, an `O` or an `E`. -/
def Clean (u : List Char) : Prop := '\x00' ∉ u ∧ 'O' ∉ u ∧ 'E' ∉ u

instance (u : List Char) : Decidable (Clean u) := inferInstanceAs (Decidable (_ ∧ _ ∧ _))

theorem Clean.unended {u : List Char} (hu : Clean u) : Unended u where
  nul := hu.1
  ok h := hu.2.1 (h.subset (by decide))
  error h := hu.2.2 (h.subset (by decide))

theorem ends_iff {u : List Char} (hu : '\x00' ∉ u) :
    ends (some okStr) (some errorStr) u = true ↔ okStr <:+: u ∨ errorStr <:+: u := by
  rw [ends, Bool.or_eq_true, found_iff, found_iff, cstr_eq hu]

/-- Both end texts end with a character that they do not hold before. -/
theorem endText_cases {w : List Char} (hw : w ∈ [okStr, errorStr]) :
    '\x00' ∉ w ∧ '\n' ∉ w.dropLast ∧ w ≠ [] := by
  revert hw
  revert w
  decide

/-- A reply with its end text ends there, and not before. -/
theorem shortest_unended {u w : List Char} (hu : Unended u) (hw : w ∈ [okStr, errorStr]) :
    Shortest (ends (some okStr) (some errorStr)) (u ++ w) (u ++ w).length := by
  obtain ⟨hnulw, hfirst, hne⟩ := endText_cases hw
  have hnul : '\x00' ∉ u ++ w := by
    rw [List.mem_append]
    exact not_or.2 ⟨hu.nul, hnulw⟩
  have hpos := List.length_pos_iff.2 hne
  have hlen : (u ++ w).length = u.length + w.length := List.length_append
  refine ⟨by omega, Nat.le_refl _, ?_, ?_⟩
  · rw [List.take_length, ends_iff hnul]
    have hsuffix : w <:+: u ++ w := (List.suffix_append u w).isInfix
    rcases List.mem_pair.1 hw with rfl | rfl
    · exact .inl hsuffix
    · exact .inr hsuffix
  · intro j _ hj
    have hprefix : (u ++ w).take j <+: u ++ w.dropLast := by
      rw [← List.dropLast_append_of_ne_nil hne]
      exact List.dropLast_eq_take ▸ List.take_prefix_take_left (by omega)
    rw [Bool.eq_false_iff, Ne, ends_iff fun h => hnul (List.mem_of_mem_take h), not_or]
    constructor
    · intro h
      have hinfix : "OK\r".toList ++ ['\n'] <:+: u ++ w.dropLast := h.trans hprefix.isInfix
      exact hu.ok ((infix_append_iff hfirst).1 hinfix)
    · intro h
      have hinfix : "ERROR\r".toList ++ ['\n'] <:+: u ++ w.dropLast := h.trans hprefix.isInfix
      exact hu.error ((infix_append_iff hfirst).1 hinfix)

/-- `OK` does not end in `ERROR`. -/
theorem found_ok_iff {u w : List Char} (hu : Unended u) (hw : w ∈ [okStr, errorStr]) :
    found (u ++ w) (some okStr) = true ↔ w = okStr := by
  have hnul : '\x00' ∉ u ++ w := by
    rw [List.mem_append]
    exact not_or.2 ⟨hu.nul, (endText_cases hw).1⟩
  rw [found_iff, cstr_eq hnul]
  rcases List.mem_pair.1 hw with rfl | rfl
  · exact iff_of_true (List.suffix_append u _).isInfix rfl
  · refine iff_of_false (fun h => ?_) (by decide)
    have hsplit : u ++ errorStr = u ++ "ERROR\r".toList ++ ['\n'] := by
      rw [List.append_assoc]
      rfl
    rw [hsplit, List.infix_concat_iff, ← hsplit] at h
    rcases h with h | h
    · -- the two ends differ
      have hsuffix : okStr <:+ errorStr :=
        List.suffix_of_suffix_length_le h (List.suffix_append u _) (by decide)
      exact absurd hsuffix (by decide)
    · have hinfix : "OK\r".toList ++ ['\n'] <:+: u ++ "ERROR\r".toList := h
      exact hu.ok ((infix_append_iff (by decide)).1 hinfix)

/-! ### The CRLF at both ends -/

theorem strlen_nul {u : List Char} (hu : '\x00' ∉ u) (v : List Char) :
    strlen (u ++ '\x00' :: v) = u.length := by
  rw [strlen, cstr_nul hu]

theorem toNat_sub_two {n : Nat} (hn : 2 ≤ n) (hshort : n < 2 ^ 16) :
    (BitVec.ofNat 16 n - 2).toNat = n - 2 := by
  have htwo : (2 : U16).toNat = 2 := rfl
  rw [BitVec.toNat_sub, BitVec.toNat_ofNat, htwo]
  omega

/-- A round of the shift: the character two places on is written over the next. -/
theorem shiftLeft_round {fuel : Nat} {front tail : List Char} {x y c : Char} {n : Nat}
    (hlen : strlen (front ++ x :: y :: c :: tail) = n) (hn : front.length + 2 ≤ n)
    (hshort : n < 2 ^ 16) :
    shiftLeft (fuel + 1) (BitVec.ofNat 16 front.length) (front ++ x :: y :: c :: tail) =
      shiftLeft fuel (BitVec.ofNat 16 (front.length + 1)) (front ++ c :: y :: c :: tail) := by
  have hindex : (BitVec.ofNat 16 front.length).toNat = front.length := by
    rw [BitVec.toNat_ofNat, Nat.mod_eq_of_lt (by omega)]
  have hlast := toNat_sub_two (by omega) hshort
  have hget : (front ++ x :: y :: c :: tail)[front.length + 2]? = some c := by
    rw [List.getElem?_append_right (Nat.le_add_right _ _), Nat.add_sub_cancel_left]
    rfl
  rw [shiftLeft, hlen, if_pos (by rw [BitVec.le_def, hindex, hlast]; omega), hindex, hget]
  dsimp only
  rw [List.set_append_right _ _ (Nat.le_refl _), Nat.sub_self, List.set_cons_zero, BitVec.ofNat_add]
  rfl

/-- The loop shifts a text of four characters or more to the left by two; `front` has been
    shifted, and `x` and `y` are to be written over. -/
theorem shiftLeft_eq {fuel : Nat} {front back rest : List Char} {x y : Char}
    (hnul : '\x00' ∉ front ++ x :: y :: back) (hfuel : back.length + 1 < fuel)
    (hlong : 2 ≤ (front ++ back).length) (hshort : (front ++ back).length < 2 ^ 15) :
    ∃ rest', shiftLeft fuel (BitVec.ofNat 16 front.length)
      (front ++ x :: y :: (back ++ '\x00' :: rest)) = some (front ++ back ++ '\x00' :: rest') := by
  induction back generalizing fuel front x y with
  | nil =>
    obtain ⟨fuel, rfl⟩ : ∃ n, fuel = n + 2 := Nat.exists_eq_add_of_le' hfuel
    rw [List.append_nil] at hlong hshort ⊢
    rw [List.nil_append]
    have hfront : '\x00' ∉ front := fun h => hnul (List.mem_append_left _ h)
    have hlen : strlen (front ++ x :: y :: '\x00' :: rest) = front.length + 2 := by
      rw [show front ++ x :: y :: '\x00' :: rest = front ++ [x, y] ++ '\x00' :: rest by simp,
        strlen_nul hnul, List.length_append]
      rfl
    -- the terminator is shifted, and the text ends before the index
    refine ⟨y :: '\x00' :: rest, ?_⟩
    rw [shiftLeft_round hlen (Nat.le_refl _) (by omega), shiftLeft, strlen_nul hfront, if_neg]
    rw [BitVec.le_def, toNat_sub_two hlong (by omega), BitVec.toNat_ofNat]
    omega
  | cons c back ih =>
    obtain ⟨fuel, rfl⟩ : ∃ n, fuel = n + 1 := Nat.exists_eq_add_of_le' (by omega)
    rw [List.length_append, List.length_cons] at hlong hshort
    rw [List.length_cons] at hfuel
    have hlen : strlen (front ++ x :: y :: c :: (back ++ '\x00' :: rest)) =
        front.length + back.length + 3 := by
      rw [show front ++ x :: y :: c :: (back ++ '\x00' :: rest) =
        front ++ x :: y :: c :: back ++ '\x00' :: rest by simp, strlen_nul hnul, List.length_append]
      simp only [List.length_cons]
      omega
    have hnul' : '\x00' ∉ front ++ [c] ++ y :: c :: back := by
      simp only [List.mem_append, List.mem_cons, not_or] at hnul ⊢
      tauto
    have hcount : (front ++ [c] ++ back).length = front.length + 1 + back.length := by
      rw [List.length_append, List.length_append, List.length_singleton]
    have hfuel' : back.length + 1 < fuel := by omega
    obtain ⟨rest', hrest⟩ := ih hnul' hfuel' (by omega) (by omega)
    rw [List.length_append, List.length_singleton] at hrest
    refine ⟨rest', ?_⟩
    rw [List.cons_append, shiftLeft_round hlen (by omega) (by omega), List.append_cons, hrest,
      List.append_cons front c back]

/-- A text without the CRLF at its head. -/
def headless (u : List Char) : List Char := if u.take 2 = crlf then u.drop 2 else u

theorem headless_crlf (u : List Char) : headless (crlf ++ u) = u := if_pos rfl

/-- The CRLF at the head of a reply is removed. -/
theorem trimHead_eq {u : List Char} (rest : List Char) (hnul : '\x00' ∉ u)
    (hshort : (u ++ okStr).length < 2 ^ 15) :
    ∃ rest', trimHead (u ++ okStr ++ '\x00' :: rest) =
      some (headless u ++ okStr ++ '\x00' :: rest') := by
  have hnul' : '\x00' ∉ u ++ okStr := by
    rw [List.mem_append]
    exact not_or.2 ⟨hnul, by decide⟩
  have hhead : (u ++ okStr).take 2 = crlf ↔ u.take 2 = crlf := by
    -- no CRLF begins in the end text
    match u with
    | [] => decide
    | [c] => exact iff_of_false (fun h => nomatch h) (fun h => nomatch h)
    | c :: d :: t => exact Iff.rfl
  rw [trimHead, cstr_nul hnul', headless]
  by_cases hcrlf : u.take 2 = crlf
  · rw [if_pos (hhead.2 hcrlf), if_pos hcrlf]
    obtain ⟨v, rfl⟩ : ∃ v, u = crlf ++ v := ⟨u.drop 2, by rw [← hcrlf, List.take_append_drop]⟩
    have hlen : (v ++ okStr).length = v.length + 4 := List.length_append
    have hlen' : (crlf ++ v ++ okStr).length = (v ++ okStr).length + 2 := by
      rw [List.append_assoc, List.length_append, Nat.add_comm]
      rfl
    have hall : (crlf ++ v ++ okStr ++ '\x00' :: rest).length =
        (crlf ++ v ++ okStr).length + (rest.length + 1) := List.length_append
    have hfuel : (v ++ okStr).length + 1 < (crlf ++ v ++ okStr ++ '\x00' :: rest).length := by
      omega
    have hshift : ∃ rest', shiftLeft (crlf ++ v ++ okStr ++ '\x00' :: rest).length
        (BitVec.ofNat 16 ([] : List Char).length)
        ([] ++ '\r' :: '\n' :: (v ++ okStr ++ '\x00' :: rest)) =
          some ([] ++ (v ++ okStr) ++ '\x00' :: rest') :=
      shiftLeft_eq (by rw [List.append_assoc] at hnul'; exact hnul') hfuel
        (by rw [List.nil_append]; omega) (by rw [List.nil_append]; omega)
    exact hshift
  · rw [if_neg (mt hhead.1 hcrlf), if_neg hcrlf]
    exact ⟨rest, rfl⟩

/-- A CRLF at the tail is removed. -/
theorem cstr_trimTail {u rest : List Char} (hnul : '\x00' ∉ u) (hne : u ≠ []) :
    cstr (trimTail (u ++ crlf ++ '\x00' :: rest)) = u := by
  have hnul' : '\x00' ∉ u ++ crlf := by
    simp only [crlf, List.mem_append, List.mem_cons, List.not_mem_nil, not_or]
    exact ⟨hnul, by decide, by decide, not_false⟩
  have hlen : (u ++ crlf).length - 2 = u.length := by
    rw [List.length_append]
    rfl
  have hpos := List.length_pos_iff.2 hne
  rw [trimTail, strlen_nul hnul', cstr_nul hnul', hlen, List.drop_left, if_pos ⟨by omega, rfl⟩,
    List.append_assoc, List.set_append_right _ _ (Nat.le_refl _), Nat.sub_self]
  exact cstr_nul hnul _

/-! ### Commands -/

variable {body : List Char} {wait : U32}

theorem overwrite_nul (buf text : List Char) :
    ∃ rest, overwrite buf (text ++ ['\x00']) = text ++ '\x00' :: rest :=
  ⟨buf.drop (text ++ ['\x00']).length, by rw [overwrite, List.append_assoc]; rfl⟩

/-- A wait that wraps fails with nothing read. -/
theorem atCommand_of_wraps (hne : reply ++ later ≠ [])
    (h : Arrives (wait.setWidth 16 : U16).toNat reply later sights)
    (hwraps : Wraps start (wait.setWidth 16 : U16).toNat sights) :
    atCommand buf (some okStr) (some errorStr) wait start sights =
      some ⟨false, overwrite buf ['\x00'], reply ++ later⟩ := by
  have hsights : sights ≠ [] := by
    rintro rfl
    exact hne h.text.symm
  rw [atCommand, receive_of_wraps h hsights hwraps]
  rfl

/-- In a wait that does not wrap, the reply `OK` is left without the CRLF at its ends, and what
    comes behind it is not read. -/
theorem atCommand_ok (buf : List Char) (start wait : U32) (hbody : Unended body)
    (hlen : (body ++ okStr).length < bufLength)
    (h : Arrives (wait.setWidth 16 : U16).toNat (body ++ okStr) later sights)
    (hwraps : ¬ Wraps start (wait.setWidth 16 : U16).toNat sights) :
    ∃ r, atCommand buf (some okStr) (some errorStr) wait start sights = some r ∧ r.ok = true ∧
      cstr r.buf = headless body ++ "OK".toList ∧ r.unread = later := by
  have hmem : okStr ∈ [okStr, errorStr] := List.mem_cons_self
  have hsize : bufLength = 100 := rfl
  have hnul : '\x00' ∉ headless body := by
    rw [headless]
    split
    · exact fun h => hbody.nul (List.mem_of_mem_drop h)
    · exact hbody.nul
  obtain ⟨rest, hrest⟩ := overwrite_nul buf (body ++ okStr)
  obtain ⟨rest', hhead⟩ := trimHead_eq rest hbody.nul (by omega)
  have htail : cstr (trimTail (headless body ++ okStr ++ '\x00' :: rest')) =
      headless body ++ "OK".toList := by
    have hsplit : headless body ++ okStr = headless body ++ "OK".toList ++ crlf := by
      rw [List.append_assoc]
      rfl
    rw [hsplit]
    apply cstr_trimTail
    · rw [List.mem_append]
      exact not_or.2 ⟨hnul, by decide⟩
    · simp
  refine ⟨⟨true, trimTail (headless body ++ okStr ++ '\x00' :: rest'), later⟩, ?_, rfl, htail, rfl⟩
  rw [atCommand, receive_of_not_wraps h (shortest_unended hbody hmem) hlen hwraps,
    (found_ok_iff hbody hmem).2 rfl, hrest]
  show (trimHead _).bind _ = _
  rw [hhead]
  rfl

/-- In a wait that does not wrap, the reply `ERROR` is left as it came. -/
theorem atCommand_error (buf : List Char) (start wait : U32) (hbody : Unended body)
    (hlen : (body ++ errorStr).length < bufLength)
    (h : Arrives (wait.setWidth 16 : U16).toNat (body ++ errorStr) later sights)
    (hwraps : ¬ Wraps start (wait.setWidth 16 : U16).toNat sights) :
    ∃ r, atCommand buf (some okStr) (some errorStr) wait start sights = some r ∧ r.ok = false ∧
      cstr r.buf = body ++ errorStr ∧ r.unread = later := by
  have hmem : errorStr ∈ [okStr, errorStr] := by simp
  have hfound : found (body ++ errorStr) (some okStr) = false := by
    rw [Bool.eq_false_iff, Ne, found_ok_iff hbody hmem]
    decide
  have hnul : '\x00' ∉ body ++ errorStr := by
    rw [List.mem_append]
    exact not_or.2 ⟨hbody.nul, by decide⟩
  obtain ⟨rest, hrest⟩ := overwrite_nul buf (body ++ errorStr)
  refine ⟨⟨false, body ++ errorStr ++ '\x00' :: rest, later⟩, ?_, rfl, cstr_nul hnul rest, rfl⟩
  rw [atCommand, receive_of_not_wraps h (shortest_unended hbody hmem) hlen hwraps, hfound, hrest]
  rfl

/-- A reply with either end text, in which neither stands before: the call succeeds with `OK` in a
    wait that does not wrap, and then leaves what stands between the CRLFs; with `ERROR` it leaves
    the reply; a wait that wraps fails with nothing read.  In each case what has not been read stays
    in the port.  The wait is the low 16 bits of the one that is asked for. -/
theorem atCommand_answered (buf : List Char) (start wait : U32) {w : List Char}
    (hbody : Unended body) (hw : w ∈ [okStr, errorStr])
    (hlen : (body ++ w).length < bufLength)
    (h : Arrives (wait.setWidth 16 : U16).toNat (body ++ w) later sights) :
    ∃ r, atCommand buf (some okStr) (some errorStr) wait start sights = some r ∧
      (r.ok = true ↔ w = okStr ∧ ¬ Wraps start (wait.setWidth 16 : U16).toNat sights) ∧
      (¬ Wraps start (wait.setWidth 16 : U16).toNat sights →
        cstr r.buf = (if w = okStr then headless body ++ "OK".toList else body ++ w) ∧
          r.unread = later) ∧
      (Wraps start (wait.setWidth 16 : U16).toNat sights →
        cstr r.buf = [] ∧ r.unread = body ++ w ++ later) := by
  by_cases hwraps : Wraps start (wait.setWidth 16 : U16).toNat sights
  · have hne : body ++ w ++ later ≠ [] := by
      simp [(endText_cases hw).2.2]
    refine ⟨_, atCommand_of_wraps hne h hwraps, ?_, fun hnot => absurd hwraps hnot, fun _ => ?_⟩
    · exact iff_of_false Bool.false_ne_true fun h => h.2 hwraps
    · exact ⟨rfl, rfl⟩
  · rcases List.mem_pair.1 hw with rfl | rfl
    · obtain ⟨r, hr, hok, hbuf, hunread⟩ :=
        atCommand_ok buf start wait hbody hlen h hwraps
      refine ⟨r, hr, iff_of_true hok ⟨rfl, hwraps⟩, fun _ => ⟨?_, hunread⟩,
        fun h => absurd h hwraps⟩
      rw [if_pos rfl]
      exact hbuf
    · obtain ⟨r, hr, hok, hbuf, hunread⟩ :=
        atCommand_error buf start wait hbody hlen h hwraps
      have hdiff : errorStr ≠ okStr := by decide
      refine ⟨r, hr, ?_, fun _ => ⟨?_, hunread⟩, fun h => absurd h hwraps⟩
      · exact iff_of_false (Bool.eq_false_iff.1 hok) fun h => hdiff h.1
      · rw [if_neg hdiff]
        exact hbuf

/-- A line with an `O` and an `E` in it, as an operator's name may have. -/
def operatorLine : List Char := "\r\n+COPS: 0,0,\"ONE\"\r\n\r\n".toList

/-- Asked for with a wait of 85 seconds, it is read where the clock does not wrap within 19464 ms,
    and not where it does. -/
theorem atCommand_answered_operator :
    (∃ r, atCommand [] (some okStr) (some errorStr) 85000 1000
        (⟨0, operatorLine ++ okStr⟩ :: List.replicate (operatorLine ++ okStr).length ⟨1, []⟩) =
          some r ∧
      r.ok = true ∧ cstr r.buf = "+COPS: 0,0,\"ONE\"\r\n\r\nOK".toList) ∧
    ∃ r, atCommand [] (some okStr) (some errorStr) 85000 4294967000
        (⟨0, operatorLine ++ okStr⟩ :: List.replicate (operatorLine ++ okStr).length ⟨1, []⟩) =
          some r ∧
      r.ok = false ∧ r.unread = operatorLine ++ okStr := by
  have hbody : Unended operatorLine := ⟨by decide, by decide, by decide⟩
  have harrives : Arrives ((85000 : U32).setWidth 16 : U16).toNat (operatorLine ++ okStr) []
      (⟨0, operatorLine ++ okStr⟩ :: List.replicate (operatorLine ++ okStr).length ⟨1, []⟩) :=
    arrives_at_once (by decide) _
  constructor
  · obtain ⟨r, hr, hok, hread, -⟩ :=
      atCommand_answered [] 1000 85000 hbody List.mem_cons_self (by decide) harrives
    have hnot : ¬ Wraps 1000 19464 (⟨0, operatorLine ++ okStr⟩ ::
        List.replicate (operatorLine ++ okStr).length ⟨1, []⟩) := fun h => absurd h.1 (by decide)
    exact ⟨r, hr, hok.2 ⟨rfl, hnot⟩, (hread hnot).1⟩
  · obtain ⟨r, hr, hok, -, hwraps⟩ :=
      atCommand_answered [] 4294967000 85000 hbody List.mem_cons_self (by decide)
        harrives
    have hwrap : Wraps 4294967000 19464 (⟨0, operatorLine ++ okStr⟩ ::
        List.replicate (operatorLine ++ okStr).length ⟨1, []⟩) := by
      refine ⟨by decide, ?_⟩
      rintro s ⟨⟩
      decide
    refine ⟨r, hr, Bool.eq_false_iff.2 fun h => (hok.1 h).2 hwrap, ?_⟩
    rw [(hwraps hwrap).2, List.append_nil]

end SerialPort

end Waterbox
