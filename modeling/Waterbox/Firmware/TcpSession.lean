import Waterbox.Firmware.Replies

namespace Waterbox

/-!
# `TCPGetMyIP` and `TCPconnect` of `sim800.cpp`

Two commands are answered by a line that is not followed by `OK`.  The firmware calls `receive`
twice for it: the CRLF before the line ends the first call, the one behind it the second.

* `receiveLine_reply` — what the two calls leave, and what becomes of a wait that wraps.
* `tcpGetMyIp_reply` — when the address is taken.
* `tcpConnect_reply` — when the session counts as open, and that nothing behind the line is read.
-/

namespace SerialPort

open Text Gather

/-- When a call of `receive` begins, and what arrives during it. -/
structure Wait where
  start : U32
  sights : List Sight

/-- The bytes that the last call has not read are there from the beginning. -/
def held (unread : List Char) : List Sight → List Sight
  | [] => []
  | s :: rest => { s with arrived := unread ++ s.arrived } :: rest

/-- `receive(buf, timeout, "\r\n", NULL)`, with bytes that have not been read before. -/
def receiveCrlf (buf : List Char) (timeout : U16) (unread : List Char) (w : Wait) :
    Option Receipt :=
  receive buf timeout (some crlf) none w.start (held unread w.sights)

/-- `TCPGetMyIP(ip)` from its first `receive` on, which discards no bytes before its command: the
    value returned and the text at `ip`. -/
def tcpGetMyIp (buf pending : List Char) (w₁ w₂ : Wait) : Option (Bool × CString) := do
  let r ← receiveCrlf buf 5000 pending w₁
  let r ← receiveCrlf r.buf 5000 r.unread w₂
  if r.ok then
    match scan (.word :: plain crlf) (cstr r.buf) with
    | [.word ip] =>
      if ip = "ERROR".toList then some (false, "0.0.0.0".toList) else some (true, ip)
    | _ => some (false, "0.0.0.0".toList)
  else some (false, "0.0.0.0".toList)

/-- The 16 bits that `receive` takes of 150000. -/
def connectTimeout : U16 := BitVec.ofNat 16 150000

/-- `TCPconnect(server, port)` from the call of `receive` in `ATcommand` on: the value returned and
    the bytes that have not been read. -/
def tcpConnect (registered : Bool) (buf : List Char) (w₁ w₂ w₃ : Wait) :
    Option (Bool × List Char) :=
  if registered then do
    let r ← atCommandDefault buf w₁.start w₁.sights
    if r.ok then
      let r ← receiveCrlf r.buf connectTimeout r.unread w₂
      let r ← receiveCrlf r.buf 10000 r.unread w₃
      some (found r.buf (some "CONNECT".toList), r.unread)
    else some (false, r.unread)
  else some (false, w₁.sights.flatMap (·.arrived))

/-! ### Lines -/

/-- A line with the CRLF behind it is read to its end. -/
theorem shortest_line {line : List Char} (hnul : '\x00' ∉ line) (hline : '\n' ∉ line) :
    Shortest (ends (some crlf) none) (line ++ crlf) (line ++ crlf).length := by
  have hlen : (line ++ crlf).length = line.length + 2 := List.length_append
  have hnul' : '\x00' ∉ line ++ crlf := by
    rw [List.mem_append]
    exact not_or.2 ⟨hnul, by decide⟩
  refine ⟨by omega, le_refl _, ?_, ?_⟩
  · rw [List.take_length, ends, Bool.or_eq_true]
    apply Or.inl
    rw [found_iff, cstr_eq hnul']
    exact (List.suffix_append _ _).isInfix
  · intro j _ hj
    -- the line feed is the last character
    have hfeed : '\n' ∉ (line ++ crlf).take j := by
      have hfront : line ++ crlf = (line ++ ['\r']) ++ ['\n'] := by
        rw [List.append_assoc]
        rfl
      have hfit : j ≤ (line ++ ['\r']).length := by
        rw [List.length_append, List.length_singleton]
        omega
      rw [hfront, List.take_append_of_le_length hfit]
      intro hmem
      rcases List.mem_append.1 (List.mem_of_mem_take hmem) with h | h
      · exact hline h
      · exact absurd h (by decide)
    rw [ends, Bool.or_eq_false_iff]
    refine ⟨Bool.eq_false_iff.2 fun hfound => hfeed ?_, rfl⟩
    exact List.takeWhile_subset _ ((found_iff.1 hfound).subset (by decide))

variable {buf unread later line : List Char} {timeout : U16} {w : Wait}

theorem wraps_held {start : U32} {n : Nat} {sights : List Sight} :
    Wraps start n (held unread sights) ↔ Wraps start n sights := by
  cases sights with
  | nil => rfl
  | cons s rest =>
    rw [Wraps, Wraps, held, List.head?_cons, List.head?_cons]
    simp only [Option.mem_some_iff, forall_eq']

/-- In a wait that does not wrap, the call reads a line. -/
theorem receiveCrlf_line (buf : List Char) (hnul : '\x00' ∉ line) (hline : '\n' ∉ line)
    (hlen : line.length + 2 < bufLength)
    (h : Arrives timeout.toNat (line ++ crlf) later (held unread w.sights))
    (hwraps : ¬ Wraps w.start timeout.toNat w.sights) :
    ∃ rest, receiveCrlf buf timeout unread w =
      some ⟨true, line ++ crlf ++ '\x00' :: rest, later⟩ := by
  have hcount : (line ++ crlf).length < bufLength := by
    rw [List.length_append]
    exact hlen
  have hk := shortest_line hnul hline
  have hfound : found (line ++ crlf) (some crlf) = true := by
    have hpasses := hk.passes
    rw [List.take_length, ends] at hpasses
    exact (Bool.or_eq_true_iff.1 hpasses).resolve_right Bool.false_ne_true
  obtain ⟨rest, hrest⟩ := overwrite_nul buf (line ++ crlf)
  refine ⟨rest, ?_⟩
  rw [receiveCrlf, receive_of_not_wraps h hk hcount (mt wraps_held.1 hwraps), hfound, hrest]

/-- In a wait that wraps, the call reads nothing. -/
theorem receiveCrlf_wraps (buf : List Char)
    (h : Arrives timeout.toNat (line ++ crlf) later (held unread w.sights))
    (hwraps : Wraps w.start timeout.toNat w.sights) :
    receiveCrlf buf timeout unread w =
      some ⟨false, overwrite buf ['\x00'], line ++ crlf ++ later⟩ := by
  have hne : held unread w.sights ≠ [] := by
    intro hnil
    have htext := h.text
    rw [hnil] at htext
    simp [crlf] at htext
  rw [receiveCrlf, receive_of_wraps h hne (wraps_held.2 hwraps)]

/-- What a wait has left unread comes first in the next. -/
theorem Arrives.held {n : Nat} {first reply : List Char} {sights : List Sight}
    (h : Arrives n reply later (held unread sights)) (hne : reply ≠ [])
    (hlen : first.length ≤ reply.length) :
    Arrives n first (reply ++ later) (SerialPort.held (first ++ unread) sights) := by
  obtain ⟨hsorted, hwithin, htext, ps, qs, hsplit, hps, hqs⟩ := h
  cases sights with
  | nil =>
    rw [SerialPort.held, List.flatMap_nil] at htext
    exact absurd (List.append_eq_nil_iff.1 htext.symm).1 hne
  | cons s rest =>
    rw [SerialPort.held] at hsorted hwithin htext hsplit
    refine ⟨hsorted, ?_, ?_, ?_⟩
    · intro s' hs'
      rcases List.mem_cons.1 hs' with rfl | hs'
      · exact hwithin { s with arrived := unread ++ s.arrived } List.mem_cons_self
      · exact hwithin _ (List.mem_cons_of_mem _ hs')
    · rw [List.flatMap_cons] at htext
      rw [SerialPort.held, List.flatMap_cons, List.append_assoc, List.append_assoc, ← htext,
        List.append_assoc]
    · -- the first look is among those before which the reply has arrived
      cases ps with
      | nil =>
        rw [List.flatMap_nil, List.length_nil, Nat.le_zero, List.length_eq_zero_iff] at hps
        exact absurd hps hne
      | cons p ps =>
        rw [List.cons_append, List.cons.injEq] at hsplit
        refine ⟨{ s with arrived := first ++ unread ++ s.arrived } :: ps, qs, ?_, ?_, by omega⟩
        · rw [SerialPort.held, List.cons_append, hsplit.2]
        · rw [List.flatMap_cons, List.length_append, List.length_append, List.length_append]
          omega

/-! ### Two calls for a line -/

/-- What a call reads, or leaves unread. -/
theorem receiveCrlf_cases (buf : List Char) (hnul : '\x00' ∉ line) (hline : '\n' ∉ line)
    (hlen : line.length + 2 < bufLength)
    (h : Arrives timeout.toNat (line ++ crlf) later (held unread w.sights)) :
    ∃ r, receiveCrlf buf timeout unread w = some r ∧
      (¬ Wraps w.start timeout.toNat w.sights →
        r.ok = true ∧ cstr r.buf = line ++ crlf ∧ r.unread = later) ∧
      (Wraps w.start timeout.toNat w.sights →
        r.ok = false ∧ cstr r.buf = [] ∧ r.unread = line ++ crlf ++ later) := by
  by_cases hwraps : Wraps w.start timeout.toNat w.sights
  · exact ⟨_, receiveCrlf_wraps buf h hwraps, fun hnot => absurd hwraps hnot,
      fun _ => ⟨rfl, rfl, rfl⟩⟩
  · obtain ⟨rest, hread⟩ := receiveCrlf_line buf hnul hline hlen h hwraps
    have hnul' : '\x00' ∉ line ++ crlf := by
      rw [List.mem_append]
      exact not_or.2 ⟨hnul, by decide⟩
    exact ⟨_, hread, fun _ => ⟨rfl, cstr_nul hnul' rest, rfl⟩, fun h => absurd h hwraps⟩

/-- Of two calls the second reads the line, unless one of the waits wraps: then it reads the CRLF
    before the line, or nothing. -/
theorem receiveCrlf_twice (buf : List Char) {t₁ t₂ : U16} {w₁ w₂ : Wait} {later₁ later₂ : List Char}
    (hnul : '\x00' ∉ line) (hline : '\n' ∉ line) (hlen : line.length + 2 < bufLength)
    (h₁ : Arrives t₁.toNat crlf later₁ (held unread w₁.sights))
    (h₂ : Arrives t₂.toNat (line ++ crlf) later₂ (held later₁ w₂.sights)) :
    ∃ r₁ r₂, receiveCrlf buf t₁ unread w₁ = some r₁ ∧
      receiveCrlf r₁.buf t₂ r₁.unread w₂ = some r₂ ∧
      (¬ Wraps w₁.start t₁.toNat w₁.sights → ¬ Wraps w₂.start t₂.toNat w₂.sights →
        r₂.ok = true ∧ cstr r₂.buf = line ++ crlf ∧ r₂.unread = later₂) ∧
      (Wraps w₁.start t₁.toNat w₁.sights ∨ Wraps w₂.start t₂.toNat w₂.sights →
        cstr r₂.buf = crlf ∨ r₂.ok = false ∧ cstr r₂.buf = []) := by
  have hnil : ∀ c : Char, c ∉ ([] : List Char) := fun _ => List.not_mem_nil
  have hfirst : Arrives t₁.toNat ([] ++ crlf) later₁ (held unread w₁.sights) := h₁
  obtain ⟨r₁, hr₁, hread₁, hlost₁⟩ := receiveCrlf_cases buf (hnil _) (hnil _) (by decide) hfirst
  by_cases hwraps₁ : Wraps w₁.start t₁.toNat w₁.sights
  · -- the CRLF before the line is left to the second call
    have hsecond : Arrives t₂.toNat ([] ++ crlf) (line ++ crlf ++ later₂)
        (held r₁.unread w₂.sights) := by
      rw [(hlost₁ hwraps₁).2.2]
      exact h₂.held (by simp [crlf]) (by simp)
    obtain ⟨r₂, hr₂, hread₂, hlost₂⟩ :=
      receiveCrlf_cases r₁.buf (hnil _) (hnil _) (by decide) hsecond
    refine ⟨r₁, r₂, hr₁, hr₂, fun h => absurd hwraps₁ h, fun _ => ?_⟩
    by_cases hwraps₂ : Wraps w₂.start t₂.toNat w₂.sights
    · exact .inr ⟨(hlost₂ hwraps₂).1, (hlost₂ hwraps₂).2.1⟩
    · exact .inl (hread₂ hwraps₂).2.1
  · have hsecond : Arrives t₂.toNat (line ++ crlf) later₂ (held r₁.unread w₂.sights) := by
      rw [(hread₁ hwraps₁).2.2]
      exact h₂
    obtain ⟨r₂, hr₂, hread₂, hlost₂⟩ := receiveCrlf_cases r₁.buf hnul hline hlen hsecond
    refine ⟨r₁, r₂, hr₁, hr₂, fun _ => hread₂, fun h => ?_⟩
    exact .inr ⟨(hlost₂ (h.resolve_left hwraps₁)).1, (hlost₂ (h.resolve_left hwraps₁)).2.1⟩

/-! ### The address and the session -/

/-- The address is taken from the line where neither wait wraps, and whatever the line says, unless
    it says `ERROR`. -/
theorem tcpGetMyIp_reply (buf : List Char) {pending later₁ later₂ : List Char} {w₁ w₂ : Wait}
    (hnul : '\x00' ∉ line) (hsolid : ∀ c ∈ line, isSpace c = false) (hne : line ≠ [])
    (hlen : line.length + 2 < bufLength)
    (h₁ : Arrives defaultWait crlf later₁ (held pending w₁.sights))
    (h₂ : Arrives defaultWait (line ++ crlf) later₂ (held later₁ w₂.sights)) :
    ∃ r, tcpGetMyIp buf pending w₁ w₂ = some r ∧
      (r.1 = true ↔ line ≠ "ERROR".toList ∧ ¬ Wraps w₁.start defaultWait w₁.sights ∧
        ¬ Wraps w₂.start defaultWait w₂.sights) ∧
      r.2 = if r.1 then line else "0.0.0.0".toList := by
  have hline : '\n' ∉ line := fun h => absurd (hsolid _ h) (by decide)
  have hwait : (5000 : U16).toNat = defaultWait := rfl
  obtain ⟨r₁, r₂, hr₁, hr₂, hread, hlost⟩ :=
    receiveCrlf_twice buf hnul hline hlen (hwait ▸ h₁) (hwait ▸ h₂)
  rw [tcpGetMyIp, hr₁]
  show ∃ r, (receiveCrlf r₁.buf 5000 r₁.unread w₂).bind _ = some r ∧ _
  rw [hr₂, Option.bind_some]
  by_cases hwraps : Wraps w₁.start defaultWait w₁.sights ∨ Wraps w₂.start defaultWait w₂.sights
  · refine ⟨(false, "0.0.0.0".toList), ?_, iff_of_false Bool.false_ne_true ?_, rfl⟩
    · rcases hlost (hwait ▸ hwraps) with hcrlf | ⟨hok, -⟩
      · rw [hcrlf]
        split <;> rfl
      · rw [hok]
        rfl
    · rintro ⟨-, hnot₁, hnot₂⟩
      exact hwraps.elim hnot₁ hnot₂
  · obtain ⟨hnot₁, hnot₂⟩ := not_or.1 hwraps
    obtain ⟨hok, htext, -⟩ := hread (hwait ▸ hnot₁) (hwait ▸ hnot₂)
    have hscan : scan (.word :: plain crlf) (line ++ crlf) = [.word line] := by
      rw [scan_word hne hsolid, scan_plain_end]
      rintro c ⟨⟩
      rfl
    rw [hok, htext, hscan]
    by_cases herror : line = "ERROR".toList
    · refine ⟨(false, "0.0.0.0".toList), if_pos herror, ?_, rfl⟩
      exact iff_of_false Bool.false_ne_true fun h => h.1 herror
    · exact ⟨(true, line), if_neg herror, iff_of_true rfl ⟨herror, hnot₁, hnot₂⟩, rfl⟩

/-- The session counts as open where no wait wraps and the line holds `CONNECT`, and nothing behind
    the line has been read then. -/
theorem tcpConnect_reply (buf : List Char) {later₁ later₂ later₃ : List Char} {w₁ w₂ w₃ : Wait}
    (hnul : '\x00' ∉ line) (hline : '\n' ∉ line) (hlen : line.length + 2 < bufLength)
    (h₁ : Arrives defaultWait (crlf ++ okStr) later₁ w₁.sights)
    (h₂ : Arrives connectTimeout.toNat crlf later₂ (held later₁ w₂.sights))
    (h₃ : Arrives 10000 (line ++ crlf) later₃ (held later₂ w₃.sights)) :
    ∃ r, tcpConnect true buf w₁ w₂ w₃ = some r ∧
      (r.1 = true ↔ "CONNECT".toList <:+: line ∧ ¬ Wraps w₁.start defaultWait w₁.sights ∧
        ¬ Wraps w₂.start connectTimeout.toNat w₂.sights ∧ ¬ Wraps w₃.start 10000 w₃.sights) ∧
      (r.1 = true → r.2 = later₃) := by
  have hthird : Arrives (10000 : U16).toNat (line ++ crlf) later₃ (held later₂ w₃.sights) := h₃
  have hfirst :
      Arrives ((5000 : U32).setWidth 16 : U16).toNat (crlf ++ okStr) later₁ w₁.sights := h₁
  have hreply : crlf ++ okStr ++ later₁ ≠ [] := fun h => nomatch h
  have hconnect : "CONNECT".toList <:+: line ++ crlf ↔ "CONNECT".toList <:+: line := by
    have hlast : "CONNECT".toList = "CONNEC".toList ++ ['T'] := rfl
    rw [hlast]
    exact infix_append_iff (by decide)
  rw [tcpConnect, if_pos rfl]
  show ∃ r, (atCommand buf (some okStr) (some errorStr) 5000 w₁.start w₁.sights).bind _ = some r ∧ _
  by_cases hwraps₁ : Wraps w₁.start defaultWait w₁.sights
  · -- the command has failed with its wait
    rw [atCommand_of_wraps hreply hfirst hwraps₁, Option.bind_some]
    refine ⟨(false, crlf ++ okStr ++ later₁), rfl, iff_of_false Bool.false_ne_true ?_, nofun⟩
    exact fun h => h.2.1 hwraps₁
  · have hcrlf : Clean crlf := by decide
    obtain ⟨r₁, hr₁, hcommand, -, hunread⟩ :=
      atCommand_ok buf w₁.start 5000 hcrlf.unended (by decide) hfirst hwraps₁
    rw [hr₁, Option.bind_some]
    rw [if_pos hcommand]
    obtain ⟨r₂, r₃, hr₂, hr₃, hread, hlost⟩ :=
      receiveCrlf_twice r₁.buf hnul hline hlen (hunread ▸ h₂) hthird
    have hnothing : Wraps w₂.start connectTimeout.toNat w₂.sights ∨ Wraps w₃.start 10000 w₃.sights →
        ¬ "CONNECT".toList <:+: cstr r₃.buf := by
      intro hwraps
      rcases hlost hwraps with hcrlf | ⟨-, hnil⟩
      · rw [hcrlf]
        decide
      · rw [hnil]
        decide
    refine ⟨(found r₃.buf (some "CONNECT".toList), r₃.unread), ?_, ?_, ?_⟩
    · show (receiveCrlf r₁.buf connectTimeout r₁.unread w₂).bind _ = _
      rw [hr₂, Option.bind_some]
      show (receiveCrlf r₂.buf 10000 r₂.unread w₃).bind _ = _
      rw [hr₃]
      rfl
    · show found r₃.buf (some "CONNECT".toList) = true ↔ _
      rw [found_iff]
      by_cases hwraps : Wraps w₂.start connectTimeout.toNat w₂.sights ∨
          Wraps w₃.start 10000 w₃.sights
      · refine iff_of_false (hnothing hwraps) ?_
        rintro ⟨-, -, hnot₂, hnot₃⟩
        exact hwraps.elim hnot₂ hnot₃
      · obtain ⟨hnot₂, hnot₃⟩ := not_or.1 hwraps
        rw [(hread hnot₂ hnot₃).2.1, hconnect]
        exact ⟨fun h => ⟨h, hwraps₁, hnot₂, hnot₃⟩, fun h => h.1⟩
    · intro hfound
      have hwraps := mt hnothing (not_not.2 (found_iff.1 hfound))
      obtain ⟨hnot₂, hnot₃⟩ := not_or.1 hwraps
      exact (hread hnot₂ hnot₃).2.2

/-- Also a refusal holds the word. -/
example : "CONNECT".toList <:+: "CONNECT FAIL".toList := by decide

/-- A reply that is there when the wait begins. -/
def atOnce (start : U32) (reply : CString) : Wait :=
  ⟨start, ⟨0, reply⟩ :: List.replicate reply.length ⟨1, []⟩⟩

/-- A broker that refuses the session. -/
theorem tcpConnect_reply_refused :
    let w₁ := atOnce 0 (crlf ++ okStr)
    let w₂ := atOnce 1000 crlf
    let w₃ := atOnce 2000 ("CONNECT FAIL".toList ++ crlf)
    ∃ r, tcpConnect true [] w₁ w₂ w₃ = some r ∧
      (r.1 = true ↔ "CONNECT".toList <:+: "CONNECT FAIL".toList ∧
        ¬ Wraps w₁.start defaultWait w₁.sights ∧
        ¬ Wraps w₂.start connectTimeout.toNat w₂.sights ∧ ¬ Wraps w₃.start 10000 w₃.sights) ∧
      (r.1 = true → r.2 = []) :=
  tcpConnect_reply [] (by decide) (by decide) (by decide) (arrives_at_once (by decide) _)
    (arrives_at_once (by decide) _) (arrives_at_once (by decide) _)

end SerialPort

end Waterbox
