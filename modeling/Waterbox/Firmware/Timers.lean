import Waterbox.Firmware.Saves

namespace Waterbox

/-!
# The timers of `tick()`

`tick()` reads the clock once, after `service()`, and compares this reading with the stamps of
earlier rounds.  The stamps are taken from the reading of a round, or from a fresh one at its end.

* `visits`, `window`, `tickTime`, `sentTicks` — what the log says about the FSM and its heartbeats.
* `publishTime`, `armedTime`, `listenTime`, `lastTry` — what it says about the stamps.
* `TickRule` — what the log must look like.
* `TickStamps` — each stamp is that of an event in the log.
* `Round`, `Ticking` — a round as far as it has gone, and what holds in it.
* `WaterboxFsm.tick_ticking` — one round.
* `WaterboxFsm.timers_not_early` — whole runs, with the timers of `service()`.
-/

open Cut Clock

variable {F : Type}

/-! ### The FSM in the log -/

def Event.entered? : Event F → Option State
  | .entered st => some st
  | _ => none

/-- The states that the FSM has entered, and when, newest first. -/
def visits (log : List (Event F × Board F)) : List (State × Nat) :=
  log.filterMap fun x => x.1.entered?.map fun st => (st, x.2.time)

/-- What happened since the FSM entered its state. -/
def window (log : List (Event F × Board F)) : List (Event F × Board F) :=
  log.takeWhile fun x => x.1.entered?.isNone

/-- When the clock was read in the last round of the Publish state, which begins with
    `publishInfo`. -/
def tickTime : List (Event F × Board F) → Nat
  | [] => 0
  | (.info _, b) :: _ => b.time
  | _ :: log => tickTime log

/-- Whether the last call of a function that publishes was `publishHeartbeat`, and its packet has
    not been written. -/
def heartbeatWaits : List (Event F × Board F) → Bool
  | [] => false
  | (.heartbeat _, _) :: _ => true
  | (.info _, _) :: _ => false
  | (.telemetry _, _) :: _ => false
  | (.published _ _, _) :: _ => false
  | _ :: log => heartbeatWaits log

/-- The rounds, by their readings of the clock, in which a heartbeat was sent. -/
def sentTicks : List (Event F × Board F) → List Nat
  | [] => []
  | (.published _ _, _) :: log =>
    if heartbeatWaits log then tickTime log :: sentTicks log else sentTicks log
  | _ :: log => sentTicks log

/-! ### The stamps in the log -/

/-- The calls of the radio for which `tick()` sets a stamp, the first two with the time of their
    round. -/
inductive RadioCall
  | begin (time : Nat)
  | connect (time : Nat)
  | disconnect

/-- The last call of `radio_.begin()`, `connect()` or `disconnect()`. -/
def lastCall : List (Event F × Board F) → Option RadioCall
  | [] => none
  | (.radioBegin, b) :: _ => some (.begin b.time)
  | (.radioConnect, b) :: _ => some (.connect b.time)
  | (.radioDisconnect, _) :: _ => some .disconnect
  | _ :: log => lastCall log

/-- When `radio_.begin()` was called last. -/
def lastTry : List (Event F × Board F) → Option Nat
  | [] => none
  | (.radioBegin, b) :: _ => some b.time
  | _ :: log => lastTry log

/-- What `lastPublishMs_` stands for when the FSM enters Idle at the time `now` after this call. -/
def RadioCall.idleTime (now : Nat) : RadioCall → Int
  -- a telemetry record is due at once
  | .begin time => time - Settings.publishIntervalMs.toNat
  -- the call has failed
  | .connect time => time
  | .disconnect => now

/-- What `lastPublishMs_` stands for. -/
def publishTime : List (Event F × Board F) → Int
  | [] => 0
  | (.entered .idle, b) :: log => (lastCall log).elim 0 (RadioCall.idleTime b.time)
  | _ :: log => publishTime log

/-- What `lastHeartbeatMs_` stands for before a heartbeat has been sent: one is due as soon as
    `radio_.begin()` has succeeded. -/
def armedTime : List (Event F × Board F) → Int
  | [] => 0
  | (.entered .idle, _) :: log =>
    match lastCall log with
    | some (.begin time) => time - Settings.heartbeatIntervalMs.toNat
    | _ => armedTime log
  | _ :: log => armedTime log

/-- What `listenStartMs_` stands for: when the FSM entered Listen. -/
def listenTime : List (Event F × Board F) → Nat
  | [] => 0
  | (.entered .listen, b) :: _ => b.time
  | _ :: log => listenTime log

def Event.isCall : Event F → Bool
  | .radioBegin | .radioConnect | .radioDisconnect => true
  | _ => false

/-- The events that none of these definitions looks at. -/
def Event.isPlain : Event F → Bool
  | .entered _ | .info _ | .telemetry _ | .heartbeat _ | .published _ _ => false
  | .radioBegin | .radioBegun _ | .radioConnect | .radioDisconnect => false
  | _ => true

section Events

variable {ev : Event F} (b : Board F) (log : List (Event F × Board F))

theorem visits_cons (h : ev.entered? = none) : visits ((ev, b) :: log) = visits log := by
  cases ev <;> first | rfl | cases h

theorem window_cons (h : ev.entered? = none) : window ((ev, b) :: log) = (ev, b) :: window log := by
  cases ev <;> first | rfl | cases h

theorem tickTime_plain (h : ev.isPlain = true) : tickTime ((ev, b) :: log) = tickTime log := by
  cases ev <;> first | rfl | cases h

theorem heartbeatWaits_plain (h : ev.isPlain = true) :
    heartbeatWaits ((ev, b) :: log) = heartbeatWaits log := by
  cases ev <;> first | rfl | cases h

theorem sentTicks_plain (h : ev.isPlain = true) : sentTicks ((ev, b) :: log) = sentTicks log := by
  cases ev <;> first | rfl | cases h

theorem lastCall_cons (h : ev.isCall = false) : lastCall ((ev, b) :: log) = lastCall log := by
  cases ev <;> first | rfl | cases h

theorem lastTry_cons (h : ev.isCall = false) : lastTry ((ev, b) :: log) = lastTry log := by
  cases ev <;> first | rfl | cases h

/-- The stamps of the states change only where a state is entered. -/
theorem publishTime_cons (h : ev.entered? = none) :
    publishTime ((ev, b) :: log) = publishTime log := by
  cases ev <;> first | rfl | cases h

theorem armedTime_cons (h : ev.entered? = none) : armedTime ((ev, b) :: log) = armedTime log := by
  cases ev <;> first | rfl | cases h

theorem listenTime_cons (h : ev.entered? = none) :
    listenTime ((ev, b) :: log) = listenTime log := by
  cases ev <;> first | rfl | cases h

theorem publishTime_entered {next : State} (h : next ≠ .idle) :
    publishTime ((.entered next, b) :: log) = publishTime log := by
  cases next <;> first | rfl | exact absurd rfl h

theorem armedTime_entered {next : State} (h : next ≠ .idle) :
    armedTime ((.entered next, b) :: log) = armedTime log := by
  cases next <;> first | rfl | exact absurd rfl h

theorem listenTime_entered {next : State} (h : next ≠ .listen) :
    listenTime ((.entered next, b) :: log) = listenTime log := by
  cases next <;> first | rfl | exact absurd rfl h

end Events

/-- From Idle the FSM goes on to Connect an interval after a Disconnect; from Listen it goes on to
    Disconnect after a call of `radio_.loop()` an interval after the Publish state; and a heartbeat
    is made in a round whose reading is an interval after those of all rounds that sent one. -/
structure TickRule (x : Event F × Board F) (past : List (Event F × Board F)) : Prop where
  idle : x.1 = .entered .connect → ∀ t u older,
    visits past = (.idle, t) :: (.disconnect, u) :: older →
    t + Settings.publishIntervalMs.toNat ≤ x.2.time
  listen : x.1 = .entered .disconnect → ∀ t older, visits past = (.listen, t) :: older →
    ∃ y ∈ window past, y.1 = .radioLoop ∧ t + Settings.cmdListenMs.toNat ≤ y.2.time ∧
      y.2.time ≤ x.2.time
  heartbeat : ∀ record, x.1 = .heartbeat record → ∀ t ∈ sentTicks past,
    t + Settings.heartbeatIntervalMs.toNat ≤ tickTime past

/-- The stamp of the modem's timer after `WaterboxFsm::begin` has left it. -/
inductive ModemStamp (s : Sys F) : Prop
  /-- Without credentials the timer is never used. -/
  | halted (x : Event F × Board F) (hnone : lastTry s.log = none) (hx : x ∈ s.log)
      (hev : x.1 = .entered .haltAuth) (hzero : s.board.fsm.lastModemTryMs = 0)
  /-- The clock was read after the first state was entered, and the stamp set back by the interval,
      so that the first try is due at once. -/
  | armed (b : Board F) (t : Nat) (hnone : lastTry s.log = none)
      (hread : ReadAt b.time [(.entered .waitModem, b)] t s)
      (hstamp : Stamp s.board.fsm.lastModemTryMs (t - Settings.simRetryMs.toNat))
  /-- The stamp is the reading of the round that made the last try. -/
  | tried (t : Nat) (hlast : lastTry s.log = some t)
      (hpassed : Passed s.board.fsm.lastModemTryMs t s.board.time)

/-- Each stamp of `tick()` is that of the event at which the clock was read for it, or set back
    from there, and is not ahead of the clock. -/
structure TickStamps (s : Sys F) : Prop where
  publish : Passed s.board.fsm.lastPublishMs (publishTime s.log) s.board.time
  heartbeat : ∃ t, (t = armedTime s.log ∨ ∃ n ∈ sentTicks s.log, t = n) ∧
    Passed s.board.fsm.lastHeartbeatMs t s.board.time
  listen : Passed s.board.fsm.listenStartMs (listenTime s.log) s.board.time
  modem : s.board.fsm.lastModemTryMs = 0 ∧ (∀ x ∈ s.log, x.1 = .entered .waitModem) ∨ ModemStamp s

/-- What holds wherever the power can fail. -/
def TickLog (s : Sys F) : Prop := Journal.Every TickRule s.log ∧ TickStamps s

/-! ### A round -/

/-- The stamps of `WaterboxFsm`. -/
def WaterboxFsm.stamps (fsm : WaterboxFsm F) : U32 × U32 × U32 × U32 :=
  (fsm.lastPublishMs, fsm.lastHeartbeatMs, fsm.listenStartMs, fsm.lastModemTryMs)

/-- A round, as far as it has gone: since when the FSM is in its state, and what was before; the
    round's reading of the clock, whether `radio_.loop()` was called at this reading, and which
    other call of the radio was made; the time that `lastHeartbeatMs_` stands for, the latest that
    a heartbeat was sent, and whether one was sent in this round; after `publishInfo` whether a
    heartbeat waits for its packet. -/
structure Round where
  state : State
  since : Nat
  earlier : List (State × Nat)
  reading : Nat
  looped : Prop
  call : Option RadioCall
  beat : Int
  sent : Int
  beaten : Prop
  waits : Option Bool

/-- The round when the FSM has entered the state `next`. -/
def Round.enter (c : Round) (next : State) (time : Nat) : Round :=
  { c with
    state := next
    since := time
    earlier := (c.state, c.since) :: c.earlier
    reading := time
    looped := False
    call := none
    beaten := False
    waits := none }

/-- What holds in a round. -/
structure Ticking (c : Round) (s : Sys F) : Prop where
  rule : Journal.Every TickRule s.log
  publish : Passed s.board.fsm.lastPublishMs (publishTime s.log) s.board.time
  listen : Passed s.board.fsm.listenStartMs (listenTime s.log) s.board.time
  modem : ModemStamp s
  state : s.board.fsm.state = c.state
  visits : visits s.log = (c.state, c.since) :: c.earlier
  since : c.since ≤ c.reading
  reading : c.reading ≤ s.board.time
  idle : c.state = .idle → ∀ u older, c.earlier = (.disconnect, u) :: older →
    publishTime s.log = c.since
  listening : c.state = .listen → listenTime s.log = c.since
  looped : c.looped → ∃ y ∈ window s.log, y.1 = .radioLoop ∧ y.2.time = c.reading
  call : ∀ k, c.call = some k → lastCall s.log = some k
  begun : ∀ x ∈ s.log, ∀ ok, x.1 = .radioBegun ok → lastTry s.log ≠ none
  beat : Stamp s.board.fsm.lastHeartbeatMs c.beat
  beatRead : c.beat ≤ c.reading
  armed : c.beat = armedTime s.log ∨ ∃ n ∈ sentTicks s.log, c.beat = n
  sent : ∀ t ∈ sentTicks s.log, (t : Int) ≤ c.sent
  beaten : c.beaten → c.reading ∈ sentTicks s.log
  unsent : c.state = .waitModem → sentTicks s.log = []
  waits : ∀ w, c.waits = some w → tickTime s.log = c.reading ∧ heartbeatWaits s.log = w

section Round

variable {c : Round} {s t : Sys F} {ev : Event F}

theorem ModemStamp.frame (h : ModemStamp s) (hlog : t.log = s.log)
    (hmodem : t.board.fsm.lastModemTryMs = s.board.fsm.lastModemTryMs)
    (htime : s.board.time ≤ t.board.time) : ModemStamp t := by
  cases h with
  | halted x hnone hx hev hzero =>
    exact .halted x (hlog ▸ hnone) (hlog ▸ hx) hev (hmodem.trans hzero)
  | armed b τ hnone hread hstamp =>
    exact .armed b τ (hlog ▸ hnone) (hread.frame hlog htime) (hmodem ▸ hstamp)
  | tried τ hlast hpassed => exact .tried τ (hlog ▸ hlast) (hmodem ▸ hpassed.mono htime)

/-- A call other than `radio_.begin()` does not concern this timer. -/
theorem ModemStamp.other (h : ModemStamp s) (hev : ev ≠ .radioBegin) :
    ModemStamp (s.logged ev) := by
  have hlast : lastTry (s.logged ev).log = lastTry s.log := by
    show lastTry ((ev, s.board) :: s.log) = _
    cases ev <;> first | rfl | exact absurd rfl hev
  cases h with
  | halted x hnone hx hhalt hzero =>
    exact .halted x (hlast.trans hnone) (List.mem_cons_of_mem _ hx) hhalt hzero
  | armed b τ hnone hread hstamp =>
    exact .armed b τ (hlast.trans hnone) (hread.logged ev) hstamp
  | tried τ hold hpassed => exact .tried τ (hlast.trans hold) hpassed

theorem Ticking.tickLog (s : Sys F) (h : Ticking c s) : TickLog s :=
  ⟨h.rule, h.publish, ⟨c.beat, h.armed, h.beat, h.beatRead.trans (Int.ofNat_le.2 h.reading)⟩,
    h.listen, .inr h.modem⟩

theorem Ticking.frame (h : Ticking c s) (hlog : t.log = s.log)
    (hstate : t.board.fsm.state = s.board.fsm.state)
    (hstamps : t.board.fsm.stamps = s.board.fsm.stamps) (htime : s.board.time ≤ t.board.time) :
    Ticking c t := by
  simp only [WaterboxFsm.stamps, Prod.mk.injEq] at hstamps
  obtain ⟨hpublish, hbeat, hlisten, hmodem⟩ := hstamps
  exact
    { rule := hlog ▸ h.rule
      publish := hlog ▸ hpublish ▸ h.publish.mono htime
      listen := hlog ▸ hlisten ▸ h.listen.mono htime
      modem := h.modem.frame hlog hmodem htime
      state := hstate.trans h.state
      visits := hlog ▸ h.visits
      since := h.since
      reading := h.reading.trans htime
      idle := hlog ▸ h.idle
      listening := hlog ▸ h.listening
      looped := hlog ▸ h.looped
      call := hlog ▸ h.call
      begun := hlog ▸ h.begun
      beat := hbeat ▸ h.beat
      beatRead := h.beatRead
      armed := hlog ▸ h.armed
      sent := hlog ▸ h.sent
      beaten := hlog ▸ h.beaten
      unsent := hlog ▸ h.unsent
      waits := hlog ▸ h.waits }

/-- An event other than a change of state and the calls of the radio. -/
theorem Ticking.noted (h : Ticking c s) (hev : ev.entered? = none) (hcall : ev.isCall = false)
    (hbegun : ∀ ok, ev = .radioBegun ok → lastTry s.log ≠ none) {sent : Int} {beaten : Prop}
    {waits : Option Bool}
    (hbeat : ∀ record, ev = .heartbeat record → ∀ t ∈ sentTicks s.log,
      t + Settings.heartbeatIntervalMs.toNat ≤ tickTime s.log)
    (hkeep : ∀ t ∈ sentTicks s.log, t ∈ sentTicks ((ev, s.board) :: s.log))
    (hsent : ∀ t ∈ sentTicks ((ev, s.board) :: s.log), (t : Int) ≤ sent)
    (hbeaten : beaten → c.reading ∈ sentTicks ((ev, s.board) :: s.log))
    (hunsent : c.state = .waitModem → sentTicks ((ev, s.board) :: s.log) = [])
    (hwaits : ∀ w, waits = some w → tickTime ((ev, s.board) :: s.log) = c.reading ∧
      heartbeatWaits ((ev, s.board) :: s.log) = w) :
    Ticking { c with sent := sent, beaten := beaten, waits := waits } (s.logged ev) := by
  have hrule : TickRule (ev, s.board) s.log := by
    refine ⟨fun hnext => ?_, fun hnext => ?_, hbeat⟩
    · have hnext : ev = _ := hnext
      rw [hnext] at hev
      cases hev
    · have hnext : ev = _ := hnext
      rw [hnext] at hev
      cases hev
  have hlog : (s.logged ev).log = (ev, s.board) :: s.log := rfl
  exact
    { h with
      rule := ⟨hrule, h.rule⟩
      publish := by
        rw [hlog, publishTime_cons _ _ hev]
        exact h.publish
      listen := by
        rw [hlog, listenTime_cons _ _ hev]
        exact h.listen
      modem := h.modem.other (by rintro rfl; cases hcall)
      visits := (visits_cons _ _ hev).trans h.visits
      idle := fun hst u older he => (publishTime_cons _ _ hev).trans (h.idle hst u older he)
      listening := fun hst => (listenTime_cons _ _ hev).trans (h.listening hst)
      looped := fun hl => by
        obtain ⟨y, hy, hloop⟩ := h.looped hl
        refine ⟨y, ?_, hloop⟩
        rw [hlog, window_cons _ _ hev]
        exact List.mem_cons_of_mem _ hy
      call := fun k hk => (lastCall_cons _ _ hcall).trans (h.call k hk)
      begun := by
        rw [hlog, lastTry_cons _ _ hcall]
        intro x hx ok hok
        rcases List.mem_cons.1 hx with rfl | hx
        · exact hbegun ok hok
        · exact h.begun x hx ok hok
      armed := by
        rw [hlog, armedTime_cons _ _ hev]
        exact h.armed.imp id fun ⟨n, hn, hbeat⟩ => ⟨n, hkeep n hn, hbeat⟩
      sent := hsent
      beaten := hbeaten
      unsent := hunsent
      waits := hwaits }

/-- An event that is not a heartbeat and does not write the packet of one. -/
theorem Ticking.unbeaten (h : Ticking c s) (hev : ev.entered? = none) (hcall : ev.isCall = false)
    (hbegun : ∀ ok, ev = .radioBegun ok → lastTry s.log ≠ none)
    (hbeat : ∀ record, ev ≠ .heartbeat record)
    (hticks : sentTicks ((ev, s.board) :: s.log) = sentTicks s.log) {waits : Option Bool}
    (hwaits : ∀ w, waits = some w → tickTime ((ev, s.board) :: s.log) = c.reading ∧
      heartbeatWaits ((ev, s.board) :: s.log) = w) :
    Ticking { c with waits := waits } (s.logged ev) := by
  refine h.noted hev hcall hbegun (fun record hr => absurd hr (hbeat record)) ?_ ?_ ?_ ?_ hwaits
  all_goals rw [hticks]
  · exact fun t ht => ht
  · exact h.sent
  · exact h.beaten
  · exact h.unsent

theorem Ticking.plain (h : Ticking c s) (hev : ev.isPlain = true) : Ticking c (s.logged ev) := by
  refine h.unbeaten ?_ ?_ ?_ ?_ (sentTicks_plain _ _ hev) ?_
  · cases ev <;> first | rfl | cases hev
  · cases ev <;> first | rfl | cases hev
  · rintro ok rfl
    cases hev
  · rintro record rfl
    cases hev
  · rw [tickTime_plain _ _ hev, heartbeatWaits_plain _ _ hev]
    exact h.waits

/-! #### The records of the Publish state -/

/-- `publishInfo` comes at the reading of the round. -/
theorem Ticking.info (h : Ticking c s) (htime : s.board.time = c.reading) (record : Info) :
    Ticking { c with waits := some false } (s.logged (.info record)) :=
  h.unbeaten rfl rfl (by nofun) (by nofun) rfl fun _ hw => ⟨htime, Option.some.inj hw⟩

/-- Neither `publishTelemetry` nor its packet, nor that of `publishInfo`, is a heartbeat. -/
theorem Ticking.telemetry (h : Ticking { c with waits := some false } s) (record : Telemetry F) :
    Ticking { c with waits := some false } (s.logged (.telemetry record)) :=
  h.unbeaten rfl rfl (by nofun) (by nofun) rfl
    fun _ hw => ⟨(h.waits false rfl).1, Option.some.inj hw⟩

theorem Ticking.published (h : Ticking { c with waits := some false } s) (topic payload : CString) :
    Ticking { c with waits := some false } (s.logged (.published topic payload)) := by
  refine h.unbeaten rfl rfl (by nofun) (by nofun) ?_
    fun w hw => ⟨(h.waits false rfl).1, Option.some.inj hw⟩
  simp only [sentTicks, (h.waits false rfl).2, Bool.false_eq_true, if_false]

/-- A heartbeat that is due. -/
theorem Ticking.heartbeat_due (h : Ticking { c with waits := some false } s)
    (hdue : c.sent + Settings.heartbeatIntervalMs.toNat ≤ c.reading) (record : Heartbeat) :
    Ticking { c with waits := some true } (s.logged (.heartbeat record)) := by
  have htick := (h.waits false rfl).1
  refine h.noted rfl rfl (by nofun) (fun _ _ t ht => ?_) (fun _ ht => ht) h.sent h.beaten h.unsent
    fun w hw => ⟨htick, Option.some.inj hw⟩
  have hsent : (t : Int) ≤ c.sent := h.sent t ht
  rw [htick]
  show t + _ ≤ c.reading
  omega

/-- The packet of a heartbeat. -/
theorem Ticking.beat_sent (h : Ticking { c with waits := some true } s)
    (hstate : c.state ≠ .waitModem) (hle : c.sent ≤ c.reading) (topic payload : CString) :
    Ticking { c with sent := c.reading, beaten := True, waits := some false }
      (s.logged (.published topic payload)) := by
  have htick := (h.waits true rfl).1
  have hsent : sentTicks ((.published topic payload, s.board) :: s.log) =
      c.reading :: sentTicks s.log := by
    simp only [sentTicks, h.waits true rfl, if_true]
  refine h.noted rfl rfl (by nofun) (by nofun) (fun t ht => ?_) (fun t ht => ?_) (fun _ => ?_)
    (fun hst => absurd hst hstate) fun w hw => ⟨htick, Option.some.inj hw⟩
  · rw [hsent]
    exact List.mem_cons_of_mem _ ht
  · rw [hsent] at ht
    rcases List.mem_cons.1 ht with rfl | ht
    · exact le_rfl
    · exact (h.sent t ht).trans hle
  · rw [hsent]
    exact List.mem_cons_self

/-! #### The calls of the radio -/

theorem lastTry_ne_none {log : List (Event F × Board F)} (b : Board F) (h : lastTry log ≠ none) :
    lastTry ((ev, b) :: log) ≠ none := by
  cases ev <;> first | exact h | exact Option.some_ne_none _

/-- A call of `radio_.begin()` is a try. -/
theorem lastTry_of_lastCall {log : List (Event F × Board F)} {t : Nat}
    (h : lastCall log = some (.begin t)) : lastTry log ≠ none := by
  induction log with
  | nil => cases h
  | cons x log ih =>
    obtain ⟨ev, b⟩ := x
    by_cases hev : ev.isCall = true
    · cases ev <;> first | cases hev; done | cases h; exact Option.some_ne_none _ | cases h
    · have hev : ev.isCall = false := Bool.eq_false_iff.2 hev
      rw [lastCall_cons b log hev] at h
      rw [lastTry_cons b log hev]
      exact ih h

/-- A call of the radio is made; `radio_.begin()` after the stamp of its timer is set. -/
theorem Ticking.calls (h : Ticking c s) (hev : ev.isCall = true) (modem : U32) {k : RadioCall}
    (hk : ∀ b : Board F, b.time = s.board.time → lastCall ((ev, b) :: s.log) = some k)
    (hmodem : ModemStamp ((s.withFsm { s.board.fsm with lastModemTryMs := modem }).logged ev)) :
    Ticking { c with call := some k }
      ((s.withFsm { s.board.fsm with lastModemTryMs := modem }).logged ev) := by
  have hcall := hk (s.withFsm { s.board.fsm with lastModemTryMs := modem }).board rfl
  have hbegun : ∀ (b : Board F), ∀ x ∈ (ev, b) :: s.log, ∀ ok, x.1 = .radioBegun ok →
      lastTry ((ev, b) :: s.log) ≠ none := by
    intro b x hx ok hok
    rcases List.mem_cons.1 hx with rfl | hx
    · have hok : ev = _ := hok
      rw [hok] at hev
      cases hev
    · exact lastTry_ne_none b (h.begun x hx ok hok)
  have hlooped : c.looped → ∀ b : Board F, ∃ y ∈ (ev, b) :: window s.log, y.1 = .radioLoop ∧
      y.2.time = c.reading := by
    intro hl b
    obtain ⟨y, hy, hloop⟩ := h.looped hl
    exact ⟨y, List.mem_cons_of_mem _ hy, hloop⟩
  cases ev <;> first
    | exact
        { h with
          rule := ⟨⟨nofun, nofun, nofun⟩, h.rule⟩
          modem := hmodem
          looped := fun hl => hlooped hl _
          call := fun k' hk' => hcall.trans hk'
          begun := hbegun _ }
    | cases hev

/-- The stamp of the modem's timer is the reading of the round. -/
theorem Ticking.tries (h : Ticking c s) (htime : s.board.time = c.reading) :
    Ticking { c with call := some (.begin c.reading) }
      ((s.withFsm { s.board.fsm with lastModemTryMs := BitVec.ofNat 32 c.reading }).logged
        .radioBegin) := by
  refine h.calls rfl _ (fun b hb => ?_) (.tried c.reading ?_ ⟨.ofNat _, Int.ofNat_le.2 h.reading⟩)
  · rw [← htime, ← hb]
    rfl
  · rw [← htime]
    rfl

theorem Ticking.connects (h : Ticking c s) (htime : s.board.time = c.reading) :
    Ticking { c with call := some (.connect c.reading) } (s.logged .radioConnect) := by
  refine h.calls rfl s.board.fsm.lastModemTryMs (fun b hb => ?_) ?_
  · rw [← htime, ← hb]
    rfl
  · exact h.modem.other nofun

theorem Ticking.disconnects (h : Ticking c s) :
    Ticking { c with call := some .disconnect } (s.logged .radioDisconnect) :=
  h.calls rfl s.board.fsm.lastModemTryMs (fun _ _ => rfl) (h.modem.other nofun)

/-- `radio_.begin()` returns. -/
theorem Ticking.begins {t : Nat} (h : Ticking { c with call := some (.begin t) } s) (ok : Bool) :
    Ticking { c with call := some (.begin t), waits := none } (s.logged (.radioBegun ok)) :=
  h.unbeaten rfl rfl (fun _ _ => lastTry_of_lastCall (h.call _ rfl)) (by nofun) rfl (by nofun)

theorem Ticking.after (s : Sys F) (e : Env) (rest : List Env) (_ : s.tape = e :: rest)
    (h : Ticking c s) : Ticking c (s.after e rest) := by
  have hfsm : (s.board.after e).fsm = s.board.fsm := Board.after_fsm _ _
  exact h.frame rfl (congrArg WaterboxFsm.state hfsm) (congrArg WaterboxFsm.stamps hfsm)
    (Board.le_after_time _ _)

theorem Ticking.radioStable : RadioStable (F := F) (Ticking c) where
  after := Ticking.after
  later _ _ h := h.frame rfl rfl rfl (Nat.le_add_right _ _)
  radio _ _ _ h := h.frame rfl rfl rfl le_rfl
  packet _ h := h.plain rfl
  command _ _ h := h.plain rfl
  lowered _ _ _ _ h := h.frame rfl rfl rfl le_rfl
  registered _ _ _ h := h.frame rfl rfl rfl le_rfl
  opened _ _ h := h.frame rfl rfl rfl le_rfl

theorem Ticking.verdictStable : VerdictStable (F := F) (Ticking c) where
  toCommandStable := Ticking.radioStable.toCommandStable
  verdict _ _ _ _ h := h.frame rfl rfl rfl le_rfl
  led _ _ h := h.frame rfl rfl rfl le_rfl

theorem Ticking.deviceStable : DeviceStable (F := F) (Ticking c) where
  flow _ _ h := h.frame rfl rfl rfl le_rfl
  valve _ _ _ h := h.frame rfl rfl rfl le_rfl
  store _ _ h := h.frame rfl rfl rfl le_rfl
  eeprom _ _ h := h.frame rfl rfl rfl le_rfl
  signature _ _ h := h.frame rfl rfl rfl le_rfl
  own _ ev hev h := h.plain (by cases ev <;> first | rfl | cases hev)

/-- A new round reads the clock. -/
theorem Ticking.read (h : Ticking c s) :
    Ticking
      { c with
        reading := s.board.time
        looped := False
        call := none
        beaten := False
        waits := none } s :=
  { h with
    since := h.since.trans h.reading
    reading := le_rfl
    looped := False.elim
    call := nofun
    beatRead := h.beatRead.trans (Int.ofNat_le.2 h.reading)
    beaten := False.elim
    waits := nofun }

/-- The heartbeat of this round moves its stamp to the reading of the round. -/
theorem Ticking.beats
    (h : Ticking { c with sent := c.reading, beaten := True, waits := some false } s) :
    Ticking
      { c with beat := c.reading, sent := c.reading, beaten := True, waits := some false }
      (s.withFsm { s.board.fsm with lastHeartbeatMs := BitVec.ofNat 32 c.reading }) :=
  { h with
    modem := h.modem.frame rfl rfl le_rfl
    beat := .ofNat c.reading
    beatRead := le_rfl
    armed := .inr ⟨c.reading, h.beaten trivial, rfl⟩ }

/-- The FSM may go on to another state with the members `fsm`: the timer that is asked has waited,
    and the stamps are those that the log shows from then on. -/
structure Leaving (c : Round) (next : State) (fsm : WaterboxFsm F) (s : Sys F) : Prop where
  ticking : Ticking c s
  first : next ≠ .waitModem
  connect : next = .connect → c.state = .idle → ∀ u older, c.earlier = (.disconnect, u) :: older →
    c.since + Settings.publishIntervalMs.toNat ≤ s.board.time
  disconnect : next = .disconnect → c.state = .listen → ∃ y ∈ window s.log, y.1 = .radioLoop ∧
    c.since + Settings.cmdListenMs.toNat ≤ y.2.time ∧ y.2.time ≤ s.board.time
  idled : next = .idle → c.state = .disconnect → c.call = some .disconnect
  publish : ∀ b : Board F, b.time = s.board.time →
    Passed fsm.lastPublishMs (publishTime ((.entered next, b) :: s.log)) s.board.time
  listen : ∀ b : Board F, b.time = s.board.time →
    Passed fsm.listenStartMs (listenTime ((.entered next, b) :: s.log)) s.board.time
  modem : fsm.lastModemTryMs = s.board.fsm.lastModemTryMs
  beats : ∃ beat : Int, Stamp fsm.lastHeartbeatMs beat ∧ beat ≤ c.reading ∧
    (∀ t ∈ sentTicks s.log, (t : Int) ≤ beat) ∧
    ∀ b, beat = armedTime ((.entered next, b) :: s.log) ∨ ∃ n ∈ sentTicks s.log, beat = n

/-- Between two rounds: no heartbeat is later than its stamp. -/
def WaterboxFsm.Ticks (s : Sys F) : Prop := ∃ c : Round, c.sent ≤ c.beat ∧ Ticking c s

/-- The new state. -/
theorem Leaving.entered {next : State} {fsm : WaterboxFsm F} (h : Leaving c next fsm s) :
    WaterboxFsm.Ticks ((s.withFsm { fsm with state := next }).logged (.entered next)) := by
  have hticking := h.ticking
  have hrule : TickRule (.entered next, (s.withFsm { fsm with state := next }).board) s.log := by
    refine ⟨?_, ?_, nofun⟩
    · intro hnext t u older hvisits
      rw [hticking.visits] at hvisits
      obtain ⟨hfirst, hearlier⟩ := List.cons.inj hvisits
      obtain ⟨hstate, rfl⟩ := Prod.mk.inj hfirst
      cases hnext
      exact h.connect rfl hstate u older hearlier
    · intro hnext t older hvisits
      rw [hticking.visits] at hvisits
      obtain ⟨hfirst, -⟩ := List.cons.inj hvisits
      obtain ⟨hstate, rfl⟩ := Prod.mk.inj hfirst
      cases hnext
      exact h.disconnect rfl hstate
  have hmodem : ModemStamp (s.withFsm { fsm with state := next }) :=
    hticking.modem.frame rfl h.modem le_rfl
  obtain ⟨beat, hbeat, hread, hsent, harmed⟩ := h.beats
  have hnew : Ticking { c.enter next s.board.time with beat := beat, sent := beat }
      ((s.withFsm { fsm with state := next }).logged (.entered next)) :=
    { rule := ⟨hrule, hticking.rule⟩
      publish := h.publish _ rfl
      listen := h.listen _ rfl
      modem := hmodem.other nofun
      state := rfl
      visits := by
        show (next, s.board.time) :: Waterbox.visits s.log = _
        rw [hticking.visits]
        rfl
      since := le_rfl
      reading := le_rfl
      idle := fun hnext u older hearlier => by
        obtain ⟨hfirst, -⟩ := List.cons.inj hearlier
        have hnext : next = .idle := hnext
        have hlast := hticking.call _ (h.idled hnext (Prod.mk.inj hfirst).1)
        subst hnext
        show (lastCall s.log).elim 0 (RadioCall.idleTime s.board.time) = s.board.time
        rw [hlast]
        rfl
      listening := fun hnext => by
        have hnext : next = .listen := hnext
        subst hnext
        rfl
      looped := False.elim
      call := nofun
      begun := fun x hx ok hok => by
        rcases List.mem_cons.1 hx with rfl | hx
        · cases hok
        · exact lastTry_ne_none _ (hticking.begun x hx ok hok)
      beat := hbeat
      beatRead := hread.trans (Int.ofNat_le.2 hticking.reading)
      armed := harmed _
      sent := hsent
      beaten := False.elim
      unsent := fun hnext => absurd hnext h.first
      waits := nofun }
  exact ⟨_, le_rfl, hnew⟩

/-- The bound of the heartbeats, where their timer is not armed anew. -/
theorem Ticking.beats_kept (h : Ticking c s) (hsent : c.sent ≤ c.beat) {next : State}
    (harmed : ∀ b, armedTime ((.entered next, b) :: s.log) = armedTime s.log) :
    ∃ beat : Int, Stamp s.board.fsm.lastHeartbeatMs beat ∧ beat ≤ c.reading ∧
      (∀ t ∈ sentTicks s.log, (t : Int) ≤ beat) ∧
      ∀ b, beat = armedTime ((.entered next, b) :: s.log) ∨ ∃ n ∈ sentTicks s.log, beat = n :=
  ⟨c.beat, h.beat, h.beatRead, fun t ht => (h.sent t ht).trans hsent,
    fun b => (harmed b).symm ▸ h.armed⟩

/-- No stamp is set for the new state. -/
theorem Ticking.leaving (h : Ticking c s) (hsent : c.sent ≤ c.beat) {next : State}
    (hfirst : next ≠ .waitModem) (hidle : next ≠ .idle) (hlisten : next ≠ .listen)
    (hconnect : next = .connect → c.state = .idle → ∀ u older,
      c.earlier = (.disconnect, u) :: older →
      c.since + Settings.publishIntervalMs.toNat ≤ s.board.time)
    (hdisconnect : next = .disconnect → c.state = .listen → ∃ y ∈ window s.log,
      y.1 = .radioLoop ∧ c.since + Settings.cmdListenMs.toNat ≤ y.2.time ∧
      y.2.time ≤ s.board.time) : Leaving c next s.board.fsm s where
  ticking := h
  first := hfirst
  connect := hconnect
  disconnect := hdisconnect
  idled hnext := absurd hnext hidle
  publish b _ := by
    rw [publishTime_entered b s.log hidle]
    exact h.publish
  listen b _ := by
    rw [listenTime_entered b s.log hlisten]
    exact h.listen
  modem := rfl
  beats := h.beats_kept hsent fun b => armedTime_entered b s.log hidle

/-- The FSM enters Idle after a call other than `radio_.begin()`. -/
theorem Ticking.idling (h : Ticking c s) (hsent : c.sent ≤ c.beat) {k : RadioCall} {v : U32}
    (hk : c.call = some k) (hbegin : ∀ t, k ≠ .begin t)
    (hdisconnect : c.state = .disconnect → k = .disconnect)
    (hv : Passed v (k.idleTime s.board.time) s.board.time) :
    Leaving c .idle { s.board.fsm with lastPublishMs := v } s := by
  have hlast := h.call k hk
  refine ⟨h, nofun, nofun, nofun, fun _ hst => ?_, fun b hb => ?_, fun b _ => h.listen, rfl,
    h.beats_kept hsent fun b => ?_⟩
  · rw [hk, hdisconnect hst]
  · show Passed v ((lastCall s.log).elim 0 (RadioCall.idleTime b.time)) _
    rw [hlast, hb]
    exact hv
  · cases k with
    | begin t => exact absurd rfl (hbegin t)
    | connect t =>
      simp only [armedTime, hlast]
    | disconnect =>
      simp only [armedTime, hlast]

/-- The FSM enters Idle after a `radio_.begin()` that succeeded, with all stamps set back by their
    intervals, so that both messages are due at once. -/
theorem Ticking.initialized
    (h : Ticking { c with call := some (.begin c.reading), waits := none } s)
    (hstate : c.state = .waitModem) :
    Leaving { c with call := some (.begin c.reading), waits := none } .idle
      { s.board.fsm with
        lastPublishMs := BitVec.ofNat 32 c.reading - Settings.publishIntervalMs
        lastHeartbeatMs := BitVec.ofNat 32 c.reading - Settings.heartbeatIntervalMs } s := by
  have hlast : lastCall s.log = some (.begin c.reading) := h.call _ rfl
  have hread : c.reading ≤ s.board.time := h.reading
  refine ⟨h, nofun, nofun, nofun, fun _ hst => ?_, fun b _ => ?_, fun b _ => h.listen, rfl,
    c.reading - Settings.heartbeatIntervalMs.toNat, (Stamp.ofNat c.reading).sub _, ?_,
    fun t ht => ?_, fun b => .inl ?_⟩
  · rw [show c.state = _ from hst] at hstate
    cases hstate
  · show Passed _ ((lastCall s.log).elim 0 (RadioCall.idleTime b.time)) _
    rw [hlast]
    refine ⟨(Stamp.ofNat c.reading).sub _, ?_⟩
    show (c.reading : Int) - _ ≤ _
    omega
  · show (c.reading : Int) - _ ≤ c.reading
    omega
  · rw [h.unsent hstate] at ht
    cases ht
  · simp only [armedTime, hlast]

end Round

namespace WaterboxFsm

variable {c : Round}

/-- The stamps are set and the new state is entered at one moment. -/
theorem set_enter_ticking (f : WaterboxFsm F → WaterboxFsm F) (next : State) :
    Triple (fun s => Leaving c next (f s.board.fsm) s) (set f >>= fun _ => enter next : Fw F Unit)
      (fun _ => Ticks) TickLog :=
  fun _ h => h.entered

theorem enter_ticking (next : State) :
    Triple (fun s => Leaving c next s.board.fsm s) (enter next : Fw F Unit) (fun _ => Ticks)
      TickLog :=
  fun _ h => h.entered

theorem stay_ticking (hsent : c.sent ≤ c.beat) :
    Triple (Ticking c) (pure () : Fw F Unit) (fun _ => Ticks) TickLog := fun _ h => ⟨c, hsent, h⟩

variable [CFloat F]

theorem kept_ticking : Kept (F := F) (Ticking c) TickLog :=
  Kept.of_stable Ticking.verdictStable Ticking.tickLog Ticking.deviceStable

/-- The stamp is set before the call of `radio_.begin()`. -/
theorem tickWaitModem_ticking (hstate : c.state = .waitModem) (hsent : c.sent ≤ c.beat) :
    Triple (fun s => Ticking c s ∧ s.board.time = c.reading)
      (tickWaitModem (BitVec.ofNat 32 c.reading) : Fw F Unit) (fun _ => Ticks) TickLog := by
  let c' : Round := { c with call := some (.begin c.reading) }
  refine look_bind fun b => Triple.ite (fun _ => ?_) fun _ => ?_
  · refine Triple.bind (Q := fun _ t => ∃ s, (Ticking c s ∧ s.board.time = c.reading) ∧
      t = s.withFsm { s.board.fsm with lastModemTryMs := BitVec.ofNat 32 c.reading }) ?_ fun _ => ?_
    · exact fun s hs => ⟨s, hs.1, rfl⟩
    refine Triple.bind (Q := fun _ => Ticking c') ?_ fun _ => ?_
    · rintro _ ⟨s, ⟨hs, htime⟩, rfl⟩
      exact hs.tries htime
    refine Triple.bind (GsmMqttClient.begin_keeps Ticking.radioStable.toModemStable Ticking.tickLog
      kept_ticking.service) fun ok => ?_
    refine Triple.bind (Q := fun _ => Ticking { c' with waits := none }) ?_ fun _ => ?_
    · exact fun s hs => hs.begins ok
    refine Triple.ite (fun _ => ?_) fun _ => stay_ticking (c := { c' with waits := none }) hsent
    exact (set_enter_ticking _ .idle).conseq (fun s hs => hs.initialized hstate)
      (fun _ _ h => h) (fun _ h => h)
  · rintro s ⟨⟨hs, -⟩, -⟩
    exact ⟨c, hsent, hs⟩

omit [CFloat F] in
theorem tickIdle_ticking (hstate : c.state = .idle) (hsent : c.sent ≤ c.beat) :
    Triple (fun s => Ticking c s ∧ s.board.time = c.reading)
      (tickIdle (BitVec.ofNat 32 c.reading) : Fw F Unit) (fun _ => Ticks) TickLog := by
  refine look_bind fun b => Triple.ite (fun hdue => ?_) fun _ => ?_
  · refine (enter_ticking (c := c) .connect).conseq ?_ (fun _ _ h => h) (fun _ h => h)
    rintro s ⟨⟨hs, htime⟩, rfl⟩
    refine hs.leaving hsent (by decide) (by decide) (by decide) (fun _ _ u older hearlier => ?_)
      nofun
    have harmed := hs.idle hstate u older hearlier
    have hwait := (harmed ▸ hs.publish.stamp).due (Int.ofNat_le.2 hs.since) hdue
    omega
  · rintro s ⟨⟨hs, -⟩, -⟩
    exact ⟨c, hsent, hs⟩

/-- A failed `connect()` leaves a stamp too, from before the call. -/
theorem tickConnect_ticking (hstate : c.state = .connect) (hsent : c.sent ≤ c.beat) :
    Triple (fun s => Ticking c s ∧ s.board.time = c.reading)
      (tickConnect (BitVec.ofNat 32 c.reading) : Fw F Unit) (fun _ => Ticks) TickLog := by
  let c' : Round := { c with call := some (.connect c.reading) }
  refine Triple.bind (Q := fun _ => Ticking c') (fun s hs => hs.1.connects hs.2) fun _ => ?_
  refine Triple.bind (GsmMqttClient.connect_keeps Ticking.radioStable Ticking.tickLog
    kept_ticking.service) fun ok => ?_
  refine Triple.bind (emit_keeps fun _ hs => hs.plain rfl) fun _ =>
    Triple.ite (fun _ => ?_) fun _ => ?_
  · refine (enter_ticking (c := c') .publish).conseq (fun s hs => ?_) (fun _ _ h => h)
      (fun _ h => h)
    exact hs.leaving hsent (by decide) (by decide) (by decide) nofun nofun
  · refine (set_enter_ticking (c := c') _ .idle).conseq (fun s hs => ?_) (fun _ _ h => h)
      (fun _ h => h)
    refine hs.idling hsent rfl nofun (fun hst => ?_) ⟨.ofNat _, Int.ofNat_le.2 hs.reading⟩
    rw [show c.state = _ from hst] at hstate
    cases hstate

/-- After `publishHeartbeat`. -/
def Beaten (c : Round) : Bool → Sys F → Prop
  | true => Ticking { c with sent := c.reading, beaten := True, waits := some false }
  | false => Ticking { c with waits := some true }

omit [CFloat F] in
/-- A heartbeat that was not sent leaves the old bound. -/
theorem publishHeartbeat_ticking (hstate : c.state ≠ .waitModem)
    (hdue : c.sent + Settings.heartbeatIntervalMs.toNat ≤ c.reading) :
    Triple (Ticking { c with waits := some false }) (publishHeartbeat : Fw F Bool) (Beaten c)
      TickLog := by
  have hM : ∀ c, ModemStable (F := F) (Ticking c) := fun _ => Ticking.radioStable.toModemStable
  have hC : ∀ c (s : Sys F), Ticking c s → TickLog s := fun _ => Ticking.tickLog
  refine Triple.bind ((hM _).millis (hC _)) fun up => Triple.bind (look_keeps _) fun b => ?_
  refine Triple.bind (Q := fun _ => Beaten c false) ?_ fun _ => ?_
  · exact fun s hs => hs.heartbeat_due hdue _
  refine Triple.bind (Q := fun _ => Beaten c false)
    (GsmMqttClient.formatTimestamp_keeps (hM _).toCommandStable (hC _) _) fun ts => ?_
  refine Triple.bind (Q := fun _ => Beaten c false) (look_keeps _) fun radio => ?_
  refine PubSubClient.publish_triple (fun ok => ?_) (fun ok => ?_)
    fun s hs => hs.beat_sent hstate ?_ _ _
  · cases ok <;> exact hM _
  · cases ok <;> exact hC _
  · omega

/-- In the Publish state, with no heartbeat later than its stamp. -/
def Announced (s : Sys F) : Prop := ∃ c : Round, c.state = .publish ∧ c.sent ≤ c.beat ∧ Ticking c s

omit [CFloat F] in
/-- A heartbeat that was sent moves the stamp to the reading of its round. -/
theorem heartbeatIfDue_ticking (hstate : c.state = .publish) (hsent : c.sent ≤ c.beat) :
    Triple (Ticking { c with waits := some false })
      (heartbeatIfDue (BitVec.ofNat 32 c.reading) : Fw F Unit) (fun _ => Announced) TickLog := by
  refine look_bind fun b => Triple.ite (fun hdue => ?_) fun _ => ?_
  · intro s ⟨hs, hb⟩
    subst hb
    have hread : c.beat ≤ c.reading := hs.beatRead
    have hwait := hs.beat.due hread hdue
    have hother : ∀ st, State.publish ≠ st → c.state ≠ st := fun st hst => hstate ▸ hst
    have hpublish : c.state ≠ .waitModem := hother _ (by decide)
    have hwait : c.beat + Settings.heartbeatIntervalMs.toNat ≤ c.reading := hwait
    refine Triple.bind (publishHeartbeat_ticking hpublish (by omega)) (fun ok => ?_) s hs
    · -- the stamp moves only when the heartbeat was sent
      cases ok with
      | false => exact fun t ht => ⟨{ c with waits := some true }, hstate, hsent, ht⟩
      | true =>
        intro t ht
        have hbeats := Ticking.beats ht
        exact ⟨{ c with beat := c.reading, sent := c.reading, beaten := True, waits := some false },
          hstate, le_rfl, hbeats⟩
  · rintro s ⟨hs, -⟩
    exact ⟨{ c with waits := some false }, hstate, hsent, hs⟩

theorem tickPublish_ticking (hstate : c.state = .publish) (hsent : c.sent ≤ c.beat) :
    Triple (fun s => Ticking c s ∧ s.board.time = c.reading)
      (tickPublish (BitVec.ofNat 32 c.reading) : Fw F Unit) (fun _ => Ticks) TickLog := by
  have hM : ∀ c, ModemStable (F := F) (Ticking c) := fun _ => Ticking.radioStable.toModemStable
  refine Triple.bind (publishInfo_triple (hM { c with waits := some false }) Ticking.tickLog
    (fun _ _ _ hs => hs.published _ _) fun _ hs => hs.1.info hs.2 _) fun _ => ?_
  refine Triple.bind (publishTelemetry_triple (hM { c with waits := some false }) Ticking.tickLog
    (fun _ _ _ hs => hs.published _ _) fun _ hs => hs.telemetry _) fun ok => ?_
  refine Triple.bind (Keeps.when (persistNow_stable (hM _).toPortStable Ticking.tickLog
    Ticking.deviceStable)) fun _ => ?_
  refine Triple.bind (heartbeatIfDue_ticking hstate hsent) fun _ => ?_
  rintro s ⟨c', hstate', hsent', hs⟩
  refine Triple.bind (millis_triple Ticking.tickLog Ticking.after) (fun start => ?_) s hs
  refine (set_enter_ticking (c := c') _ .listen).conseq ?_ (fun _ _ h => h) (fun _ h => h)
  rintro t ⟨ht, rfl⟩
  refine ⟨ht, by decide, nofun, nofun, nofun, fun b _ => ht.publish, fun b hb => ?_, rfl,
    ht.beats_kept hsent' fun b => rfl⟩
  refine ⟨?_, Int.ofNat_le.2 hb.le⟩
  show Stamp (BitVec.ofNat 32 t.board.time) b.time
  rw [hb]
  exact .ofNat _

theorem tickListen_ticking (hstate : c.state = .listen) (hsent : c.sent ≤ c.beat) :
    Triple (fun s => Ticking c s ∧ s.board.time = c.reading)
      (tickListen (BitVec.ofNat 32 c.reading) : Fw F Unit) (fun _ => Ticks) TickLog := by
  let c' : Round := { c with looped := True }
  refine Triple.bind (Q := fun _ => Ticking c') ?_ fun _ => ?_
  · rintro s ⟨hs, htime⟩
    have hnoted : Ticking c (s.logged .radioLoop) := hs.plain rfl
    exact { hnoted with looped := fun _ => ⟨(.radioLoop, s.board), List.mem_cons_self, rfl, htime⟩ }
  refine Triple.bind (GsmMqttClient.loop_keeps Ticking.radioStable.toModemStable Ticking.tickLog
    kept_ticking.handlers) fun _ => ?_
  refine look_bind fun b => Triple.ite (fun hdue => ?_) fun _ => ?_
  · refine (enter_ticking (c := c') .disconnect).conseq ?_ (fun _ _ h => h) (fun _ h => h)
    rintro s ⟨hs, rfl⟩
    refine hs.leaving hsent (by decide) (by decide) (by decide) nofun fun _ _ => ?_
    -- the loop was called at the time that is compared
    obtain ⟨y, hy, hloop, htime⟩ := hs.looped trivial
    have hstart : listenTime s.log = c.since := hs.listening hstate
    have hwait := (hstart ▸ hs.listen.stamp).due (Int.ofNat_le.2 hs.since) hdue
    have hread : c.reading ≤ s.board.time := hs.reading
    have htime : y.2.time = c.reading := htime
    have hwait : (c.since : Int) + Settings.cmdListenMs.toNat ≤ c.reading := hwait
    refine ⟨y, hy, hloop, ?_, ?_⟩
    · show c.since + _ ≤ y.2.time
      omega
    · omega
  · rintro s ⟨hs, -⟩
    exact ⟨c', hsent, hs⟩

omit [CFloat F] in
/-- The stamp of the Idle state is taken when the radio is down. -/
theorem tickDisconnect_ticking (hsent : c.sent ≤ c.beat) :
    Triple (Ticking c) (tickDisconnect : Fw F Unit) (fun _ => Ticks) TickLog := by
  let c' : Round := { c with call := some .disconnect }
  refine Triple.bind (Q := fun _ => Ticking c') (fun s hs => hs.disconnects) fun _ => ?_
  refine Triple.bind (GsmMqttClient.disconnect_keeps Ticking.radioStable.toModemStable
    Ticking.tickLog) fun _ => ?_
  refine Triple.bind (millis_triple Ticking.tickLog Ticking.after) fun now => ?_
  refine (set_enter_ticking (c := c') _ .idle).conseq ?_ (fun _ _ h => h) (fun _ h => h)
  rintro s ⟨hs, rfl⟩
  exact hs.idling hsent rfl nofun (fun _ => rfl) ⟨.ofNat _, le_rfl⟩

/-- One round. -/
theorem tick_ticking : Keeps Ticks TickLog (tick : Fw F Unit) := by
  rintro s ⟨c, hsent, h⟩
  refine Triple.bind kept_ticking.service (fun _ => ?_) s h
  refine Triple.bind (millis_triple Ticking.tickLog Ticking.after) fun now => look_bind fun b => ?_
  rintro t ⟨⟨ht, rfl⟩, rfl⟩
  have hread := ht.read
  generalize hc : ({ c with
    reading := t.board.time, looped := False, call := none, beaten := False,
    waits := none } : Round) = c' at hread
  have hsent' : c'.sent ≤ c'.beat := by
    rw [← hc]
    exact hsent
  have htime : t.board.time = c'.reading := by
    rw [← hc]
  rw [htime, hread.state]
  cases hstate : c'.state with
  | haltAuth => exact stay_ticking hsent' t hread
  | waitModem => exact tickWaitModem_ticking hstate hsent' t ⟨hread, htime⟩
  | idle => exact tickIdle_ticking hstate hsent' t ⟨hread, htime⟩
  | connect => exact tickConnect_ticking hstate hsent' t ⟨hread, htime⟩
  | publish => exact tickPublish_ticking hstate hsent' t ⟨hread, htime⟩
  | listen => exact tickListen_ticking hstate hsent' t ⟨hread, htime⟩
  | disconnect => exact tickDisconnect_ticking hsent' t hread

/-! ### Runs -/

/-- Nothing is logged yet, and no stamp is set. -/
def Unticked (s : Sys F) : Prop := s.log = [] ∧ s.board.fsm.stamps = (0, 0, 0, 0)

omit [CFloat F] in
/-- No stamp is set before the first round. -/
theorem tickStamps_zero {s : Sys F} (hstamps : s.board.fsm.stamps = (0, 0, 0, 0))
    (hpublish : publishTime s.log = 0) (harmed : armedTime s.log = 0)
    (hlisten : listenTime s.log = 0) (hfirst : ∀ x ∈ s.log, x.1 = .entered .waitModem) :
    TickStamps s := by
  simp only [stamps, Prod.mk.injEq] at hstamps
  obtain ⟨hpublished, hbeat, hlistening, hmodem⟩ := hstamps
  refine ⟨?_, ⟨0, .inl harmed.symm, ?_⟩, ?_, .inl ⟨hmodem, hfirst⟩⟩
  · rw [hpublish, hpublished]
    exact passed_zero _
  · rw [hbeat]
    exact passed_zero _
  · rw [hlisten, hlistening]
    exact passed_zero _

omit [CFloat F] in
theorem Unticked.tickLog (s : Sys F) (h : Unticked s) : TickLog s := by
  obtain ⟨hlog, hstamps⟩ := h
  refine ⟨?_, tickStamps_zero hstamps ?_ ?_ ?_ ?_⟩
  all_goals rw [hlog]
  · exact Journal.every_nil
  · rfl
  · rfl
  · rfl
  · exact fun x hx => nomatch hx

/-- The FSM has entered its first state, and no stamp is set. -/
structure Started (st : State) (s : Sys F) : Prop where
  log : ∃ b, s.log = [(.entered st, b)] ∧ b.time ≤ s.board.time
  state : s.board.fsm.state = st
  stamps : s.board.fsm.stamps = (0, 0, 0, 0)

omit [CFloat F] in
theorem enter_started (st : State) :
    Triple Unticked (enter st : Fw F Unit) (fun _ => Started st) TickLog := by
  intro s h
  refine ⟨⟨(s.withFsm { s.board.fsm with state := st }).board, ?_, le_rfl⟩, rfl, h.2⟩
  show (Event.entered st, _) :: s.log = _
  rw [h.1]
  rfl

omit [CFloat F] in
theorem Started.after (st : State) (s : Sys F) (e : Env) (rest : List Env) (_ : s.tape = e :: rest)
    (h : Started st s) : Started st (s.after e rest) := by
  have hfsm : (s.board.after e).fsm = s.board.fsm := Board.after_fsm _ _
  obtain ⟨b, hlog, htime⟩ := h.log
  exact ⟨⟨b, hlog, htime.trans (Board.le_after_time _ _)⟩,
    (congrArg WaterboxFsm.state hfsm).trans h.state,
    (congrArg WaterboxFsm.stamps hfsm).trans h.stamps⟩

omit [CFloat F] in
theorem Started.tickLog (s : Sys F) (h : Started .waitModem s) : TickLog s := by
  obtain ⟨b, hlog, -⟩ := h.log
  refine ⟨?_, tickStamps_zero h.stamps ?_ ?_ ?_ ?_⟩
  all_goals rw [hlog]
  · exact ⟨⟨nofun, nofun, nofun⟩, Journal.every_nil⟩
  · rfl
  · rfl
  · rfl
  · exact fun x hx => (List.mem_singleton.1 hx) ▸ rfl

/-- The FSM in its first state. -/
def first (st : State) (time : Nat) : Round where
  state := st
  since := time
  earlier := []
  reading := time
  looped := False
  call := none
  beat := 0
  sent := 0
  beaten := False
  waits := none

omit [CFloat F] in
/-- The rounds may begin when `begin()` has set the stamp of the modem's timer. -/
theorem Started.ticks {st : State} {s : Sys F} (h : Started st s) (modem : U32)
    (hst : st = .waitModem ∨ st = .haltAuth)
    (hmodem : ModemStamp (s.withFsm { s.board.fsm with lastModemTryMs := modem })) :
    Ticks (s.withFsm { s.board.fsm with lastModemTryMs := modem }) := by
  obtain ⟨⟨b, hlog, htime⟩, hstate, hstamps⟩ := h
  simp only [WaterboxFsm.stamps, Prod.mk.injEq] at hstamps
  obtain ⟨hpublished, hbeat, hlistening, -⟩ := hstamps
  have hticking : Ticking (first st b.time)
      (s.withFsm { s.board.fsm with lastModemTryMs := modem }) := by
    generalize hs' : s.withFsm { s.board.fsm with lastModemTryMs := modem } = s' at hmodem
    have hlog' : s'.log = [(.entered st, b)] := by
      rw [← hs']
      exact hlog
    have hzero : s'.board.fsm.lastPublishMs = 0 ∧ s'.board.fsm.lastHeartbeatMs = 0 ∧
        s'.board.fsm.listenStartMs = 0 := by
      rw [← hs']
      exact ⟨hpublished, hbeat, hlistening⟩
    have htimes : publishTime [(Event.entered st, b)] = 0 ∧ armedTime [(Event.entered st, b)] = 0 ∧
        listenTime [(Event.entered st, b)] = 0 := by
      rcases hst with rfl | rfl <;> exact ⟨rfl, rfl, rfl⟩
    refine
      { rule := hlog' ▸ ⟨⟨nofun, nofun, nofun⟩, Journal.every_nil⟩
        publish := hlog' ▸ htimes.1 ▸ hzero.1 ▸ passed_zero _
        listen := hlog' ▸ htimes.2.2 ▸ hzero.2.2 ▸ passed_zero _
        modem := hmodem
        state := by
          rw [← hs']
          exact hstate
        visits := hlog' ▸ rfl
        since := le_rfl
        reading := by
          rw [← hs']
          exact htime
        idle := nofun
        listening := fun hlisten => ?_
        looped := False.elim
        call := nofun
        begun := hlog' ▸ fun x hx ok hok => ?_
        beat := hzero.2.1 ▸ rfl
        beatRead := Int.natCast_nonneg _
        armed := hlog' ▸ .inl htimes.2.1.symm
        sent := hlog' ▸ fun t ht => nomatch ht
        beaten := False.elim
        unsent := fun _ => hlog' ▸ rfl
        waits := nofun }
    · have hlisten : st = .listen := hlisten
      rw [hlisten] at hst
      rcases hst with hst | hst <;> cases hst
    · rw [List.mem_singleton.1 hx] at hok
      cases hok
  exact ⟨_, le_rfl, hticking⟩

theorem begin_ticking : Triple (fun s : Sys F => s.log = []) (begin : Fw F Unit) (fun _ => Ticks)
    TickLog := by
  refine begin_cleared ?_
  refine Triple.bind (Q := fun _ => Unticked) ?_ fun _ => Triple.ite (fun _ => ?_) fun _ => ?_
  · refine Triple.conseq (restore_keeps Unticked.tickLog (fun s e rest _ h => ⟨h.1, ?_⟩)
      (fun _ _ h => h) (fun _ _ _ h => h) (fun _ _ h => h) (fun _ h => h) (fun _ _ h => h)
      (fun _ _ h => h)) ?_ (fun _ _ h => h) (fun _ h => h)
    · show (s.board.after e).fsm.stamps = _
      rw [Board.after_fsm]
      exact h.2
    · rintro _ ⟨s₀, hlog, rfl⟩
      exact ⟨hlog, rfl⟩
  · refine Triple.bind (enter_started .waitModem) fun _ => ?_
    refine Triple.bind (millis_triple Started.tickLog (Started.after .waitModem)) fun now => ?_
    -- the stamp of the modem is set back, so that the first try is due at once
    rintro s ⟨hs, rfl⟩
    obtain ⟨b, hlog, htime⟩ := hs.log
    refine hs.ticks _ (.inl rfl) (.armed b s.board.time ?_ ?_ ((Stamp.ofNat _).sub _))
    · show lastTry s.log = none
      rw [hlog]
      rfl
    · exact ⟨htime, ⟨[], hlog, fun _ hx => nomatch hx⟩, le_rfl⟩
  · refine (enter_started .haltAuth).conseq (fun _ h => h) ?_ (fun _ h => h)
    intro _ s hs
    obtain ⟨b, hlog, -⟩ := hs.log
    have hzero := hs.stamps
    simp only [stamps, Prod.mk.injEq] at hzero
    refine hs.ticks s.board.fsm.lastModemTryMs (.inr rfl)
      (.halted (.entered .haltAuth, b) ?_ ?_ rfl hzero.2.2.2)
    · show lastTry s.log = none
      rw [hlog]
      rfl
    · show _ ∈ s.log
      rw [hlog]
      exact List.mem_singleton_self _

/-- The firmware between two rounds. -/
theorem firmware_ticks (eeprom : Nat → U8) (latch : Bool) (start : Nat) (tape : List Env)
    (n : Nat) :
    wp (firmware (F := F) n) (fun _ => Ticks) TickLog (Sys.powerUp eeprom latch start tape) :=
  Triple.bind (begin_ticking (F := F)) (fun _ => Keeps.times tick_ticking n)
    (Sys.powerUp eeprom latch start tape) rfl

theorem firmware_ticking (eeprom : Nat → U8) (latch : Bool) (start : Nat) (tape : List Env)
    (n : Nat) : TickLog (firmware (F := F) n (Sys.powerUp eeprom latch start tape)).2 :=
  wp_snd (wp_mono (fun _ s ⟨_, _, h⟩ => Ticking.tickLog s h) (fun _ h => h)
    (firmware_ticks eeprom latch start tape n))

/-- No timer fires early, from whatever value the clock starts and however often it wraps around.
    In every run, a change of state from Idle to Connect, a call of `publishHeartbeat`, a sample of
    the flow meter and a write of `saveIfDue` come an interval of true time after what armed their
    timer, and one from Listen to Disconnect after a call of `radio_.loop()` that does.  Wherever
    the run has come to, each stamp is that of the event that armed its timer, which is not ahead
    of the clock. -/
theorem timers_not_early (eeprom : Nat → U8) (latch : Bool) (start : Nat) (tape : List Env)
    (n : Nat) :
    let run := (firmware (F := F) n (Sys.powerUp eeprom latch start tape)).2
    (∀ newer x past, run.log = newer ++ x :: past →
      TickRule x past ∧ SaveRule start x past ∧ SampleRule x past) ∧
    TickStamps run ∧ SaveStamp start run ∧ SampleStamp start run := by
  intro run
  obtain ⟨htick, hstamps⟩ : TickLog run := firmware_ticking eeprom latch start tape n
  obtain ⟨hsaved, hsave⟩ : SaveLog start run := firmware_saving eeprom latch start tape n
  obtain ⟨hsampled, hsample⟩ : SampleLog start run := firmware_sampling eeprom latch start tape n
  refine ⟨fun newer x past hlog => ⟨?_, ?_, ?_⟩, hstamps, hsave, hsample⟩
  · exact Journal.every_iff.1 htick newer x past hlog
  · exact Journal.every_iff.1 hsaved newer x past hlog
  · exact Journal.every_iff.1 hsampled newer x past hlog

end WaterboxFsm

end Waterbox
