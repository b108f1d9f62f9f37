import Waterbox.Firmware.Rounds

namespace Waterbox

/-!
# The duty cycle of the radio

A session is opened by a successful `connect()` and ended by `disconnect()`; in between `tick()`
announces the meter once and publishes one telemetry record.  Every way out of `connect()` that
fails goes through `TCPstop()`, which clears both flags of the modem.

* `Phase`, `scan` — where a log stands in the cycle, and that it keeps to it.
* `Cycling st` — what holds between two rounds in the state `st`.
* `GsmMqttClient.connect_torn` — an attempt that fails leaves no flag.
* `tick_cycling` — one round.
* `WaterboxFsm.radio_cycle` — whole runs.
-/

open Cut

variable {F : Type}

/-! ### The cycle -/

/-- Where a log stands: without a session; in a session of which nothing was published; after
    `publishInfo`; after `publishTelemetry`. -/
inductive Phase
  | down
  | opened
  | informed
  | reported
deriving DecidableEq

/-- The events that belong to the cycle. -/
def Event.isCycle : Event F → Bool
  | .radioBegin | .radioBegun _ | .radioConnect | .radioConnected _ | .radioDisconnect
  | .info _ | .telemetry _ => true
  | _ => false

/-- The phase after an event; `none` where the event does not belong into the phase. -/
def Phase.after : Phase → Event F → Option Phase
  | .down, .radioBegin => some .down
  | .down, .radioBegun _ => some .down
  | .down, .radioConnect => some .down
  | .down, .radioConnected ok => some (if ok then .opened else .down)
  | .opened, .info _ => some .informed
  | .informed, .telemetry _ => some .reported
  | .reported, .radioDisconnect => some .down
  | p, ev => if ev.isCycle then none else some p

/-- The phase after a list of events, oldest first. -/
def Phase.scan : Phase → List (Event F × Board F) → Option Phase
  | p, [] => some p
  | p, x :: xs =>
    match p.after x.1 with
    | some q => q.scan xs
    | none => none

namespace Phase

/-- Events outside the cycle leave the phase as it is. -/
theorem after_other (p : Phase) {ev : Event F} (h : ev.isCycle = false) : p.after ev = some p := by
  cases p <;> cases ev <;> simp_all [after, Event.isCycle]

/-- A session can be opened only without one. -/
theorem after_connected {p q : Phase} (h : p.after (F := F) (.radioConnected true) = some q) :
    q = .opened := by
  cases p <;> simp_all [after, Event.isCycle]

theorem after_offline {p q : Phase} {ev : Event F} (hev : ev = .radioBegin ∨ ev = .radioConnect)
    (h : p.after ev = some q) : p = .down := by
  rcases hev with rfl | rfl <;> cases p <;> simp_all [after, Event.isCycle]

/-- A session can be ended only after both records. -/
theorem after_disconnect {p q : Phase} (h : p.after (F := F) .radioDisconnect = some q) :
    p = .reported := by
  cases p <;> simp_all [after, Event.isCycle]

/-- The phase after a log is that after its parts, one after the other. -/
theorem scan_append (p : Phase) (xs ys : List (Event F × Board F)) :
    p.scan (xs ++ ys) = (p.scan xs).bind fun q => q.scan ys := by
  induction xs generalizing p with
  | nil => rfl
  | cons x xs ih =>
    simp only [List.cons_append, scan]
    cases p.after x.1 with
    | none => rfl
    | some q => exact ih q

/-- A part of a log that keeps to the cycle keeps to it. -/
theorem scan_split {p r : Phase} {xs ys : List (Event F × Board F)}
    (h : p.scan (xs ++ ys) = some r) : ∃ q, p.scan xs = some q ∧ q.scan ys = some r := by
  rw [scan_append] at h
  exact Option.bind_eq_some_iff.1 h

theorem scan_cons {p r : Phase} {x : Event F × Board F} {xs : List (Event F × Board F)}
    (h : p.scan (x :: xs) = some r) : ∃ q, p.after x.1 = some q ∧ q.scan xs = some r := by
  simp only [scan] at h
  cases hq : p.after x.1 with
  | none =>
    rw [hq] at h
    cases h
  | some q =>
    rw [hq] at h
    exact ⟨q, rfl, h⟩

/-- How often `publishInfo` was called in the session, and `publishTelemetry`. -/
def infos : Phase → Nat
  | .informed | .reported => 1
  | _ => 0

def reports : Phase → Nat
  | .reported => 1
  | _ => 0

end Phase

/-- The call of `publishInfo`. -/
def Event.isInfo : Event F → Bool
  | .info _ => true
  | _ => false

/-- The call of `radio_.disconnect()`. -/
def Event.isDisconnect : Event F → Bool
  | .radioDisconnect => true
  | _ => false

namespace Phase

/-- One event of a session other than its end. -/
theorem after_session {p q : Phase} {ev : Event F} (hp : p ≠ .down)
    (hev : ev.isDisconnect = false) (h : p.after ev = some q) :
    q ≠ .down ∧ q.infos = p.infos + (if ev.isInfo then 1 else 0) ∧
      q.reports = p.reports + (if ev.isTelemetry then 1 else 0) := by
  cases hcycle : ev.isCycle with
  | false =>
    rw [after_other p hcycle] at h
    cases h
    cases ev <;> simp_all [Event.isCycle, Event.isInfo, Event.isTelemetry]
  | true =>
    cases p <;> cases ev <;>
      simp_all [after, Event.isCycle, Event.isDisconnect, Event.isInfo, Event.isTelemetry]
    all_goals
      subst h
      simp [infos, reports]

/-- What is published in a session as far as it has gone. -/
theorem scan_session {p q : Phase} {xs : List (Event F × Board F)} (hp : p ≠ .down)
    (hxs : ∀ x ∈ xs, x.1.isDisconnect = false) (h : p.scan xs = some q) :
    q ≠ .down ∧ q.infos = p.infos + xs.countP (fun x => x.1.isInfo) ∧
      q.reports = p.reports + xs.countP (fun x => x.1.isTelemetry) := by
  induction xs generalizing p with
  | nil =>
    cases h
    exact ⟨hp, rfl, rfl⟩
  | cons x xs ih =>
    obtain ⟨r, hr, hrest⟩ := scan_cons h
    obtain ⟨hne, hinfos, hreports⟩ := after_session hp (hxs x List.mem_cons_self) hr
    obtain ⟨hne', hinfos', hreports'⟩ :=
      ih hne (fun y hy => hxs y (List.mem_cons_of_mem _ hy)) hrest
    refine ⟨hne', ?_, ?_⟩
    · rw [hinfos', hinfos, List.countP_cons]
      omega
    · rw [hreports', hreports, List.countP_cons]
      omega

end Phase

/-! ### Between two rounds -/

/-- Neither flag of the modem's session is set. -/
def Torn (b : Board F) : Prop :=
  b.radio.modem.registered = false ∧ b.radio.modem.tcpConnected = false

/-- The log keeps to the cycle and has come to the phase `p`; wherever `connect()` failed, the
    session was torn down. -/
structure InPhase (p : Phase) (s : Sys F) : Prop where
  scanned : Phase.down.scan s.log.reverse = some p
  failed : ∀ x ∈ s.log, x.1 = .radioConnected false → Torn x.2

/-- The log keeps to the cycle. -/
def OnCycle (s : Sys F) : Prop := ∃ p, InPhase p s

/-- Also the FSM is in the state `st`. -/
structure At (p : Phase) (st : State) (s : Sys F) : Prop extends InPhase p s where
  state : s.board.fsm.state = st

/-- Also the radio is down. -/
structure Off (st : State) (s : Sys F) : Prop extends At .down st s where
  torn : Torn s.board

/-- After `connect()`. -/
def Attempted (st : State) : Bool → Sys F → Prop
  | true => At .down st
  | false => Off st

/-- The phase in which the FSM is in a state. -/
def State.phase : State → Phase
  | .publish => .opened
  | .listen | .disconnect => .reported
  | _ => .down

/-- Between two rounds: the log stands where the state of the FSM says, and where it stands
    outside a session no flag is set. -/
structure Cycling (st : State) (s : Sys F) : Prop extends At st.phase st s where
  torn : st.phase = .down → Torn s.board

variable {p q : Phase} {st : State} {s : Sys F}

/-- An event that the phase allows; after a failed `connect()` the radio has to be down. -/
theorem InPhase.logged (h : InPhase p s) {ev : Event F} (hev : p.after ev = some q)
    (hfailed : ev = .radioConnected false → Torn s.board) : InPhase q (s.logged ev) := by
  constructor
  · show Phase.down.scan ((ev, s.board) :: s.log).reverse = some q
    rw [List.reverse_cons, Phase.scan_append, h.scanned]
    simp only [Option.bind_some, Phase.scan, hev]
  · intro x hx hconnect
    rcases List.mem_cons.1 hx with rfl | hx
    · exact hfailed hconnect
    · exact h.failed x hx hconnect

theorem At.logged (h : At p st s) {ev : Event F} (hev : p.after ev = some q)
    (hfailed : ev = .radioConnected false → Torn s.board) : At q st (s.logged ev) :=
  ⟨h.toInPhase.logged hev hfailed, h.state⟩

/-- Events outside the cycle leave the phase alone. -/
theorem At.other (h : At p st s) {ev : Event F} (hev : ev.isCycle = false) :
    At p st (s.logged ev) := by
  refine h.logged (p.after_other hev) ?_
  rintro rfl
  cases hev

/-- What a phase means depends on the log and on the state of the FSM alone. -/
theorem At.frame (h : At p st s) {t : Sys F} (hlog : t.log = s.log)
    (hstate : t.board.fsm.state = s.board.fsm.state) : At p st t := by
  refine ⟨⟨?_, ?_⟩, hstate.trans h.state⟩
  · rw [hlog]
    exact h.scanned
  · rw [hlog]
    exact h.failed

theorem At.onCycle (s : Sys F) (h : At p st s) : OnCycle s := ⟨p, h.toInPhase⟩

theorem At.radioStable : RadioStable (F := F) (At p st) where
  after _ _ _ _ h := h.frame rfl (congrArg WaterboxFsm.state (Board.after_fsm _ _))
  later _ _ h := h.frame rfl rfl
  radio _ _ _ h := h.frame rfl rfl
  packet _ h := h.other rfl
  command _ _ h := h.other rfl
  lowered _ _ _ _ h := h.frame rfl rfl
  registered _ _ _ h := h.frame rfl rfl
  opened _ _ h := h.frame rfl rfl

theorem At.serviceStable : ServiceStable (F := F) (At p st) where
  toCommandStable := At.radioStable.toCommandStable
  fsm _ _ hf h := h.frame rfl hf
  led _ _ h := h.frame rfl rfl

theorem At.deviceStable : DeviceStable (F := F) (At p st) where
  flow _ _ h := h.frame rfl rfl
  valve _ _ _ h := h.frame rfl rfl
  store _ _ h := h.frame rfl rfl
  eeprom _ _ h := h.frame rfl rfl
  signature _ _ h := h.frame rfl rfl
  own _ ev hev h := h.other (by cases ev <;> simp_all [Event.isOwn, Event.isCycle])

/-- With the radio off, on the modem as well. -/
theorem Off.frame (h : Off st s) {t : Sys F} (hlog : t.log = s.log)
    (hstate : t.board.fsm.state = s.board.fsm.state)
    (hmodem : t.board.radio.modem = s.board.radio.modem) : Off st t := by
  refine ⟨h.toAt.frame hlog hstate, ?_⟩
  show t.board.radio.modem.registered = false ∧ t.board.radio.modem.tcpConnected = false
  rw [hmodem]
  exact h.torn

/-- With the radio down, the events up to a failed `connect()` may happen. -/
theorem Off.logged (h : Off st s) {ev : Event F} (hev : Phase.down.after ev = some .down) :
    Off st (s.logged ev) := ⟨h.toAt.logged hev fun _ => h.torn, h.torn⟩

theorem Off.other (h : Off st s) {ev : Event F} (hev : ev.isCycle = false) :
    Off st (s.logged ev) := h.logged (Phase.after_other _ hev)

theorem Off.onCycle (s : Sys F) (h : Off st s) : OnCycle s := ⟨.down, h.toInPhase⟩

theorem Off.modemStable : ModemStable (F := F) (Off st) where
  after _ _ _ _ h := h.frame rfl (congrArg WaterboxFsm.state (Board.after_fsm _ _))
    (congrArg GsmMqttClient.modem (Board.after_radio _ _))
  later _ _ h := h.frame rfl rfl rfl
  radio _ _ hr h := h.frame rfl rfl hr
  packet _ h := h.other rfl
  command _ _ h := h.other rfl
  lowered s r hreg htcp h := by
    refine ⟨h.toAt.frame rfl rfl, ?_, ?_⟩
    · exact Bool.eq_false_iff.2 fun hup => Bool.eq_false_iff.1 h.torn.1 (hreg hup)
    · exact Bool.eq_false_iff.2 fun hup => Bool.eq_false_iff.1 h.torn.2 (htcp hup)

theorem Off.serviceStable : ServiceStable (F := F) (Off st) where
  toCommandStable := Off.modemStable.toCommandStable
  fsm _ _ hf h := h.frame rfl hf rfl
  led _ _ h := h.frame rfl rfl rfl

theorem Off.deviceStable : DeviceStable (F := F) (Off st) where
  flow _ _ h := h.frame rfl rfl rfl
  valve _ _ _ h := h.frame rfl rfl rfl
  store _ _ h := h.frame rfl rfl rfl
  eeprom _ _ h := h.frame rfl rfl rfl
  signature _ _ h := h.frame rfl rfl rfl
  own _ ev hev h := h.other (by cases ev <;> simp_all [Event.isOwn, Event.isCycle])

theorem Off.cycling {next : State} (hphase : next.phase = .down) {s : Sys F} (h : Off next s) :
    Cycling next s := by
  refine ⟨?_, fun _ => h.torn⟩
  rw [hphase]
  exact h.toAt

/-- In the states before a session the radio is off. -/
theorem Cycling.off (h : Cycling st s) (hphase : st.phase = .down) : Off st s :=
  ⟨hphase ▸ h.toAt, h.torn hphase⟩

/-- Time passes without leaving the cycle. -/
theorem Cycling.after (h : Cycling st s) (e : Env) (rest : List Env) :
    Cycling st (s.after e rest) := by
  refine ⟨h.toAt.frame rfl (congrArg WaterboxFsm.state (Board.after_fsm _ _)), fun hphase => ?_⟩
  show Torn (s.board.after e)
  unfold Torn
  rw [Board.after_radio]
  exact h.torn hphase

/-! ### Opening a session and ending it -/

/-- `TCPstop()` takes the radio down. -/
theorem Sim800.tcpStop_off :
    Triple (At .down st) (tcpStop : Fw F Bool) (fun _ => Off st) OnCycle :=
  tcpStop_triple Off.serviceStable.toCommandStable Off.onCycle fun _ h =>
    ⟨h.frame rfl rfl, rfl, rfl⟩

namespace GsmMqttClient

/-- Every attempt that fails ends with `TCPstop()`, before the pause and the next attempt. -/
theorem connectTries_torn {h : Handlers F} (hup : Keeps (At .down st) OnCycle h.yield)
    (hoff : Keeps (Off st) OnCycle h.yield) (n : Nat) :
    Triple (Off st) (connectTries h n) (Attempted st) OnCycle := by
  have hR : RadioStable (F := F) (At .down st) := At.radioStable
  induction n with
  | zero => exact fun _ h => h
  | succ n ih =>
    -- a try that fails tears the connection down before the next one
    have hagain : Triple (At .down st) (do
        let _ ← Sim800.tcpStop
        wait h Settings.radioRetryDelayMs
        connectTries h n) (Attempted st) OnCycle :=
      Triple.bind Sim800.tcpStop_off fun _ =>
        Triple.bind (wait_keeps Off.modemStable Off.onCycle hoff _) fun _ => ih
    refine Triple.bind hoff fun _ => ?_
    refine Triple.bind (Q := fun _ => At .down st) ?_ fun _ =>
      Triple.ite (fun _ => ?_) fun _ => hagain
    · exact Triple.conseq (Sim800.tcpStart_keeps hR.toNetworkStable At.onCycle _ _ _)
        (fun _ h => h.toAt) (fun _ _ h => h) (fun _ h => h)
    refine Triple.bind hup fun _ => ?_
    refine Triple.bind (Sim800.getSignalQualityReport_keeps hR.toModemStable At.onCycle) fun _ => ?_
    refine Triple.bind (set_keeps hR.toPortStable _ fun _ => rfl) fun _ => ?_
    refine Triple.bind (mqttConnect_keeps hR At.onCycle) fun _ =>
      Triple.ite (fun _ => ?_) fun _ => ?_
    · refine Triple.bind (look_keeps _) fun _ => ?_
      refine Triple.bind (PubSubClient.subscribe_keeps hR.toModemStable At.onCycle _) fun _ => ?_
      exact Triple.bind (PubSubClient.subscribe_keeps hR.toModemStable At.onCycle _) fun _ _ h => h
    · exact Triple.bind (Sim800.stop_keeps hR.toModemStable At.onCycle) fun _ => hagain

theorem connect_torn {h : Handlers F} (hup : Keeps (At .down st) OnCycle h.yield)
    (hoff : Keeps (Off st) OnCycle h.yield) :
    Triple (Off st) (connect h) (Attempted st) OnCycle :=
  Triple.ite (fun _ => connectTries_torn hup hoff _) fun _ _ h => h

/-- `disconnect()` ends with `TCPstop()`. -/
theorem disconnect_off :
    Triple (At .down st) (disconnect : Fw F Unit) (fun _ => Off st) OnCycle := by
  have hM : ModemStable (F := F) (At .down st) := At.radioStable.toModemStable
  refine Triple.bind (PubSubClient.connected_keeps hM At.onCycle) fun _ => ?_
  refine Triple.bind (Keeps.when (PubSubClient.disconnect_keeps hM At.onCycle)) fun _ => ?_
  refine Triple.bind (Sim800.stop_keeps hM At.onCycle) fun _ => ?_
  exact Triple.bind Sim800.tcpStop_off fun _ _ h => h

end GsmMqttClient

/-! ### Rounds -/

namespace WaterboxFsm

variable [CFloat F]

/-- Callbacks do nothing that belongs to the cycle. -/
theorem kept_at : Kept (F := F) (At p st) OnCycle :=
  Kept.of_stable At.serviceStable.verdictStable At.onCycle At.deviceStable

theorem kept_off : Kept (F := F) (Off st) OnCycle :=
  Kept.of_stable Off.serviceStable.verdictStable Off.onCycle Off.deviceStable

/-- Some state of the FSM, with what holds there between two rounds. -/
def Cycles (s : Sys F) : Prop := ∃ st, Cycling st s

omit [CFloat F] in
/-- With the radio down the FSM goes on to a state without a session. -/
theorem enter_off (next : State) (hphase : next.phase = .down) :
    Triple (Off st) (enter next : Fw F Unit) (fun _ => Cycles) OnCycle := by
  refine (enter_triple next (Q := Off next) (fun _ h => h.other rfl) ?_).conseq (fun _ h => h)
    (fun _ s h => ⟨next, h.cycling hphase⟩) (fun _ h => h)
  exact fun s h => ⟨⟨⟨h.scanned, h.failed⟩, rfl⟩, h.torn⟩

omit [CFloat F] in
/-- In a session the FSM goes on to a state of the same phase. -/
theorem enter_at (next : State) (hphase : next.phase = p) (hne : p ≠ .down) :
    Triple (At p st) (enter next : Fw F Unit) (fun _ => Cycles) OnCycle := by
  refine (enter_triple next (Q := At p next) (fun _ h => h.other rfl) ?_).conseq (fun _ h => h)
    (fun _ s h => ⟨next, ?_⟩) (fun _ h => h)
  · exact fun s h => ⟨⟨h.scanned, h.failed⟩, rfl⟩
  · exact ⟨by rw [hphase]; exact h, fun hdown => absurd (hphase.symm.trans hdown) hne⟩

omit [CFloat F] in
theorem stay_off (hphase : st.phase = .down) :
    Triple (Off st) (pure () : Fw F Unit) (fun _ => Cycles) OnCycle :=
  fun _ h => ⟨st, h.cycling hphase⟩

omit [CFloat F] in
theorem stay_at (hphase : st.phase = p) (hne : p ≠ .down) :
    Triple (At p st) (pure () : Fw F Unit) (fun _ => Cycles) OnCycle :=
  fun _ h => ⟨st, by rw [hphase]; exact h, fun hdown => absurd (hphase.symm.trans hdown) hne⟩

omit [CFloat F] in
theorem set_off (f : WaterboxFsm F → WaterboxFsm F) (hf : ∀ fsm, (f fsm).state = fsm.state) :
    Keeps (Off st) OnCycle (set f) := set_keeps Off.serviceStable f hf

/-- `radio_.begin()` does not open a session. -/
theorem tickWaitModem_cycling (now : U32) :
    Triple (Off .waitModem) (tickWaitModem now : Fw F Unit) (fun _ => Cycles) OnCycle := by
  refine Triple.bind (look_keeps _) fun _ => Triple.ite (fun _ => ?_) fun _ => stay_off rfl
  refine Triple.bind (set_off _ fun _ => rfl) fun _ => ?_
  refine Triple.bind (emit_keeps fun _ h => h.logged rfl) fun _ => ?_
  refine Triple.bind (GsmMqttClient.begin_keeps Off.modemStable Off.onCycle kept_off.service)
    fun ok => Triple.bind (emit_keeps fun _ h => h.logged rfl) fun _ => ?_
  refine Triple.ite (fun _ => ?_) fun _ => stay_off rfl
  exact Triple.bind (set_off _ fun _ => rfl) fun _ => enter_off .idle rfl

omit [CFloat F] in
/-- In Idle nothing is called. -/
theorem tickIdle_cycling (now : U32) :
    Triple (Off .idle) (tickIdle now : Fw F Unit) (fun _ => Cycles) OnCycle :=
  Triple.bind (look_keeps _) fun _ =>
    Triple.ite (fun _ => enter_off .connect rfl) fun _ => stay_off rfl

/-- The session that `connect()` opened goes with the FSM into the Publish state. -/
theorem tickConnect_cycling (now : U32) :
    Triple (Off .connect) (tickConnect now : Fw F Unit) (fun _ => Cycles) OnCycle := by
  refine Triple.bind (emit_keeps fun _ h => h.logged rfl) fun _ => ?_
  refine Triple.bind (GsmMqttClient.connect_torn kept_at.service kept_off.service) fun ok => ?_
  cases ok with
  | true =>
    refine Triple.bind (Q := fun _ => At .opened .connect) ?_ fun _ =>
      enter_at .publish rfl (by decide)
    exact fun s h => h.logged rfl fun hev => nomatch hev
  | false =>
    refine Triple.bind (emit_keeps fun _ h => h.logged rfl) fun _ => ?_
    exact Triple.bind (set_off _ fun _ => rfl) fun _ => enter_off .idle rfl

/-- The Publish state calls `publishInfo` and `publishTelemetry` once each. -/
theorem tickPublish_cycling (now : U32) :
    Triple (At .opened .publish) (tickPublish now : Fw F Unit) (fun _ => Cycles) OnCycle := by
  have hM : ∀ p, ModemStable (F := F) (At p .publish) := fun _ => At.radioStable.toModemStable
  have hR : PortStable (F := F) (At .reported .publish) := (hM _).toPortStable
  refine Triple.bind (publishInfo_triple (hM .informed) At.onCycle (fun _ _ _ h => h.other rfl)
    fun _ h => h.logged rfl fun hev => nomatch hev) fun _ => ?_
  refine Triple.bind (publishTelemetry_triple (hM .reported) At.onCycle
    (fun _ _ _ h => h.other rfl) fun _ h => h.logged rfl fun hev => nomatch hev) fun _ => ?_
  refine Triple.bind (Keeps.when (persistNow_stable hR At.onCycle At.deviceStable)) fun _ => ?_
  refine Triple.bind (heartbeatIfDue_keeps (hM .reported) At.onCycle (fun _ _ _ h => h.other rfl)
    At.serviceStable (fun _ _ h => h.other rfl) now) fun _ => ?_
  refine Triple.bind (hR.millis At.onCycle) fun start => ?_
  refine Triple.bind (set_keeps At.serviceStable _ fun _ => rfl) fun _ => ?_
  exact enter_at .listen rfl (by decide)

/-- Listening ends in Disconnect, with the session still open. -/
theorem tickListen_cycling (now : U32) :
    Triple (At .reported .listen) (tickListen now : Fw F Unit) (fun _ => Cycles) OnCycle := by
  refine Triple.bind (emit_keeps fun _ h => h.other rfl) fun _ => ?_
  refine Triple.bind (GsmMqttClient.loop_keeps At.radioStable.toModemStable At.onCycle
    kept_at.handlers) fun _ => ?_
  refine Triple.bind (look_keeps _) fun _ => ?_
  exact Triple.ite (fun _ => enter_at .disconnect rfl (by decide)) fun _ =>
    stay_at rfl (by decide)

omit [CFloat F] in
/-- After `disconnect()` the radio is off in Idle. -/
theorem tickDisconnect_cycling :
    Triple (At .reported .disconnect) (tickDisconnect : Fw F Unit) (fun _ => Cycles) OnCycle := by
  refine Triple.bind (Q := fun _ => At .down .disconnect) ?_ fun _ => ?_
  · exact fun s h => h.logged rfl fun hev => nomatch hev
  refine Triple.bind GsmMqttClient.disconnect_off fun _ => ?_
  refine Triple.bind (Off.modemStable.millis Off.onCycle) fun _ => ?_
  exact Triple.bind (set_off _ fun _ => rfl) fun _ => enter_off .idle rfl

/-- `service()` before the state is looked at. -/
theorem service_cycling : Keeps (Cycling st) OnCycle (service : Fw F Unit) := by
  by_cases hphase : st.phase = .down
  · refine Triple.conseq kept_off.service (fun _ h => h.off hphase)
      (fun _ _ h => h.cycling hphase) (fun _ h => h)
  · refine Triple.conseq kept_at.service (fun _ h => h.toAt)
      (fun _ _ h => ⟨h, fun hdown => absurd hdown hphase⟩) (fun _ h => h)

/-- One round keeps to the cycle. -/
theorem tick_cycling : Keeps Cycles OnCycle (tick : Fw F Unit) := by
  rintro s ⟨st, h⟩
  refine Triple.bind service_cycling (fun _ => ?_) s h
  have hmillis : Keeps (Cycling st) OnCycle (millis : Fw F U32) :=
    millis_keeps (fun _ h => ⟨_, h.toInPhase⟩) fun _ _ _ _ h => h.after _ _
  refine Triple.bind hmillis fun now => look_bind fun b => ?_
  rintro t ⟨ht, rfl⟩
  rw [ht.state]
  cases st with
  | haltAuth => exact stay_off rfl t (ht.off rfl)
  | waitModem => exact tickWaitModem_cycling now t (ht.off rfl)
  | idle => exact tickIdle_cycling now t (ht.off rfl)
  | connect => exact tickConnect_cycling now t (ht.off rfl)
  | publish => exact tickPublish_cycling now t ht.toAt
  | listen => exact tickListen_cycling now t ht.toAt
  | disconnect => exact tickDisconnect_cycling t ht.toAt

/-! ### Runs -/

omit [CFloat F] in
/-- Before the FSM enters its first state nothing is logged, and no flag is set. -/
theorem enter_first (next : State) :
    Triple (fun s : Sys F => s.log = [] ∧ Torn s.board) (enter next : Fw F Unit)
      (fun _ => Off next) OnCycle := by
  refine enter_triple next (fun _ h => h.other rfl) fun s h => ⟨⟨⟨?_, fun x hx => ?_⟩, rfl⟩, h.2⟩
  · show Phase.down.scan s.log.reverse = some .down
    rw [h.1]
    rfl
  · have hx : x ∈ s.log := hx
    rw [h.1] at hx
    cases hx

/-- The boot ends with the radio off. -/
theorem begin_cycling : Triple (fun s : Sys F => s.log = [] ∧ Torn s.board) (begin : Fw F Unit)
    (fun _ => Cycles) OnCycle := by
  let I (s : Sys F) : Prop := s.log = [] ∧ Torn s.board
  have hI : ∀ s : Sys F, I s → OnCycle s := by
    intro s h
    refine ⟨.down, ?_, ?_⟩
    · rw [h.1]
      rfl
    · rw [h.1]
      exact fun x hx => nomatch hx
  refine begin_cleared ?_
  refine Triple.bind (Q := fun _ => I) ?_ fun _ => Triple.ite (fun _ => ?_) fun _ => ?_
  · refine Triple.conseq (restore_keeps (I := I) hI (fun s e rest _ h => ⟨h.1, ?_⟩) (fun _ _ h => h)
      (fun _ _ _ h => h) (fun _ _ h => h) (fun _ h => h) (fun _ _ h => h) (fun _ _ h => h)) ?_
      (fun _ _ h => h) (fun _ h => h)
    · show Torn (s.board.after e)
      unfold Torn
      rw [Board.after_radio]
      exact h.2
    · rintro _ ⟨s₀, h, rfl⟩
      exact h
  · refine Triple.bind (enter_first .waitModem) fun _ => ?_
    refine Triple.bind (Off.modemStable.millis Off.onCycle) fun now => ?_
    refine Triple.conseq (Q := fun _ => Off .waitModem) (set_off _ fun _ => rfl) (fun _ h => h)
      (fun _ _ h => ⟨_, h.cycling rfl⟩) (fun _ h => h)
  · exact (enter_first .haltAuth).conseq (fun _ h => h) (fun _ s h => ⟨.haltAuth, h.cycling rfl⟩)
      (fun _ h => h)

/-- Any number of rounds. -/
theorem firmware_cycling (n : Nat) : Triple (fun s : Sys F => s.log = [] ∧ Torn s.board)
    (firmware n : Fw F Unit) (fun _ => Cycles) OnCycle :=
  Triple.bind begin_cycling fun _ => Keeps.times tick_cycling n

/-- The duty cycle of the radio, for every behaviour of modem and broker.  Between two rounds a
    flag of the session is set only in the states Publish, Listen and Disconnect.  A `connect()`
    that fails has cleared both flags.  After one that succeeds, the radio is started or connected
    again only after a `disconnect()`, and `publishInfo` and `publishTelemetry` are called
    exactly once each before it. -/
theorem radio_cycle (eeprom : Nat → U8) (latch : Bool) (start : Nat) (tape : List Env) (n : Nat) :
    let run := firmware (F := F) n (Sys.powerUp eeprom latch start tape)
    let modem := run.2.board.radio.modem
    let log := run.2.log.reverse
    (run.1 = some () → modem.registered = true ∨ modem.tcpConnected = true →
      run.2.board.fsm.state = .publish ∨ run.2.board.fsm.state = .listen ∨
        run.2.board.fsm.state = .disconnect) ∧
    (∀ x ∈ log, x.1 = .radioConnected false →
      x.2.radio.modem.registered = false ∧ x.2.radio.modem.tcpConnected = false) ∧
    (∀ before session after b x,
      log = before ++ (.radioConnected true, b) :: (session ++ x :: after) →
      x.1 = .radioBegin ∨ x.1 = .radioConnect → ∃ y ∈ session, y.1 = .radioDisconnect) ∧
    ∀ before session after b b',
      log = before ++ (.radioConnected true, b) :: (session ++ (.radioDisconnect, b') :: after) →
      (∀ y ∈ session, y.1 ≠ .radioDisconnect) →
      session.countP (fun y => y.1.isInfo) = 1 ∧
        session.countP (fun y => y.1.isTelemetry) = 1 := by
  intro run modem log
  have hwp := firmware_cycling (F := F) n (Sys.powerUp eeprom latch start tape)
    ⟨rfl, rfl, rfl⟩
  have hcycle : OnCycle run.2 :=
    wp_snd (wp_mono (fun _ _ ⟨st, h⟩ => ⟨_, h.toInPhase⟩) (fun _ h => h) hwp)
  obtain ⟨p, hp⟩ := hcycle
  have hdisconnect : ∀ ev : Event F, ev ≠ .radioDisconnect → ev.isDisconnect = false := by
    intro ev hev
    cases ev <;> first | rfl | exact absurd rfl hev
  -- the phase right after a successful `connect()`, and the one that the session has come to
  have hsession : ∀ before session after b x,
      log = before ++ (.radioConnected true, b) :: (session ++ x :: after) →
      (∀ y ∈ session, y.1 ≠ .radioDisconnect) → ∃ q r : Phase, q ≠ .down ∧
        q.infos = session.countP (fun y => y.1.isInfo) ∧
        q.reports = session.countP (fun y => y.1.isTelemetry) ∧ q.after x.1 = some r := by
    intro before session after b x hlog hopen
    have hscan : Phase.down.scan log = some p := hp.scanned
    rw [hlog] at hscan
    obtain ⟨p₁, -, hscan⟩ := Phase.scan_split hscan
    obtain ⟨p₂, hopened, hscan⟩ := Phase.scan_cons hscan
    have hp₂ : p₂ = .opened := Phase.after_connected hopened
    subst hp₂
    obtain ⟨q, hq, hscan⟩ := Phase.scan_split hscan
    obtain ⟨r, hr, -⟩ := Phase.scan_cons hscan
    obtain ⟨hne, hinfos, hreports⟩ := Phase.scan_session (by decide)
      (fun y hy => hdisconnect y.1 (hopen y hy)) hq
    refine ⟨q, r, hne, ?_, ?_, hr⟩
    · rw [hinfos]
      exact Nat.zero_add _
    · rw [hreports]
      exact Nat.zero_add _
  refine ⟨fun hrun hflag => ?_, fun x hx => hp.failed x (List.mem_reverse.1 hx), ?_, ?_⟩
  · have hfin : firmware n (Sys.powerUp eeprom latch start tape) = (some (), run.2) :=
      Prod.ext hrun rfl
    obtain ⟨st, h⟩ := wp_finished (m := firmware n) hwp hfin
    have htorn : st.phase ≠ .down := by
      intro hphase
      obtain ⟨hreg, htcp⟩ := h.torn hphase
      rcases hflag with hflag | hflag
      · exact absurd (hreg.symm.trans hflag) Bool.false_ne_true
      · exact absurd (htcp.symm.trans hflag) Bool.false_ne_true
    rw [h.state]
    cases st <;> first | exact absurd rfl htorn | simp
  · intro before session after b x hlog hx
    by_contra hnone
    have hopen : ∀ y ∈ session, y.1 ≠ .radioDisconnect := fun y hy hev => hnone ⟨y, hy, hev⟩
    obtain ⟨q, r, hne, -, -, hr⟩ := hsession before session after b x hlog hopen
    exact hne (Phase.after_offline hx hr)
  · intro before session after b b' hlog hopen
    obtain ⟨q, r, hne, hinfos, hreports, hr⟩ := hsession before session after b _ hlog hopen
    rw [← hinfos, ← hreports, Phase.after_disconnect hr]
    exact ⟨rfl, rfl⟩

end WaterboxFsm

end Waterbox
