import Waterbox.Firmware.Rounds
import Waterbox.Firmware.Single

namespace Waterbox

/-!
# AT commands and the TCP session

The session turns the modem's port into a transparent pipe to the broker, and an AT command then
goes to the broker and throws away what the broker sent.  `stop()` and `tcpStop()` drop the
session before their commands; up to the end of `connect()` every command is sent without a
session.  The Publish state then asks the modem for the time.

* `Closed st`, `Live st` — no command was sent in a session so far, and no session is open; or
  one is.
* `GsmMqttClient.connect_opened` — a session is open exactly where `connect()` succeeds.
* `tick_between` — a round that does not begin in the Publish state sends no command in a session.
* `tick_spoils` — a round that does, sends one.
* `WaterboxFsm.session_quiet_iff` — both, for whole runs.
-/

open Cut

variable {F : Type}

/-- Every AT command so far was sent without a session. -/
def LogQuiet (s : Sys F) : Prop :=
  ∀ x ∈ s.log, ∀ c, x.1 = .atCommand c → x.2.radio.modem.tcpConnected = false

/-- No command was sent in a session, and the FSM is in the state `st`. -/
structure Quiet (st : State) (s : Sys F) : Prop where
  log : LogQuiet s
  state : s.board.fsm.state = st

/-- Also no session is open. -/
structure Closed (st : State) (s : Sys F) : Prop extends Quiet st s where
  shut : s.board.radio.modem.tcpConnected = false

/-- Also a session is open. -/
structure Live (st : State) (s : Sys F) : Prop extends Quiet st s where
  live : s.board.radio.modem.tcpConnected = true

/-- After an attempt to open a session. -/
def Opened (st : State) : Bool → Sys F → Prop
  | true => Live st
  | false => Closed st

/-- A command was sent in a session. -/
def Spoilt (s : Sys F) : Prop :=
  ∃ x ∈ s.log, (∃ c, x.1 = .atCommand c) ∧ x.2.radio.modem.tcpConnected = true

/-- A session is open, in which a command may have been sent. -/
def LiveOrSpoilt (st : State) (s : Sys F) : Prop := Live st s ∨ Spoilt s

variable {st : State}

/-- An event that is no AT command, or one without a session. -/
theorem LogQuiet.logged {s : Sys F} (h : LogQuiet s) {ev : Event F}
    (hev : ∀ c, ev = .atCommand c → s.board.radio.modem.tcpConnected = false) :
    LogQuiet (s.logged ev) := by
  intro x hx
  rcases List.mem_cons.1 hx with rfl | hx
  · exact hev
  · exact h x hx

/-- A log that has such a command keeps it. -/
theorem Spoilt.logged {s : Sys F} (h : Spoilt s) (ev : Event F) : Spoilt (s.logged ev) := by
  obtain ⟨x, hx, hspoilt⟩ := h
  exact ⟨x, List.mem_cons_of_mem _ hx, hspoilt⟩

/-- A command in a session spoils it. -/
theorem Live.spoilt {s : Sys F} (h : Live st s) (c : CString) :
    Spoilt (s.logged (.atCommand c)) :=
  ⟨_, List.mem_cons_self, ⟨c, rfl⟩, h.live⟩

/-- Events besides AT commands. -/
theorem Quiet.logged {s : Sys F} (h : Quiet st s) {ev : Event F} (hev : ∀ c, ev ≠ .atCommand c) :
    Quiet st (s.logged ev) := ⟨h.log.logged fun c hc => absurd hc (hev c), h.state⟩

/-- Neither time nor packets nor the members of the radio count. -/
theorem Quiet.portStable : PortStable (F := F) (Quiet st) where
  after _ _ _ _ h := ⟨h.log, (congrArg WaterboxFsm.state (Board.after_fsm _ _)).trans h.state⟩
  later _ _ h := ⟨h.log, h.state⟩
  radio _ _ _ h := ⟨h.log, h.state⟩
  packet _ h := h.logged fun _ hc => nomatch hc

/-- Where no session is open any event may come. -/
theorem Closed.logged {s : Sys F} (h : Closed st s) (ev : Event F) : Closed st (s.logged ev) :=
  ⟨⟨h.log.logged fun _ _ => h.shut, h.state⟩, h.shut⟩

/-- The port does not open a session. -/
theorem Closed.portStable : PortStable (F := F) (Closed st) where
  after s e rest htape h := ⟨Quiet.portStable.after s e rest htape h.toQuiet,
    (congrArg (fun r => r.modem.tcpConnected) (Board.after_radio _ _)).trans h.shut⟩
  later _ _ h := ⟨⟨h.log, h.state⟩, h.shut⟩
  radio _ _ hr h := ⟨⟨h.log, h.state⟩, (congrArg Sim800.tcpConnected hr).trans h.shut⟩
  packet _ h := h.logged _

/-- Where no session is open, a change that opens none leaves none open. -/
theorem Closed.lowered {s : Sys F} {r : GsmMqttClient} (h : Closed st s)
    (hr : r.modem.tcpConnected = true → s.board.radio.modem.tcpConnected = true) :
    Closed st (s.withRadio r) := by
  refine ⟨⟨h.log, h.state⟩, ?_⟩
  show r.modem.tcpConnected = false
  cases hopen : r.modem.tcpConnected with
  | false => rfl
  | true =>
    rw [h.shut] at hr
    exact absurd (hr hopen) Bool.false_ne_true

/-- The registration opens no session. -/
theorem Closed.networkStable : NetworkStable (F := F) (Closed st) where
  toPortStable := Closed.portStable
  command _ _ h := h.logged _
  lowered _ _ _ hr h := h.lowered hr
  registered _ _ hr h := h.lowered hr

/-- Nor do the other exchanges with the modem. -/
theorem Closed.modemStable : ModemStable (F := F) (Closed st) :=
  Closed.networkStable.toModemStable

/-- `service()` leaves modem and state alone. -/
theorem Closed.serviceStable : ServiceStable (F := F) (Closed st) where
  toCommandStable := Closed.modemStable.toCommandStable
  fsm _ _ hf h := ⟨⟨h.log, hf.trans h.state⟩, h.shut⟩
  led _ _ h := ⟨⟨h.log, h.state⟩, h.shut⟩

/-- So do the objects it works on. -/
theorem Closed.deviceStable : DeviceStable (F := F) (Closed st) where
  flow _ _ h := ⟨⟨h.log, h.state⟩, h.shut⟩
  valve _ _ _ h := ⟨⟨h.log, h.state⟩, h.shut⟩
  store _ _ h := ⟨⟨h.log, h.state⟩, h.shut⟩
  eeprom _ _ h := ⟨⟨h.log, h.state⟩, h.shut⟩
  signature _ _ h := ⟨⟨h.log, h.state⟩, h.shut⟩
  own _ _ _ h := h.logged _

/-- The port does not close a session. -/
theorem Live.portStable : PortStable (F := F) (Live st) where
  after s e rest htape h := ⟨Quiet.portStable.after s e rest htape h.toQuiet,
    (congrArg (fun r => r.modem.tcpConnected) (Board.after_radio _ _)).trans h.live⟩
  later _ _ h := ⟨⟨h.log, h.state⟩, h.live⟩
  radio _ _ hr h := ⟨⟨h.log, h.state⟩, (congrArg Sim800.tcpConnected hr).trans h.live⟩
  packet _ h := ⟨h.toQuiet.logged (fun _ hc => nomatch hc), h.live⟩

/-- A command that was sent stays sent, whatever follows. -/
theorem Spoilt.fsmStable : FsmStable (F := F) Spoilt :=
  .of_unseen (fun _ _ _ _ h => h) (fun _ _ h => h) (fun _ _ h => h) (fun _ _ h => h)
    (fun _ _ h => h) fun _ ev _ h => h.logged ev

/-- Also whatever the other objects do. -/
theorem Spoilt.deviceStable : DeviceStable (F := F) Spoilt where
  flow _ _ h := h
  valve _ _ _ h := h
  store _ _ h := h
  eeprom _ _ h := h
  signature _ _ h := h
  own _ _ _ h := h.logged _

/-- A command in the session leads from the one to the other. -/
theorem LiveOrSpoilt.logged {s : Sys F} (h : LiveOrSpoilt st s) (ev : Event F) :
    LiveOrSpoilt st (s.logged ev) := by
  rcases h with h | h
  · cases ev with
    | atCommand c => exact .inr (h.spoilt c)
    | _ => exact .inl ⟨h.toQuiet.logged (fun _ hc => nomatch hc), h.live⟩
  · exact .inr (h.logged ev)

/-- `service()` may ask the modem for the time, which spoils the session. -/
theorem LiveOrSpoilt.serviceStable : ServiceStable (F := F) (LiveOrSpoilt st) where
  after s e rest htape := Or.imp (Live.portStable.after s e rest htape) id
  later s ms := Or.imp (Live.portStable.later s ms) id
  radio s r hr := Or.imp (Live.portStable.radio s r hr) id
  packet _ h := h.logged _
  command _ _ h := h.logged _
  fsm _ _ hf := Or.imp (fun h => ⟨⟨h.log, hf.trans h.state⟩, h.live⟩) id
  led _ _ := Or.imp (fun h => ⟨⟨h.log, h.state⟩, h.live⟩) id

/-- Only log, FSM and radio count. -/
theorem LiveOrSpoilt.frame {s t : Sys F} (hlog : t.log = s.log)
    (hfsm : t.board.fsm = s.board.fsm) (hradio : t.board.radio = s.board.radio)
    (h : LiveOrSpoilt st s) : LiveOrSpoilt st t := by
  rcases h with h | h
  · refine .inl ⟨⟨?_, ?_⟩, ?_⟩
    · unfold LogQuiet
      rw [hlog]
      exact h.log
    · rw [hfsm, h.state]
    · rw [hradio, h.live]
  · refine .inr ?_
    unfold Spoilt
    rw [hlog]
    exact h

/-- None of them is the other objects' to change. -/
theorem LiveOrSpoilt.deviceStable : DeviceStable (F := F) (LiveOrSpoilt st) where
  flow _ _ := LiveOrSpoilt.frame rfl rfl rfl
  valve _ _ _ := LiveOrSpoilt.frame rfl rfl rfl
  store _ _ := LiveOrSpoilt.frame rfl rfl rfl
  eeprom _ _ := LiveOrSpoilt.frame rfl rfl rfl
  signature _ _ := LiveOrSpoilt.frame rfl rfl rfl
  own _ _ _ h := h.logged _

/-- The power may fail there without a command in a session. -/
theorem Closed.logQuiet (s : Sys F) (h : Closed st s) : LogQuiet s := h.log

/-- There as well. -/
theorem Live.logQuiet (s : Sys F) (h : Live st s) : LogQuiet s := h.log

/-! ### Opening and dropping the session -/

/-- `stop()` drops the session before it sends a command. -/
theorem Sim800.stop_closed :
    Triple (Quiet st) (stop : Fw F Unit) (fun _ => Closed st) LogQuiet := by
  refine Triple.bind (Q := fun _ => Closed st) (fun s h => ⟨⟨h.log, h.state⟩, rfl⟩) fun _ => ?_
  exact close_keeps Closed.modemStable.toCommandStable Closed.logQuiet

/-- The commands of `TCPconnect()` come before the session that they open. -/
theorem Sim800.tcpConnect_opened (server : CString) (port : Nat) :
    Triple (Closed st) (tcpConnect server port : Fw F Bool) (Opened st) LogQuiet := by
  have hfail : Triple (Closed st) (pure false : Fw F Bool) (Opened st) LogQuiet := fun _ h => h
  refine Triple.bind (Q := fun _ => Closed st) (look_keeps _) fun _ => Triple.ite (fun _ => ?_)
    fun _ => hfail
  refine Triple.bind (atCommand_keeps Closed.modemStable.toCommandStable Closed.logQuiet _)
    fun _ => Triple.ite (fun _ => ?_) fun _ => hfail
  refine Triple.bind (Closed.portStable.next Closed.logQuiet) fun _ =>
    Triple.ite (fun _ => ?_) fun _ => hfail
  exact fun s h => ⟨⟨h.log, h.state⟩, rfl⟩

namespace PubSubClient

/-- `connected()` without a session. -/
theorem connected_closed :
    Triple (Closed st) (connected : Fw F Bool) (fun up s => up = false ∧ Closed st s) LogQuiet := by
  refine look_bind fun b => Triple.ite (fun hup => ?_) fun _ => Triple.ite (fun _ => ?_) fun _ => ?_
  · rintro s ⟨h, rfl⟩
    rw [h.shut] at hup
    cases hup
  · refine Triple.bind (Q := fun _ => Closed st) ?_ fun _ => ?_
    · rintro s ⟨h, -⟩
      exact set_keeps (C := LogQuiet) Closed.portStable _ s h
    · exact Triple.bind (Sim800.stop_keeps Closed.modemStable Closed.logQuiet) fun _ s h => ⟨rfl, h⟩
  · exact fun s h => ⟨rfl, h.1⟩

/-- `connected()` in a session leaves it open. -/
theorem connected_live : Keeps (Live st) LogQuiet (connected : Fw F Bool) := by
  refine look_bind fun b => Triple.ite (fun _ s h => h.1) fun hup => ?_
  rintro s ⟨h, rfl⟩
  exact absurd h.live hup

/-- `connect()` of the MQTT client: where it fails it has dropped the session. -/
theorem connect_opened (server : CString) (port : Nat) :
    Triple (Closed st) (connect server port : Fw F Bool) (Opened st) LogQuiet := by
  have hP : PortStable (F := F) (Live st) := Live.portStable
  have hstop : Triple (Live st) (do Sim800.stop; pure false : Fw F Bool) (Opened st) LogQuiet :=
    Triple.bind (Sim800.stop_closed.conseq (fun _ h => h.toQuiet) (fun _ _ h => h) fun _ h => h)
      fun _ _ h => h
  have hfail : ∀ f, Triple (Live st) (do PubSubClient.set f; Sim800.stop; pure false : Fw F Bool)
      (Opened st) LogQuiet := fun _ => Triple.bind (set_keeps hP _) fun _ => hstop
  refine Triple.bind connected_closed fun up => Triple.ite (fun hup => ?_) fun _ => ?_
  · rintro s ⟨rfl, -⟩
    cases hup
  refine Triple.bind (Q := Opened st) (fun s h => Sim800.tcpConnect_opened server port s h.2)
    fun ok => ?_
  cases ok with
  | true =>
    -- the session is open: only MQTT packets from here on
    refine Triple.bind (set_keeps hP _) fun _ => ?_
    refine Triple.bind (write_keeps hP Live.logQuiet hP.packet) fun _ => ?_
    refine Triple.bind (hP.millis Live.logQuiet) fun _ => ?_
    refine Triple.bind (set_keeps hP _) fun _ => ?_
    refine Triple.bind (awaitReply_keeps hP Live.logQuiet) fun _ =>
      Triple.ite (fun _ => ?_) fun _ => hfail _
    refine Triple.bind (readPacket_keeps hP Live.logQuiet) fun r => ?_
    cases r with
    | none => exact hstop
    | some p =>
      refine Triple.ite (fun _ => Triple.ite (fun _ => ?_) fun _ => hfail _) fun _ => hstop
      refine Triple.bind (hP.millis Live.logQuiet) fun _ => ?_
      exact Triple.bind (set_keeps hP _) fun _ _ h => h
  | false => exact Triple.bind (set_keeps Closed.portStable _) fun _ _ h => h

/-- `subscribe()` in a session. -/
theorem subscribe_live (topic : CString) :
    Keeps (Live st) LogQuiet (subscribe topic : Fw F Bool) := by
  refine Keeps.ite (Keeps.pure _) (Keeps.bind connected_live fun _ => ?_)
  refine Keeps.ite (Keeps.bind (set_keeps Live.portStable _) fun _ => ?_) (Keeps.pure _)
  exact write_keeps Live.portStable Live.logQuiet Live.portStable.packet

/-- `publish()` in a session. -/
theorem publish_liveOrSpoilt (topic payload : CString) :
    Keeps (LiveOrSpoilt st) (fun _ => True) (publish topic payload : Fw F Bool) := by
  have hI : ServiceStable (F := F) (LiveOrSpoilt st) := LiveOrSpoilt.serviceStable
  have hconnected : Keeps (LiveOrSpoilt st) (fun _ => True) (connected : Fw F Bool) := by
    rintro s (h | h)
    · exact wp_mono (fun _ _ h => .inl h) (fun _ _ => trivial) (connected_live s h)
    · exact wp_mono (fun _ _ h => .inr h) (fun _ h => h)
        (connected_keeps Spoilt.fsmStable.toModemStable (fun _ _ => trivial) s h)
  refine Keeps.bind hconnected fun _ => Keeps.ite (Keeps.ite (Keeps.pure _) ?_) (Keeps.pure _)
  exact write_keeps hI.toPortStable (fun _ _ => trivial) fun _ h => h.logged _

end PubSubClient

namespace GsmMqttClient

variable {h : Handlers F}

/-- The tries of `connect()`: each ends with a session, or without one and with the next. -/
theorem connectTries_opened (hy : Keeps (Closed st) LogQuiet h.yield) (n : Nat) :
    Triple (Closed st) (connectTries h n) (Opened st) LogQuiet := by
  have hM : ModemStable (F := F) (Closed st) := Closed.modemStable
  induction n with
  | zero => exact fun _ h => h
  | succ n ih =>
    -- a try that fails leaves the connection closed, and the next one begins
    have hagain : Triple (Closed st) (do
        let _ ← Sim800.tcpStop
        wait h Settings.radioRetryDelayMs
        connectTries h n) (Opened st) LogQuiet :=
      Triple.bind (Sim800.tcpStop_keeps hM Closed.logQuiet) fun _ =>
        Triple.bind (wait_keeps hM Closed.logQuiet hy _) fun _ => ih
    refine Triple.bind hy fun _ => ?_
    refine Triple.bind (Sim800.tcpStart_keeps Closed.networkStable Closed.logQuiet _ _ _) fun _ =>
      Triple.ite (fun _ => ?_) fun _ => hagain
    refine Triple.bind hy fun _ => ?_
    refine Triple.bind (Sim800.getSignalQualityReport_keeps hM Closed.logQuiet) fun _ => ?_
    refine Triple.bind (set_keeps hM.toPortStable _ fun _ => rfl) fun _ => ?_
    have hmqtt : Triple (Closed st) (mqttConnect : Fw F Bool) (Opened st) LogQuiet :=
      Triple.ite (fun _ => PubSubClient.connect_opened _ _) fun _ _ h => h
    refine Triple.bind hmqtt fun ok => ?_
    cases ok with
    | true =>
      refine Triple.bind (Q := fun _ => Live st) (look_keeps _) fun radio => ?_
      refine Triple.bind (PubSubClient.subscribe_live _) fun _ => ?_
      exact Triple.bind (PubSubClient.subscribe_live _) fun _ _ h => h
    | false => exact Triple.bind (Sim800.stop_keeps hM Closed.logQuiet) fun _ => hagain

/-- A session is open after `connect()` exactly where it succeeded. -/
theorem connect_opened (hy : Keeps (Closed st) LogQuiet h.yield) :
    Triple (Closed st) (connect h) (Opened st) LogQuiet :=
  Triple.ite (fun _ => connectTries_opened hy _) fun _ _ h => h

end GsmMqttClient

/-! ### The FSM -/

namespace WaterboxFsm

variable [CFloat F]

/-- Without a session `service()` may ask for the time. -/
theorem service_closed : Keeps (Closed st) LogQuiet (service : Fw F Unit) :=
  (Kept.of_stable Closed.serviceStable.verdictStable Closed.logQuiet Closed.deviceStable).service

/-- In one it may as well, and spoil it. -/
theorem service_liveOrSpoilt : Keeps (LiveOrSpoilt st) (fun _ => True) (service : Fw F Unit) :=
  (Kept.of_stable LiveOrSpoilt.serviceStable.verdictStable
    (fun _ _ => trivial) LiveOrSpoilt.deviceStable).service

/-! ### A command once sent in a session stays in the log -/

omit [CFloat F] in
/-- A save does not take back what was sent. -/
theorem persistNow_spoilt : Keeps Spoilt (fun _ => True) (persistNow : Fw F Unit) :=
  persistNow_stable Spoilt.fsmStable.toPortStable (fun _ _ => trivial) Spoilt.deviceStable

/-- Nor do the functions that the radio calls back. -/
theorem kept_spoilt : Kept (F := F) Spoilt fun _ => True :=
  Kept.of_stable Spoilt.fsmStable.toServiceStable.verdictStable
    (fun _ _ => trivial) Spoilt.deviceStable

omit [CFloat F] in
/-- Nor do the records. -/
theorem reported_spoilt : Reported (F := F) Spoilt where
  telemetry _ h := h.logged _
  info _ h := h.logged _
  heartbeat _ _ h := h.logged _
  published _ _ _ h := h.logged _

/-- Nor does Publish. -/
theorem tickPublish_spoilt (now : U32) :
    Keeps Spoilt (fun _ => True) (tickPublish now : Fw F Unit) :=
  tickPublish_keeps Spoilt.fsmStable (fun _ _ => trivial) reported_spoilt persistNow_spoilt now

/-- Nor does any other round. -/
theorem tick_spoilt : Keeps Spoilt (fun _ => True) (tick : Fw F Unit) :=
  tick_keeps Spoilt.fsmStable (fun _ _ => trivial) kept_spoilt tickPublish_spoilt

/-! ### The Publish state -/

omit [CFloat F] in
/-- The info record needs no timestamp. -/
theorem publishInfo_liveOrSpoilt :
    Keeps (LiveOrSpoilt st) (fun _ => True) (publishInfo : Fw F Bool) := by
  refine Keeps.bind (look_keeps _) fun b =>
    Keeps.bind (emit_keeps fun _ h => h.logged _) fun _ => ?_
  exact Keeps.bind (look_keeps _) fun _ => PubSubClient.publish_liveOrSpoilt _ _

/-- The timestamp of a telemetry record is asked for in the session. -/
theorem publishTelemetry_spoils :
    Triple (LiveOrSpoilt st) (publishTelemetry : Fw F Bool) (fun _ => Spoilt) (fun _ => True) := by
  have hR := Spoilt.fsmStable (F := F)
  refine Triple.bind (Q := fun _ => LiveOrSpoilt st) (look_keeps _) fun b => ?_
  refine Triple.bind (Q := fun _ => LiveOrSpoilt st) (emit_keeps fun _ h => h.logged _) fun _ => ?_
  have hrtc : Triple (LiveOrSpoilt st) (Sim800.rtcGet : Fw F (Option DateTime)) (fun _ => Spoilt)
      (fun _ => True) := by
    refine Triple.bind (Q := fun _ => Spoilt) (Triple.bind (Q := fun _ => Spoilt) ?_ fun _ => ?_)
      fun _ => Triple.ite (fun _ _ h => h) fun _ _ h => h
    · rintro s (h | h)
      · exact h.spoilt _
      · exact h.logged _
    · exact Keeps.bind (hR.delay (fun _ _ => trivial) 100) fun _ => hR.next fun _ _ => trivial
  refine Triple.bind (Q := fun _ => Spoilt) (Triple.bind hrtc fun _ _ h => h) fun ts => ?_
  refine Triple.bind (Q := fun _ => Spoilt) (look_keeps _) fun radio => ?_
  exact PubSubClient.publish_keeps hR.toModemStable (fun _ _ => trivial) fun _ h => h.logged _

/-- Publish publishes telemetry in any case, and so asks for the time. -/
theorem tickPublish_spoils (now : U32) :
    Triple (LiveOrSpoilt st) (tickPublish now : Fw F Unit) (fun _ => Spoilt) (fun _ => True) := by
  have hR := Spoilt.fsmStable (F := F)
  refine Triple.bind publishInfo_liveOrSpoilt fun _ => ?_
  refine Triple.bind publishTelemetry_spoils fun _ => ?_
  refine Triple.bind (Q := fun _ => Spoilt) (Keeps.when persistNow_spoilt) fun _ => ?_
  refine Keeps.bind (heartbeatIfDue_keeps hR.toModemStable (fun _ _ => trivial)
    reported_spoilt.published hR.toServiceStable reported_spoilt.heartbeat now) fun _ => ?_
  refine Keeps.bind (hR.millis fun _ _ => trivial) fun _ => ?_
  exact Keeps.bind (set_keeps hR.toServiceStable _ fun _ => rfl) fun _ => enter_keeps hR _

/-- A round that begins in the Publish state with the session open. -/
theorem tick_spoils :
    Triple (LiveOrSpoilt .publish) (tick : Fw F Unit) (fun _ => Spoilt) (fun _ => True) := by
  have hI : ServiceStable (F := F) (LiveOrSpoilt .publish) := LiveOrSpoilt.serviceStable
  refine Triple.bind service_liveOrSpoilt fun _ => ?_
  refine Triple.bind (hI.millis fun _ _ => trivial) fun now => look_bind fun b => ?_
  rintro s ⟨h | h, rfl⟩
  · rw [h.state]
    exact tickPublish_spoils now s (.inl h)
  · exact step_keeps Spoilt.fsmStable (fun _ _ => trivial) kept_spoilt tickPublish_spoilt now _ s h

/-! ### The other states -/

/-- The states the FSM is in before its first session. -/
def State.isOffline : State → Bool
  | .haltAuth | .waitModem | .idle | .connect => true
  | _ => false

/-- Between two rounds: no session is open, or the next round begins in the Publish state. -/
def Between (s : Sys F) : Prop :=
  Live .publish s ∨ ∃ st, State.isOffline st = true ∧ Closed st s

omit [CFloat F] in
/-- Between two rounds the power may fail. -/
theorem Between.logQuiet (s : Sys F) (h : Between s) : LogQuiet s := by
  obtain h | ⟨st, -, h⟩ := h
  · exact h.log
  · exact h.log

omit [CFloat F] in
/-- Such a state is entered without a session. -/
theorem enter_offline (st next : State) (hnext : State.isOffline next = true) :
    Triple (Closed st) (enter next : Fw F Unit) (fun _ => Between) LogQuiet := by
  refine Triple.conseq (enter_triple next (I := Closed st) (C := LogQuiet)
    (fun _ h => h.logged _) ?_)
    (fun _ h => h) (fun _ s h => .inr ⟨next, hnext, h⟩) (fun _ h => h)
  exact fun s h => ⟨⟨h.log, rfl⟩, h.shut⟩

omit [CFloat F] in
/-- Or the FSM stays in it. -/
theorem stay_offline (st : State) (hst : State.isOffline st = true) :
    Triple (Closed st) (pure () : Fw F Unit) (fun _ => Between) LogQuiet :=
  fun _ h => .inr ⟨st, hst, h⟩

/-- The rounds without a session; the one of Connect may end with one, in Publish. -/
theorem step_between (now : U32) (st : State) (hst : State.isOffline st = true) :
    Triple (Closed st) (step now st : Fw F Unit) (fun _ => Between) LogQuiet := by
  have hI : ServiceStable (F := F) (Closed st) := Closed.serviceStable
  have hnote : ∀ ev : Event F, Keeps (Closed st) LogQuiet (emit ev) := fun ev =>
    emit_keeps fun _ h => h.logged ev
  have hset : ∀ f : WaterboxFsm F → WaterboxFsm F, (∀ fsm, (f fsm).state = fsm.state) →
      Keeps (Closed st) LogQuiet (set f) := fun f hf => set_keeps hI f hf
  cases st with
  | haltAuth => exact stay_offline _ hst
  | waitModem =>
    refine Triple.bind (look_keeps _) fun _ => Triple.ite (fun _ => ?_) fun _ => stay_offline _ hst
    refine Triple.bind (hset _ fun _ => rfl) fun _ => Triple.bind (hnote _) fun _ => ?_
    refine Triple.bind (GsmMqttClient.begin_keeps Closed.modemStable Closed.logQuiet service_closed)
      fun ok => Triple.bind (hnote _) fun _ => ?_
    refine Triple.ite (fun _ => ?_) fun _ => stay_offline _ hst
    exact Triple.bind (hset _ fun _ => rfl) fun _ => enter_offline _ .idle rfl
  | idle =>
    exact Triple.bind (look_keeps _) fun _ =>
      Triple.ite (fun _ => enter_offline _ .connect rfl) fun _ => stay_offline _ hst
  | connect =>
    refine Triple.bind (hnote _) fun _ => ?_
    refine Triple.bind (GsmMqttClient.connect_opened service_closed) fun ok => ?_
    cases ok with
    | true =>
      -- the only way to the Publish state, and the session is open
      refine Triple.bind (Q := fun _ => Live .connect) ?_ fun _ => ?_
      · exact fun s h => ⟨h.toQuiet.logged (fun _ hc => nomatch hc), h.live⟩
      refine Triple.bind (Q := fun _ => Live .publish)
        (fun s h => ⟨⟨h.log, rfl⟩, h.live⟩) fun _ => ?_
      exact fun s h => .inl ⟨h.toQuiet.logged (fun _ hc => nomatch hc), h.live⟩
    | false =>
      refine Triple.bind (hnote _) fun _ => ?_
      exact Triple.bind (hset _ fun _ => rfl) fun _ => enter_offline _ .idle rfl
  | publish => cases hst
  | listen => cases hst
  | disconnect => cases hst

/-- A round that does not begin in the Publish state. -/
theorem tick_between : Triple (fun s => Between s ∧ s.board.fsm.state ≠ .publish)
    (tick : Fw F Unit) (fun _ => Between) LogQuiet := by
  rintro s ⟨hlive | ⟨st, hst, h⟩, hne⟩
  · exact absurd hlive.state hne
  refine Triple.bind service_closed (fun _ => ?_) s h
  refine Triple.bind (Closed.portStable.millis Closed.logQuiet) fun now => ?_
  refine look_bind fun b => ?_
  rintro t ⟨h, rfl⟩
  rw [h.state]
  exact step_between now st hst t h

/-- `begin()` sends no command. -/
theorem begin_between : Triple (fun s : Sys F => LogQuiet s ∧
    s.board.radio.modem.tcpConnected = false) (begin : Fw F Unit) (fun _ => Between) LogQuiet := by
  refine begin_cleared ?_
  let I (s : Sys F) : Prop := LogQuiet s ∧ s.board.radio.modem.tcpConnected = false
  have hrestore : Keeps I LogQuiet (restore : Fw F Unit) := by
    refine restore_keeps (fun _ h => h.1) (fun _ _ _ _ h => ⟨h.1, ?_⟩) (fun _ _ h => h)
      (fun _ _ _ h => h) (fun _ _ h => h) (fun _ h => h) (fun _ _ h => h) (fun _ _ h => h)
    exact (congrArg (fun r => r.modem.tcpConnected) (Board.after_radio _ _)).trans h.2
  refine Triple.bind (Q := fun _ => I) (hrestore.conseq ?_ (fun _ _ h => h) (fun _ h => h))
    fun _ => ?_
  · rintro _ ⟨s₀, h, rfl⟩
    exact h
  have henter : ∀ st, Triple I (enter st : Fw F Unit) (fun _ => Closed st) LogQuiet := fun st =>
    enter_triple st (fun _ h => h.logged _) fun s h => ⟨⟨h.1, rfl⟩, h.2⟩
  refine Triple.ite (fun _ => ?_) fun _ => ?_
  · refine Triple.bind (henter .waitModem) fun _ => ?_
    refine Triple.bind (Closed.portStable.millis Closed.logQuiet) fun now => ?_
    exact fun s h => .inr ⟨.waitModem, rfl, ⟨h.log, h.state⟩, h.shut⟩
  · exact (henter .haltAuth).conseq (fun _ h => h) (fun _ _ h => .inr ⟨.haltAuth, rfl, h⟩)
      (fun _ h => h)

/-! ### Runs -/

/-- After a power-up no session is open. -/
theorem begin_powerUp (eeprom : Nat → U8) (latch : Bool) (start : Nat) (tape : List Env) :
    wp (begin (F := F)) (fun _ => Between) LogQuiet (Sys.powerUp eeprom latch start tape) :=
  begin_between _ ⟨(fun _ hx => nomatch hx), rfl⟩

/-- A round that begins in the Publish state, or after the session was spoilt. -/
theorem tick_either : Keeps (fun s => Between s ∨ Spoilt s) (fun _ => True) (tick : Fw F Unit) := by
  have hspoilt : ∀ s : Sys F, Spoilt s →
      wp tick (fun _ s => Between s ∨ Spoilt s) (fun _ => True) s :=
    fun s h => wp_mono (fun _ _ h => .inr h) (fun _ h => h) (tick_spoilt s h)
  rintro s (h | h)
  · by_cases hst : s.board.fsm.state = .publish
    · obtain h | ⟨st, hoff, h⟩ := h
      · exact wp_mono (fun _ _ h => .inr h) (fun _ h => h) (tick_spoils s (.inl h))
      · rw [← h.state, hst] at hoff
        cases hoff
    · exact wp_mono (fun _ _ h => .inl h) (fun _ _ => trivial) (tick_between s ⟨h, hst⟩)
  · exact hspoilt s h

/-- The last of some rounds. -/
theorem firmware_last {n : Nat} {s t : Sys F} (h : firmware (n + 1) s = (some (), t)) :
    ∃ u, firmware n s = (some (), u) ∧ tick u = (some (), t) := by
  obtain ⟨_, u, hbegin, hticks⟩ := bind_finished h
  obtain ⟨v, hv, hlast⟩ := times_last hticks
  refine ⟨v, ?_, hlast⟩
  simp only [firmware, bind, hbegin, hv]

/-- No AT command is sent in a session in any run of which no round begins in the Publish state;
    and the first round that begins there and comes to its end has sent one. -/
theorem session_quiet_iff (eeprom : Nat → U8) (latch : Bool) (start : Nat) (tape : List Env) :
    (∀ n, (∀ k < n, ∀ s, firmware k (Sys.powerUp (F := F) eeprom latch start tape) = (some (), s) →
        s.board.fsm.state ≠ .publish) →
      ∀ x ∈ (firmware n (Sys.powerUp (F := F) eeprom latch start tape)).2.log,
        ∀ c, x.1 = .atCommand c → x.2.radio.modem.tcpConnected = false) ∧
    ∀ k s t, firmware k (Sys.powerUp (F := F) eeprom latch start tape) = (some (), s) →
      s.board.fsm.state = .publish →
      firmware (k + 1) (Sys.powerUp (F := F) eeprom latch start tape) = (some (), t) →
      ∃ x ∈ t.log, (∃ c, x.1 = .atCommand c) ∧ x.2.radio.modem.tcpConnected = true := by
  have hbegin := begin_powerUp (F := F) eeprom latch start tape
  refine ⟨fun n hpublish => ?_, fun k s t hs hst ht => ?_⟩
  · -- rounds in the other states keep `Between`
    refine wp_snd (I := LogQuiet) (m := firmware n) (wp_bind.2 ?_)
    simp only [wp] at hbegin ⊢
    cases hrun : begin (Sys.powerUp (F := F) eeprom latch start tape) with
    | mk r s₁ =>
      simp only [hrun] at hbegin ⊢
      cases r with
      | none => exact hbegin
      | some u =>
        refine wp_mono (fun _ => Between.logQuiet) (fun _ h => h)
          (wp_times_guarded tick_between n s₁ hbegin fun k hk s hs => hpublish k hk s ?_)
        simp only [firmware, bind, hrun, hs]
  · -- the round that publishes spoils the log
    obtain ⟨u, hu, htick⟩ := firmware_last ht
    cases hs.symm.trans hu
    have hboth : wp (firmware k) (fun _ s => Between s ∨ Spoilt s) (fun _ => True)
        (Sys.powerUp (F := F) eeprom latch start tape) :=
      wp_bind.2 (wp_mono (fun _ s h => Keeps.times tick_either k s (.inl h)) (fun _ _ => trivial)
        hbegin)
    have hspoilt : wp tick (fun _ => Spoilt) (fun _ => True) s := by
      obtain (hlive | ⟨st, hoff, h⟩) | h := wp_finished (m := firmware k) hboth hs
      · exact tick_spoils s (.inl hlive)
      · rw [← h.state, hst] at hoff
        cases hoff
      · exact tick_spoilt s h
    exact wp_finished (m := tick) hspoilt htick

/-- A modem that answers, and a broker that accepts: the first three rounds lead up to the
    Publish state. -/
theorem session_quiet_boot :
    ∀ x ∈ (firmware 3 (Sys.powerUp (F := Single) blank false 0 (List.replicate 300 willing))).2.log,
      ∀ c, x.1 = .atCommand c → x.2.radio.modem.tcpConnected = false := by
  have hstate : ∀ k < 3, (firmware k
      (Sys.powerUp (F := Single) blank false 0 (List.replicate 300 willing))).2.board.fsm.state ≠
        .publish := by decide +kernel
  refine (session_quiet_iff blank false 0 (List.replicate 300 willing)).1 3 fun k hk s hs => ?_
  have hk := hstate k hk
  rw [hs] at hk
  exact hk

/-- Whether an event is the command. -/
def asksFor (command : CString) : Event Single → Bool
  | .atCommand c => c = command
  | _ => false

/-- One round later it has asked the broker for the time. -/
theorem session_not_quiet :
    ∃ x ∈ (firmware 4 (Sys.powerUp (F := Single) blank false 0 (List.replicate 300 willing))).2.log,
      x.1 = .atCommand "+CCLK?".toList ∧ x.2.radio.modem.tcpConnected = true := by
  have hany : ((firmware 4
      (Sys.powerUp (F := Single) blank false 0 (List.replicate 300 willing))).2.log.any fun x =>
      asksFor "+CCLK?".toList x.1 && x.2.radio.modem.tcpConnected) = true := by decide +kernel
  obtain ⟨⟨ev, b⟩, hx, hcond⟩ := List.any_eq_true.1 hany
  rw [Bool.and_eq_true] at hcond
  refine ⟨(ev, b), hx, ?_, hcond.2⟩
  cases ev <;> simp [asksFor] at hcond
  rw [hcond.1]
  rfl

end WaterboxFsm

end Waterbox
