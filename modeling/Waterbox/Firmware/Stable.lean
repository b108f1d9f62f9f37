import Waterbox.Firmware.WaterboxFsm

namespace Waterbox

/-!
# What the radio leaves alone

An invariant about metering, valve or storage does not look at the modem, and the modem code
does not touch metering, valve or storage.  The structures of this file say the first once for
an invariant, the lemmas say the second once for every function of the radio.

* `PortStable I` — `I` survives the passing of time, MQTT packets, and changes of the radio that
  leave the modem as it is.
* `CommandStable I` — also AT commands.
* `ModemStable I` — also exchanges that raise no flag of the modem's session.
* `NetworkStable I` — also the registration in the network.
* `RadioStable I` — also the opening of a session.
-/

open Cut

variable {F : Type} {I C : Sys F → Prop}

/-- The system after an event has been recorded. -/
def Sys.logged (s : Sys F) (ev : Event F) : Sys F := { s with log := (ev, s.board) :: s.log }

/-- The system with another radio. -/
def Sys.withRadio (s : Sys F) (r : GsmMqttClient) : Sys F :=
  { s with board := { s.board with radio := r } }

/-- The system `ms` milliseconds later. -/
def Sys.later (s : Sys F) (ms : Nat) : Sys F :=
  { s with board := { s.board with time := s.board.time + ms } }

/-- `I` survives the passing of time, packets other than PUBLISH, and every change of the radio
    that leaves the modem alone. -/
structure PortStable (I : Sys F → Prop) : Prop where
  after : ∀ s e rest, s.tape = e :: rest → I s → I (s.after e rest)
  later : ∀ s ms, I s → I (s.later ms)
  radio : ∀ s r, r.modem = s.board.radio.modem → I s → I (s.withRadio r)
  packet : ∀ s, I s → I (s.logged .mqttWrite)

/-- `I` survives AT commands. -/
structure CommandStable (I : Sys F → Prop) : Prop extends PortStable I where
  command : ∀ s c, I s → I (s.logged (.atCommand c))

/-- `I` survives exchanges with the modem that neither register it nor open a session. -/
structure ModemStable (I : Sys F → Prop) : Prop extends CommandStable I where
  lowered : ∀ s r, (r.modem.registered = true → s.board.radio.modem.registered = true) →
    (r.modem.tcpConnected = true → s.board.radio.modem.tcpConnected = true) → I s →
    I (s.withRadio r)

/-- `I` survives exchanges with the modem that do not open a session. -/
structure NetworkStable (I : Sys F → Prop) : Prop extends ModemStable I where
  registered : ∀ s r, (r.modem.tcpConnected = true → s.board.radio.modem.tcpConnected = true) →
    I s → I (s.withRadio r)

/-- `I` survives whatever the radio does. -/
structure RadioStable (I : Sys F → Prop) : Prop extends NetworkStable I where
  opened : ∀ s r, I s → I (s.withRadio r)

/-- Two invariants hold together. -/
theorem ModemStable.and {J : Sys F → Prop} (hI : ModemStable I) (hJ : ModemStable J) :
    ModemStable fun s => I s ∧ J s where
  after s e rest htape h := ⟨hI.after s e rest htape h.1, hJ.after s e rest htape h.2⟩
  later s ms h := ⟨hI.later s ms h.1, hJ.later s ms h.2⟩
  radio s r hr h := ⟨hI.radio s r hr h.1, hJ.radio s r hr h.2⟩
  packet s h := ⟨hI.packet s h.1, hJ.packet s h.2⟩
  command s c h := ⟨hI.command s c h.1, hJ.command s c h.2⟩
  lowered s r hreg htcp h := ⟨hI.lowered s r hreg htcp h.1, hJ.lowered s r hreg htcp h.2⟩

/-! ### Primitive steps -/

/-- Looking at the board changes nothing. -/
theorem look_keeps {α : Type} (f : Board F → α) : Keeps I C (look f) := Keeps.read _

/-- An event is recorded next to the board as it is. -/
theorem emit_keeps {ev : Event F} (h : ∀ s, I s → I (s.logged ev)) : Keeps I C (emit ev) :=
  Keeps.update h

/-- A write to members of the board; neither the tape nor the log moves. -/
theorem change_keeps {f : Board F → Board F} (h : ∀ s, I s → I { s with board := f s.board }) :
    Keeps I C (change f) := Keeps.update h

/-- One step of the environment; the power may fail instead, where the tape has ended. -/
theorem next_keeps (hC : ∀ s, I s → C s)
    (h : ∀ s e rest, s.tape = e :: rest → I s → I (s.after e rest)) :
    Keeps I C (next : Fw F Env) := by
  intro s hs
  simp only [wp, next]
  cases htape : s.tape with
  | nil => exact hC s hs
  | cons e rest => exact h s e rest htape hs

/-- A place at which interrupts come. -/
theorem preempt_keeps (hC : ∀ s, I s → C s)
    (h : ∀ s e rest, s.tape = e :: rest → I s → I (s.after e rest)) :
    Keeps I C (preempt : Fw F Unit) :=
  Keeps.bind (next_keeps hC h) fun _ => Keeps.pure _

/-- A reading of the clock, before which interrupts come. -/
theorem millis_keeps (hC : ∀ s, I s → C s)
    (h : ∀ s e rest, s.tape = e :: rest → I s → I (s.after e rest)) :
    Keeps I C (millis : Fw F U32) :=
  Keeps.bind (next_keeps hC h) fun _ => look_keeps _

/-- The reading is that of the moment. -/
theorem millis_triple (hC : ∀ s, I s → C s)
    (h : ∀ s e rest, s.tape = e :: rest → I s → I (s.after e rest)) :
    Triple I (millis : Fw F U32) (fun now s => I s ∧ now = BitVec.ofNat 32 s.board.time) C :=
  Triple.bind (next_keeps hC h) fun _ _ hs => ⟨hs, rfl⟩

/-- A wait: interrupts come before it, and then the time passes. -/
theorem delay_keeps (hC : ∀ s, I s → C s)
    (h : ∀ s e rest, s.tape = e :: rest → I s → I (s.after e rest)) (ms : Nat)
    (hl : ∀ s, I s → I (s.later ms)) : Keeps I C (delay ms : Fw F Unit) :=
  Keeps.bind (next_keeps hC h) fun _ => change_keeps hl

/-- A loop that the code leaves by a `return` only: its body keeps `I`. -/
theorem forever_keeps {α : Type} {body : Fw F (Option α)} (hC : ∀ s, I s → C s)
    (h : Keeps I C body) : Keeps I C (forever body) := Keeps.repeatUntil h hC

/-! ### The serial port -/

section Port

variable (hI : PortStable I) (hC : ∀ s, I s → C s)
include hI

/-- The members of the MQTT client are not those of the modem. -/
theorem PubSubClient.set_keeps (f : PubSubClient → PubSubClient) :
    Keeps I C (PubSubClient.set f : Fw F Unit) := change_keeps fun s hs => hI.radio s _ rfl hs

/-- The members of the radio but its modem. -/
theorem GsmMqttClient.set_keeps (f : GsmMqttClient → GsmMqttClient)
    (hf : ∀ c, (f c).modem = c.modem) : Keeps I C (GsmMqttClient.set f : Fw F Unit) :=
  change_keeps fun s hs => hI.radio s _ (hf _) hs

include hC

/-- A step of the environment, for any invariant of the port. -/
theorem PortStable.next : Keeps I C (next : Fw F Env) := next_keeps hC hI.after

/-- A reading of the clock. -/
theorem PortStable.millis : Keeps I C (millis : Fw F U32) := millis_keeps hC hI.after

/-- A wait. -/
theorem PortStable.delay (ms : Nat) : Keeps I C (delay ms : Fw F Unit) :=
  delay_keeps hC hI.after ms fun s hs => hI.later s ms hs

namespace PubSubClient

omit hI hC in
/-- Whether the packet has been written is what `write` returns. -/
theorem write_triple {Q : Bool → Sys F → Prop} (hQ : ∀ ok, PortStable (Q ok))
    (hC : ∀ ok s, Q ok s → C s) {ev : Event F} (hev : ∀ s, Q false s → Q true (s.logged ev)) :
    Triple (Q false) (write ev : Fw F Bool) Q C := by
  refine Triple.bind ((hQ false).next (hC false)) fun e => ?_
  refine Triple.bind (Q := fun _ => Q e.written) ?_ fun _ => ?_
  · cases e.written with
    | true => exact hev
    | false => exact fun _ hs => hs
  · refine Triple.bind ((hQ _).millis (hC _)) fun _ => ?_
    exact Triple.bind (set_keeps (hQ _) _) fun _ _ hs => hs

/-- A packet that is written, or not. -/
theorem write_keeps {ev : Event F} (hev : ∀ s, I s → I (s.logged ev)) :
    Keeps I C (write ev : Fw F Bool) :=
  write_triple (Q := fun _ => I) (fun _ => hI) (fun _ => hC) hev

/-- The wait for the answer to CONNECT: only the clock and the port are asked. -/
theorem awaitReply_keeps : Keeps I C (awaitReply : Fw F Bool) := by
  refine forever_keeps hC ?_
  refine Keeps.bind (hI.next hC) fun _ => Keeps.ite (Keeps.pure _) ?_
  refine Keeps.bind (hI.millis hC) fun _ => Keeps.bind (look_keeps _) fun _ => ?_
  exact Keeps.ite (Keeps.pure _) (Keeps.pure _)

/-- A packet is taken from the port; what is done with it comes later. -/
theorem readPacket_keeps : Keeps I C (readPacket : Fw F (Option Packet)) := by
  refine Keeps.bind (hI.next hC) fun e => ?_
  cases e.packet with
  | none => exact Keeps.pure _
  | some p => exact Keeps.pure _

end PubSubClient

end Port

/-! ### AT commands -/

section Command

variable (hI : CommandStable I) (hC : ∀ s, I s → C s)
include hI hC

namespace Sim800

/-- One AT command with its answer: 100 ms and a step of the environment. -/
theorem atCommand_keeps (c : CString) : Keeps I C (atCommand c : Fw F Env) := by
  refine Keeps.bind (emit_keeps fun s hs => hI.command s c hs) fun _ => ?_
  exact Keeps.bind (hI.delay hC 100) fun _ => hI.next hC

/-- Several of them, up to the first that fails. -/
theorem atCommands_keeps (cs : List CString) : Keeps I C (atCommands cs : Fw F Bool) := by
  induction cs with
  | nil => exact Keeps.pure _
  | cons c cs ih =>
    exact Keeps.bind (atCommand_keeps hI hC c) fun _ => Keeps.ite ih (Keeps.pure _)

/-- The clock of the modem is asked by an AT command. -/
theorem rtcGet_keeps : Keeps I C (rtcGet : Fw F (Option DateTime)) :=
  Keeps.bind (atCommand_keeps hI hC _) fun _ => Keeps.ite (Keeps.pure _) (Keeps.pure _)

/-- What `stop()` does after it has dropped the session. -/
theorem close_keeps : Keeps I C (do
    let _ ← transparentEscape
    let _ ← atCommand "+CIPCLOSE=0".toList
    pure () : Fw F Unit) := by
  have hescape : Keeps I C (transparentEscape : Fw F Bool) := by
    refine Keeps.bind (hI.delay hC _) fun _ => ?_
    refine Keeps.bind (emit_keeps fun s hs => hI.command s _ hs) fun _ => ?_
    refine Keeps.bind (hI.delay hC _) fun _ => ?_
    exact Keeps.bind (atCommand_keeps hI hC _) fun _ => Keeps.pure _
  refine Keeps.bind hescape fun _ => ?_
  exact Keeps.bind (atCommand_keeps hI hC _) fun _ => Keeps.pure _

/-- `TCPstop()` clears both flags of the session before it sends anything. -/
theorem tcpStop_triple {P : Sys F → Prop}
    (h : ∀ s, P s → I (s.withRadio { s.board.radio with modem :=
      { s.board.radio.modem with registered := false, tcpConnected := false } })) :
    Triple P (tcpStop : Fw F Bool) (fun _ => I) C := by
  refine Triple.bind (Q := fun _ => I) h fun _ => ?_
  refine Keeps.bind (atCommand_keeps hI hC _) fun _ => Keeps.ite ?_ (Keeps.pure _)
  refine Keeps.bind (atCommand_keeps hI hC _) fun _ => Keeps.ite (Keeps.pure _) ?_
  exact Keeps.bind (atCommand_keeps hI hC _) fun _ => Keeps.pure _

end Sim800

namespace GsmMqttClient

/-- A timestamp asks the clock of the modem. -/
theorem formatTimestamp_keeps (n : Nat) : Keeps I C (formatTimestamp n : Fw F CString) :=
  Keeps.bind (Sim800.rtcGet_keeps hI hC) fun _ => Keeps.pure _

/-- So does the hour of the day. -/
theorem hourOfDay_keeps [CFloat F] : Keeps I C (hourOfDay : Fw F (Option F)) := by
  refine Keeps.bind (Sim800.rtcGet_keeps hI hC) fun t => ?_
  cases t <;> exact Keeps.pure _

end GsmMqttClient

end Command

/-! ### The modem -/

section Modem

variable (hI : ModemStable I) (hC : ∀ s, I s → C s)
include hI

/-- Members of the modem, where no flag of its session is raised. -/
theorem Sim800.set_keeps (f : Sim800 → Sim800)
    (hreg : ∀ m, (f m).registered = true → m.registered = true)
    (htcp : ∀ m, (f m).tcpConnected = true → m.tcpConnected = true) :
    Keeps I C (Sim800.set f : Fw F Unit) :=
  change_keeps fun s hs => hI.lowered s _ (hreg _) (htcp _) hs

include hC

namespace Sim800

/-- The power key, and the time the modem takes. -/
theorem switchOn_keeps : Keeps I C (switchOn : Fw F Unit) := by
  refine Keeps.bind (look_keeps _) fun _ => Keeps.ite (Keeps.pure _) ?_
  exact Keeps.bind (hI.delay hC _) fun _ => set_keeps hI _ (fun _ h => h) fun _ h => h

/-- One try at the rate the modem adapts to. -/
theorem initOnceAutobaud_keeps : Keeps I C (initOnceAutobaud : Fw F Bool) := by
  refine Keeps.bind (atCommand_keeps hI.toCommandStable hC _) fun _ => Keeps.ite ?_ (Keeps.pure _)
  exact Keeps.bind (set_keeps hI _ (fun _ h => h) fun _ h => h) fun _ => Keeps.pure _

/-- The tries one after the other, with a pause between them. -/
theorem autobaudTries_keeps (n : Nat) : Keeps I C (autobaudTries n : Fw F Bool) := by
  induction n with
  | zero => exact Keeps.pure _
  | succ n ih =>
    refine Keeps.bind (initOnceAutobaud_keeps hI hC) fun _ => Keeps.ite (Keeps.pure _) ?_
    exact Keeps.bind (hI.delay hC _) fun _ => ih

/-- The fixed rates in turn; a command that is not answered leads to the next rate. -/
theorem fixbaudTries_keeps (rates : List Nat) : Keeps I C (fixbaudTries rates : Fw F Bool) := by
  induction rates with
  | nil => exact Keeps.bind (set_keeps hI _ (fun _ h => h) fun _ h => h) fun _ => Keeps.pure _
  | cons rate rates ih =>
    refine Keeps.bind (atCommand_keeps hI.toCommandStable hC _) fun _ => Keeps.ite ?_ ih
    refine Keeps.bind (atCommand_keeps hI.toCommandStable hC _) fun _ => Keeps.ite ?_ ih
    refine Keeps.bind (atCommands_keeps hI.toCommandStable hC _) fun _ =>
      Keeps.ite ?_ (Keeps.pure _)
    exact Keeps.bind (set_keeps hI _ (fun _ h => h) fun _ h => h) fun _ => Keeps.pure _

/-- `init()` clears the flags first, so whatever it sets afterwards raises none. -/
theorem init_keeps : Keeps I C (init : Fw F Bool) := by
  refine Keeps.bind (switchOn_keeps hI hC) fun _ => ?_
  refine Keeps.bind (hI.delay hC _) fun _ => ?_
  refine Keeps.bind (Keeps.bind ?_ fun _ => autobaudTries_keeps hI hC 3) fun _ => ?_
  · exact set_keeps hI _ (fun _ h => nomatch h) fun _ h => nomatch h
  exact Keeps.ite (Keeps.pure _) (fixbaudTries_keeps hI hC _)

/-- The registration in the network is asked for every second. -/
theorem waitRegistration_keeps (n : Nat) : Keeps I C (waitRegistration n : Fw F Bool) := by
  induction n with
  | zero => exact Keeps.pure _
  | succ n ih =>
    refine Keeps.bind (atCommand_keeps hI.toCommandStable hC _) fun _ => Keeps.ite ?_ (Keeps.pure _)
    refine Keeps.ite (Keeps.pure _) ?_
    exact Keeps.bind (hI.delay hC _) fun _ => ih

/-- The settings of a modem that has been initialised, and the registration. -/
theorem setup_keeps : Keeps I C (setup : Fw F Bool) := by
  refine Keeps.bind (look_keeps _) fun _ => Keeps.ite ?_ (Keeps.pure _)
  refine Keeps.bind (atCommands_keeps hI.toCommandStable hC _) fun _ => Keeps.ite ?_ (Keeps.pure _)
  exact waitRegistration_keeps hI hC _

/-- The IMEI is asked by one command. -/
theorem getImei_keeps : Keeps I C (getImei : Fw F (CString × Bool)) := by
  refine Keeps.bind (look_keeps _) fun _ => Keeps.ite ?_ (Keeps.pure _)
  exact Keeps.bind (atCommand_keeps hI.toCommandStable hC _) fun _ =>
    Keeps.ite (Keeps.pure _) (Keeps.pure _)

/-- The quality of the signal is asked by one command. -/
theorem getSignalQualityReport_keeps :
    Keeps I C (getSignalQualityReport : Fw F (Option Int)) := by
  refine Keeps.bind (look_keeps _) fun _ => Keeps.ite ?_ (Keeps.pure _)
  exact Keeps.bind (atCommand_keeps hI.toCommandStable hC _) fun _ =>
    Keeps.ite (Keeps.pure _) (Keeps.pure _)

omit hI hC in
/-- The network is entered: `registered` is raised at the end. -/
theorem tcpStart_keeps (hI : NetworkStable I) (hC : ∀ s, I s → C s) (apn user pwd : CString) :
    Keeps I C (tcpStart apn user pwd : Fw F Bool) := by
  have hattach : Keeps I C (attachGprs : Fw F Bool) := by
    refine Keeps.bind (atCommand_keeps hI.toCommandStable hC _) fun _ => Keeps.ite (Keeps.pure _) ?_
    exact Keeps.bind (atCommand_keeps hI.toCommandStable hC _) fun _ => Keeps.pure _
  have hip : Keeps I C (tcpGetMyIp : Fw F Bool) := by
    refine Keeps.bind (emit_keeps fun s hs => hI.command s _ hs) fun _ => ?_
    exact Keeps.bind (hI.next hC) fun _ => Keeps.pure _
  refine Keeps.bind hattach fun _ => Keeps.ite ?_ (Keeps.pure _)
  refine Keeps.bind (atCommands_keeps hI.toCommandStable hC _) fun _ => Keeps.ite ?_ (Keeps.pure _)
  refine Keeps.bind hip fun _ => Keeps.ite ?_ (Keeps.pure _)
  exact Keeps.bind (change_keeps fun s hs => hI.registered s _ id hs) fun _ => Keeps.pure _

/-- Both flags are cleared, whatever the modem answers. -/
theorem tcpStop_keeps : Keeps I C (tcpStop : Fw F Bool) :=
  tcpStop_triple hI.toCommandStable hC fun s hs =>
    hI.lowered s _ (fun h => nomatch h) (fun h => nomatch h) hs

omit hI hC in
/-- A session is opened: `tcpConnected` is raised at the end. -/
theorem tcpConnect_keeps (hI : RadioStable I) (hC : ∀ s, I s → C s) (server : CString)
    (port : Nat) :
    Keeps I C (tcpConnect server port : Fw F Bool) := by
  refine Keeps.bind (look_keeps _) fun _ => Keeps.ite ?_ (Keeps.pure _)
  refine Keeps.bind (atCommand_keeps hI.toCommandStable hC _) fun _ => Keeps.ite ?_ (Keeps.pure _)
  refine Keeps.bind (hI.next hC) fun _ => Keeps.ite ?_ (Keeps.pure _)
  exact Keeps.bind (change_keeps fun s hs => hI.opened s _ hs) fun _ => Keeps.pure _

/-- `stop()` clears `tcpConnected` before it sends anything. -/
theorem stop_keeps : Keeps I C (stop : Fw F Unit) :=
  Keeps.bind (set_keeps hI _ (fun _ h => h) fun _ h => nomatch h) fun _ =>
    close_keeps hI.toCommandStable hC

end Sim800

/-! ### The MQTT client -/

namespace PubSubClient

/-- `connected()` stops a session that the modem has lost. -/
theorem connected_keeps : Keeps I C (connected : Fw F Bool) := by
  refine Keeps.bind (look_keeps _) fun _ => Keeps.ite (Keeps.pure _) ?_
  refine Keeps.ite ?_ (Keeps.pure _)
  refine Keeps.bind (set_keeps hI.toPortStable _) fun _ => ?_
  exact Keeps.bind (Sim800.stop_keeps hI hC) fun _ => Keeps.pure _

omit hI hC in
/-- A session with the broker.  Every way out but the last goes through `stop()` or raises nothing.
    -/
theorem connect_keeps (hI : RadioStable I) (hC : ∀ s, I s → C s) (server : CString) (port : Nat) :
    Keeps I C (connect server port : Fw F Bool) := by
  have hstop : ∀ b : Bool, Keeps I C (do Sim800.stop; pure b : Fw F Bool) := fun _ =>
    Keeps.bind (Sim800.stop_keeps hI.toModemStable hC) fun _ => Keeps.pure _
  have hfail : ∀ f, Keeps I C (do PubSubClient.set f; Sim800.stop; pure false : Fw F Bool) :=
    fun _ => Keeps.bind (set_keeps hI.toPortStable _) fun _ => hstop _
  refine Keeps.bind (connected_keeps hI.toModemStable hC) fun _ => Keeps.ite (Keeps.pure _) ?_
  refine Keeps.bind (Sim800.tcpConnect_keeps hI hC _ _) fun _ => Keeps.ite ?_ ?_
  · refine Keeps.bind (set_keeps hI.toPortStable _) fun _ => ?_
    refine Keeps.bind (write_keeps hI.toPortStable hC hI.packet) fun _ => ?_
    refine Keeps.bind (hI.millis hC) fun _ => ?_
    refine Keeps.bind (set_keeps hI.toPortStable _) fun _ => ?_
    refine Keeps.bind (awaitReply_keeps hI.toPortStable hC) fun _ => Keeps.ite ?_ (hfail _)
    refine Keeps.bind (readPacket_keeps hI.toPortStable hC) fun r => ?_
    cases r with
    | none => exact hstop _
    | some p =>
      refine Keeps.ite (Keeps.ite ?_ (hfail _)) (hstop _)
      refine Keeps.bind (hI.millis hC) fun _ => ?_
      exact Keeps.bind (set_keeps hI.toPortStable _) fun _ => Keeps.pure _
  · exact Keeps.bind (set_keeps hI.toPortStable _) fun _ => Keeps.pure _

omit hI hC in
/-- Whether the record has been published is what `publish` returns. -/
theorem publish_triple {Q : Bool → Sys F → Prop} (hQ : ∀ ok, ModemStable (Q ok))
    (hC : ∀ ok s, Q ok s → C s) {topic payload : CString}
    (hev : ∀ s, Q false s → Q true (s.logged (.published topic payload))) :
    Triple (Q false) (publish topic payload : Fw F Bool) Q C := by
  have hfailed : Triple (Q false) (pure false : Fw F Bool) Q C := fun _ hs => hs
  refine Triple.bind (connected_keeps (hQ _) (hC _)) fun _ =>
    Triple.ite (fun _ => ?_) fun _ => hfailed
  exact Triple.ite (fun _ => hfailed) fun _ =>
    write_triple (fun ok => (hQ ok).toPortStable) hC hev

/-- A record is handed to `write` where there is a session. -/
theorem publish_keeps {topic payload : CString}
    (hev : ∀ s, I s → I (s.logged (.published topic payload))) :
    Keeps I C (publish topic payload : Fw F Bool) :=
  publish_triple (Q := fun _ => I) (fun _ => hI) (fun _ => hC) hev

/-- A SUBSCRIBE packet, where there is a session. -/
theorem subscribe_keeps (topic : CString) : Keeps I C (subscribe topic : Fw F Bool) := by
  refine Keeps.ite (Keeps.pure _) ?_
  refine Keeps.bind (connected_keeps hI hC) fun _ => Keeps.ite ?_ (Keeps.pure _)
  exact Keeps.bind (set_keeps hI.toPortStable _) fun _ => write_keeps hI.toPortStable hC hI.packet

/-- A DISCONNECT packet, and the end of the TCP session. -/
theorem disconnect_keeps : Keeps I C (disconnect : Fw F Unit) := by
  refine Keeps.bind (hI.next hC) fun _ => Keeps.bind (emit_keeps hI.packet) fun _ => ?_
  refine Keeps.bind (set_keeps hI.toPortStable _) fun _ => ?_
  refine Keeps.bind (Sim800.stop_keeps hI hC) fun _ => ?_
  exact Keeps.bind (hI.millis hC) fun _ => set_keeps hI.toPortStable _

/-- A packet that has come, with the call of the callback where it is a PUBLISH. -/
theorem poll_keeps {callback : CString → CString → Fw F Unit}
    (hcall : ∀ topic payload, Keeps I C (callback topic payload)) (t : U32) :
    Keeps I C (poll callback t : Fw F Bool) := by
  have hreceive : ∀ p, Keeps I C (receive callback t p) := by
    intro p
    cases p with
    | publish qos1 topic payload =>
      refine Keeps.bind (hcall _ _) fun _ => Keeps.ite ?_ (Keeps.pure _)
      refine Keeps.bind (hI.next hC) fun _ => Keeps.bind (emit_keeps hI.packet) fun _ => ?_
      exact set_keeps hI.toPortStable _
    | pingreq => exact Keeps.bind (hI.next hC) fun _ => emit_keeps hI.packet
    | pingresp =>
      simp only [receive]
      exact set_keeps hI.toPortStable _
    | connack code => exact Keeps.pure _
    | other len byte => exact Keeps.pure _
  refine Keeps.bind (hI.next hC) fun _ => Keeps.ite ?_ (Keeps.pure _)
  refine Keeps.bind (readPacket_keeps hI.toPortStable hC) fun r => ?_
  cases r with
  | none => exact Keeps.pure _
  | some p =>
    refine Keeps.bind (set_keeps hI.toPortStable _) fun _ => ?_
    exact Keeps.bind (hreceive p) fun _ => Keeps.pure _

/-- The keep-alive, or a packet that has come. -/
theorem loop_keeps {callback : CString → CString → Fw F Unit}
    (hcall : ∀ topic payload, Keeps I C (callback topic payload)) :
    Keeps I C (loop callback : Fw F Bool) := by
  refine Keeps.bind (connected_keeps hI hC) fun _ => Keeps.ite ?_ (Keeps.pure _)
  refine Keeps.bind (hI.millis hC) fun _ => Keeps.bind (look_keeps _) fun _ => ?_
  refine Keeps.ite (Keeps.ite ?_ ?_) (poll_keeps hI hC hcall _)
  · refine Keeps.bind (set_keeps hI.toPortStable _) fun _ => ?_
    exact Keeps.bind (Sim800.stop_keeps hI hC) fun _ => Keeps.pure _
  · refine Keeps.bind (hI.next hC) fun _ => Keeps.bind (emit_keeps hI.packet) fun _ => ?_
    exact Keeps.bind (set_keeps hI.toPortStable _) fun _ => poll_keeps hI hC hcall _

end PubSubClient

/-! ### The radio -/

namespace GsmMqttClient

/-- Every function the radio calls back preserves the invariant. -/
structure Handlers.Keep (I C : Sys F → Prop) (h : Handlers F) : Prop where
  yield : Keeps I C h.yield
  command : ∀ cmd, Keeps I C (h.command cmd)
  fingerprint : ∀ params, Keeps I C (h.fingerprint params)

/-- The radio waits in calls of `yield`. -/
theorem wait_keeps {h : Handlers F} (hy : Keeps I C h.yield) (ms : U32) :
    Keeps I C (wait h ms) := by
  refine Keeps.bind (hI.millis hC) fun _ => forever_keeps hC ?_
  refine Keeps.bind (hI.millis hC) fun _ => Keeps.ite ?_ (Keeps.pure _)
  exact Keeps.bind hy fun _ => Keeps.pure _

omit hI hC in
/-- Without credentials no session is tried. -/
theorem mqttConnect_keeps (hI : RadioStable I) (hC : ∀ s, I s → C s) :
    Keeps I C (mqttConnect : Fw F Bool) :=
  Keeps.ite (PubSubClient.connect_keeps hI hC _ _) (Keeps.pure _)

/-- The modem is initialised in some tries, between which `yield` is called. -/
theorem begin_keeps {h : Handlers F} (hy : Keeps I C h.yield) : Keeps I C (begin h) := by
  have htries : ∀ n, Keeps I C (initTries h n) := by
    intro n
    induction n with
    | zero => exact Keeps.pure _
    | succ n ih =>
      refine Keeps.bind hy fun _ => Keeps.bind (Sim800.init_keeps hI hC) fun _ => ?_
      exact Keeps.ite (Keeps.pure _) (Keeps.bind (wait_keeps hI hC hy _) fun _ => ih)
  refine Keeps.bind (htries _) fun _ => Keeps.bind (look_keeps _) fun _ => ?_
  refine Keeps.ite ?_ (Keeps.pure _)
  refine Keeps.bind (Sim800.stop_keeps hI hC) fun _ => ?_
  refine Keeps.bind (Sim800.tcpStop_keeps hI hC) fun _ => ?_
  refine Keeps.bind (Sim800.getImei_keeps hI hC) fun r => Keeps.ite ?_ ?_
  · refine Keeps.bind (set_keeps hI.toPortStable _ fun _ => rfl) fun _ => ?_
    exact Keeps.bind (Sim800.setup_keeps hI hC) fun _ => Keeps.pure _
  · exact Keeps.bind (set_keeps hI.toPortStable _ fun _ => rfl) fun _ => Keeps.pure _

omit hI hC in
/-- The network, then the broker, in some tries.  What fails is stopped before the next try. -/
theorem connect_keeps {h : Handlers F} (hI : RadioStable I) (hC : ∀ s, I s → C s)
    (hy : Keeps I C h.yield) : Keeps I C (connect h) := by
  have htries : ∀ n, Keeps I C (connectTries h n) := by
    intro n
    induction n with
    | zero => exact Keeps.pure _
    | succ n ih =>
      have hagain : Keeps I C (do
          let _ ← Sim800.tcpStop
          wait h Settings.radioRetryDelayMs
          connectTries h n) :=
        Keeps.bind (Sim800.tcpStop_keeps hI.toModemStable hC) fun _ =>
          Keeps.bind (wait_keeps hI.toModemStable hC hy _) fun _ => ih
      refine Keeps.bind hy fun _ => ?_
      refine Keeps.bind (Sim800.tcpStart_keeps hI.toNetworkStable hC _ _ _) fun _ =>
        Keeps.ite ?_ hagain
      refine Keeps.bind hy fun _ => ?_
      refine Keeps.bind (Sim800.getSignalQualityReport_keeps hI.toModemStable hC) fun _ => ?_
      refine Keeps.bind (set_keeps hI.toPortStable _ fun _ => rfl) fun _ => ?_
      refine Keeps.bind (mqttConnect_keeps hI hC) fun _ => Keeps.ite ?_ ?_
      · refine Keeps.bind (look_keeps _) fun _ => ?_
        refine Keeps.bind (PubSubClient.subscribe_keeps hI.toModemStable hC _) fun _ => ?_
        exact Keeps.bind (PubSubClient.subscribe_keeps hI.toModemStable hC _) fun _ => Keeps.pure _
      · exact Keeps.bind (Sim800.stop_keeps hI.toModemStable hC) fun _ => hagain
  exact Keeps.ite (htries _) (Keeps.pure _)

/-- The session with the broker and the network are left. -/
theorem disconnect_keeps : Keeps I C (disconnect : Fw F Unit) := by
  refine Keeps.bind (PubSubClient.connected_keeps hI hC) fun _ => Keeps.bind ?_ fun _ => ?_
  · exact Keeps.when (PubSubClient.disconnect_keeps hI hC)
  · refine Keeps.bind (Sim800.stop_keeps hI hC) fun _ => ?_
    exact Keeps.bind (Sim800.tcpStop_keeps hI hC) fun _ => Keeps.pure _

/-- A message that has come goes to the handler of its topic, if it can be read. -/
theorem loop_keeps [CFloat F] {h : Handlers F} (hh : h.Keep I C) : Keeps I C (loop h) := by
  refine PubSubClient.loop_keeps hI hC fun topic payload => ?_
  refine Keeps.bind (look_keeps _) fun radio => Keeps.ite ?_ ?_
  · cases parseFingerprint (F := F) (copyMsg (strip payload)) with
    | none => exact Keeps.pure _
    | some params => exact hh.fingerprint params
  refine Keeps.ite ?_ (Keeps.pure _)
  · cases parseCommand (F := F) (strip payload) with
    | none => exact Keeps.pure _
    | on => exact hh.command .on
    | off => exact hh.command .off

end GsmMqttClient

end Modem

end Waterbox
