import Waterbox.Firmware.Samples

namespace Waterbox

/-!
# The timer of the store

`MeterStore::saveIfDue`, which `service()` calls, writes where `EEPROM_SAVE_MS` have passed since
the last write, whoever made that one.

* `Fresh` — the write that ends the log is an interval after all others.
* `SaveRule` — what the log must look like.
* `SaveTime` — the time of the last write, or of `MeterStore::load`.
* `Saving` — the stamp is that of this time.
* `WaterboxFsm.firmware_saving` — whole runs.
-/

open Cut Clock

variable {F : Type}

def Event.isCommand : Event F → Bool
  | .atCommand _ => true
  | _ => false

def Event.isSaved : Event F → Bool
  | .saved => true
  | _ => false

/-- If the log ends with a write, but for AT commands, this write is an interval after all others
    and after the boot at `start`. -/
def Fresh (start : Nat) (log : List (Event F × Board F)) : Prop :=
  ∀ commands b older, log = commands ++ (.saved, b) :: older →
    (∀ x ∈ commands, x.1.isCommand = true) →
    start + Settings.eepromSaveMs.toNat ≤ b.time ∧
    ∀ y ∈ older, y.1 = .saved → y.2.time + Settings.eepromSaveMs.toNat ≤ b.time

/-- The writes of `service()`: after the one of `saveIfDue` there are only the AT commands of the
    clock. -/
def SaveRule (start : Nat) (x : Event F × Board F) (past : List (Event F × Board F)) : Prop :=
  ∀ since, x.1 = .serviced since → Fresh start past

section Fresh

variable {start : Nat} {log : List (Event F × Board F)} {b : Board F} {ev : Event F}

/-- An empty log does not end with a write. -/
theorem fresh_nil : Fresh (F := F) start [] := by
  intro commands b older h
  cases commands <;> cases h

/-- An AT command comes between the write and the end of `service()`. -/
theorem Fresh.command (h : Fresh start log) (c : CString) :
    Fresh start ((.atCommand c, b) :: log) := by
  intro commands b' older hlog hcommands
  cases commands with
  | nil => cases hlog
  | cons x commands =>
    cases hlog
    exact h commands b' older rfl fun y hy => hcommands y (List.mem_cons_of_mem _ hy)

/-- Any other event hides the write. -/
theorem fresh_other (hc : ev.isCommand = false) (hs : ev.isSaved = false) :
    Fresh start ((ev, b) :: log) := by
  intro commands b' older hlog hcommands
  cases commands with
  | nil =>
    cases hlog
    cases hs
  | cons x commands =>
    cases hlog
    exact absurd (hcommands _ List.mem_cons_self) (by rw [hc]; exact Bool.false_ne_true)

/-- A write an interval after all others. -/
theorem fresh_saved (hstart : start + Settings.eepromSaveMs.toNat ≤ b.time)
    (h : ∀ y ∈ log, y.1 = .saved → y.2.time + Settings.eepromSaveMs.toNat ≤ b.time) :
    Fresh start ((.saved, b) :: log) := by
  intro commands b' older hlog hcommands
  cases commands with
  | nil =>
    cases hlog
    exact ⟨hstart, h⟩
  | cons x commands =>
    cases hlog
    cases hcommands _ List.mem_cons_self

end Fresh

/-- At the time `t` the clock was read after a write, or by `MeterStore::load`. -/
def SaveTime (start t : Nat) (s : Sys F) : Prop :=
  ∃ past, ReadAt start past t s ∧ ∀ x ∈ past.head?, x.1 = .saved

/-- All writes were made at the time `t` or before. -/
structure SavedBy (start t : Nat) (s : Sys F) : Prop where
  rule : Journal.Every (SaveRule start) s.log
  last : ∀ x ∈ s.log, x.1 = .saved → x.2.time ≤ t
  booted : start ≤ t
  time : SaveTime start t s

/-- Also the store has the stamp of that time. -/
def Stored (start : Nat) (s : Sys F) : Prop :=
  ∃ t : Nat, SavedBy start t s ∧ Stamp s.board.store.lastSaveMs t

/-- Also no write of a handler or of `tick()` ends the log. -/
def Saving (start : Nat) (s : Sys F) : Prop := Stored start s ∧ Fresh start s.log

/-- The stamp of the store is a reading that was taken after a write, or by `MeterStore::load`;
    before that it is 0 and nothing is logged. -/
def SaveStamp (start : Nat) (s : Sys F) : Prop :=
  s.log = [] ∧ s.board.store.lastSaveMs = 0 ∨
    ∃ t : Nat, SaveTime start t s ∧ Stamp s.board.store.lastSaveMs t

/-- What holds wherever the power can fail. -/
def SaveLog (start : Nat) (s : Sys F) : Prop :=
  Journal.Every (SaveRule start) s.log ∧ SaveStamp start s

section Saves

variable {start : Nat} {s t : Sys F} {ev : Event F}

/-- A reading stays where it is in the log. -/
theorem SaveTime.frame {τ : Nat} (h : SaveTime start τ s) (hlog : t.log = s.log)
    (htime : s.board.time ≤ t.board.time) : SaveTime start τ t := by
  obtain ⟨past, hread, hpast⟩ := h
  exact ⟨past, hread.frame hlog htime, hpast⟩

/-- Also when an event is logged. -/
theorem SaveTime.logged {τ : Nat} (h : SaveTime start τ s) (ev : Event F) :
    SaveTime start τ (s.logged ev) := by
  obtain ⟨past, hread, hpast⟩ := h
  exact ⟨past, hread.logged ev, hpast⟩

/-- The reading is not of the future. -/
theorem SavedBy.passed {τ : Nat} (h : SavedBy start τ s) : τ ≤ s.board.time := by
  obtain ⟨past, hread, -⟩ := h.time
  exact hread.passed

/-- What logs nothing leaves the writes as they are. -/
theorem SavedBy.frame {τ : Nat} (h : SavedBy start τ s) (hlog : t.log = s.log)
    (htime : s.board.time ≤ t.board.time) : SavedBy start τ t where
  rule := hlog ▸ h.rule
  last := hlog ▸ h.last
  booted := h.booted
  time := h.time.frame hlog htime

/-- Any event but a write. -/
theorem SavedBy.logged {τ : Nat} (h : SavedBy start τ s) (hsaved : ev ≠ .saved)
    (hrule : SaveRule start (ev, s.board) s.log) : SavedBy start τ (s.logged ev) where
  rule := ⟨hrule, h.rule⟩
  last x hx hev := by
    rcases List.mem_cons.1 hx with rfl | hx
    · exact absurd hev hsaved
    · exact h.last x hx hev
  booted := h.booted
  time := h.time.logged ev

/-- The clock is read right after a write. -/
theorem SavedBy.now {τ : Nat} (h : SavedBy start τ s) {b : Board F}
    {older : List (Event F × Board F)} (hlog : s.log = (.saved, b) :: older)
    (hb : b.time ≤ s.board.time) : SavedBy start s.board.time s where
  rule := h.rule
  last x hx hev := (h.last x hx hev).trans h.passed
  booted := h.booted.trans h.passed
  time := by
    refine ⟨s.log, readAt_now ?_, fun x hx => ?_⟩
    · rw [hlog]
      exact hb
    · rw [hlog] at hx
      cases hx
      rfl

/-- Where the log and the stamp are the same, time may pass. -/
theorem Stored.frame (h : Stored start s) (hlog : t.log = s.log)
    (hsave : t.board.store.lastSaveMs = s.board.store.lastSaveMs)
    (htime : s.board.time ≤ t.board.time) : Stored start t := by
  obtain ⟨τ, hby, hstamp⟩ := h
  exact ⟨τ, hby.frame hlog htime, hsave ▸ hstamp⟩

/-- The same with no write at the end of the log. -/
theorem Saving.frame (h : Saving start s) (hlog : t.log = s.log)
    (hsave : t.board.store.lastSaveMs = s.board.store.lastSaveMs)
    (htime : s.board.time ≤ t.board.time) : Saving start t :=
  ⟨h.1.frame hlog hsave htime, hlog ▸ h.2⟩

/-- Only the end of `service()` is under the rule. -/
theorem saveRule_other {x : Event F × Board F} {past : List (Event F × Board F)}
    (h : ∀ since, x.1 ≠ .serviced since) : SaveRule start x past :=
  fun since hx => absurd hx (h since)

/-- Events that are neither writes nor ends of `service()`. -/
theorem Stored.logged (h : Stored start s) (hsaved : ev ≠ .saved)
    (hserviced : ∀ since, ev ≠ .serviced since) : Stored start (s.logged ev) := by
  obtain ⟨τ, hby, hstamp⟩ := h
  exact ⟨τ, hby.logged hsaved (saveRule_other hserviced), hstamp⟩

/-- Any event but a write, an AT command and the end of `service()` parts the last write from what
    follows. -/
theorem Stored.parted (h : Stored start s) (hc : ev.isCommand = false) (hs : ev.isSaved = false)
    (hserviced : ∀ since, ev ≠ .serviced since) : Saving start (s.logged ev) := by
  refine ⟨h.logged ?_ hserviced, fresh_other hc hs⟩
  rintro rfl
  cases hs

/-- The end of `service()`, where the last write was due. -/
theorem Saving.serviced (h : Saving start s) (since : Nat) :
    Saving start (s.logged (.serviced since)) := by
  obtain ⟨⟨τ, hby, hstamp⟩, hfresh⟩ := h
  exact ⟨⟨τ, hby.logged nofun fun _ _ => hfresh, hstamp⟩, fresh_other rfl rfl⟩

/-- Notes of the FSM are such events. -/
theorem Stored.note (h : Stored start s) (hev : ev.isNote = true) : Stored start (s.logged ev) := by
  refine h.logged ?_ fun since => ?_
  · rintro rfl
    cases hev
  · rintro rfl
    cases hev

/-- An AT command keeps the write at the end, any other note hides it. -/
theorem Saving.note (h : Saving start s) (hev : ev.isNote = true) : Saving start (s.logged ev) := by
  refine ⟨h.1.note hev, ?_⟩
  cases ev <;> first | exact h.2.command _ | exact fresh_other rfl rfl | cases hev

/-- The store's own state is more than what a power failure leaves of it. -/
theorem Stored.saveLog (s : Sys F) (h : Stored start s) : SaveLog start s := by
  obtain ⟨τ, hby, hstamp⟩ := h
  exact ⟨hby.rule, .inr ⟨τ, hby.time, hstamp⟩⟩

/-- Where log and stamp are the same, time may pass. -/
theorem SaveLog.frame (h : SaveLog start s) (hlog : t.log = s.log)
    (hsave : t.board.store.lastSaveMs = s.board.store.lastSaveMs)
    (htime : s.board.time ≤ t.board.time) : SaveLog start t := by
  obtain ⟨hrule, ⟨hnone, hzero⟩ | ⟨τ, htau, hstamp⟩⟩ := h
  · exact ⟨hlog ▸ hrule, .inl ⟨hlog.trans hnone, hsave.trans hzero⟩⟩
  · exact ⟨hlog ▸ hrule, .inr ⟨τ, htau.frame hlog htime, hsave ▸ hstamp⟩⟩

/-- The power may fail there as well. -/
theorem Saving.saveLog (s : Sys F) (h : Saving start s) : SaveLog start s := h.1.saveLog

/-- A step of the environment touches neither log nor store. -/
theorem Stored.after (s : Sys F) (e : Env) (rest : List Env) (_ : s.tape = e :: rest)
    (h : Stored start s) : Stored start (s.after e rest) :=
  h.frame rfl (congrArg MeterStore.lastSaveMs (Board.after_store _ _)) (Board.le_after_time _ _)

/-- The same with no write at the end. -/
theorem Saving.after (s : Sys F) (e : Env) (rest : List Env) (htape : s.tape = e :: rest)
    (h : Saving start s) : Saving start (s.after e rest) :=
  ⟨h.1.after s e rest htape, h.2⟩

/-- Nothing of radio, FSM and LED counts. -/
theorem Stored.fsmStable : FsmStable (F := F) (Stored start) :=
  .of_unseen Stored.after (fun _ _ h => h.frame rfl rfl (Nat.le_add_right _ _))
    (fun _ _ h => h.frame rfl rfl le_rfl) (fun _ _ h => h.frame rfl rfl le_rfl)
    (fun _ _ h => h.frame rfl rfl le_rfl) fun _ _ hev h => h.note hev

/-- The same with no write at the end. -/
theorem Saving.fsmStable : FsmStable (F := F) (Saving start) :=
  .of_unseen Saving.after (fun _ _ h => h.frame rfl rfl (Nat.le_add_right _ _))
    (fun _ _ h => h.frame rfl rfl le_rfl) (fun _ _ h => h.frame rfl rfl le_rfl)
    (fun _ _ h => h.frame rfl rfl le_rfl) fun _ _ hev h => h.note hev

end Saves

namespace WaterboxFsm

variable {start : Nat}

/-- A write of `saveIfDue`, and one that is made whether it is due or not. -/
theorem save_stored (due : Prop) (pulses : U32) (v : Bool) :
    Triple (fun s => ∃ t : Nat, SavedBy start t s ∧ Stamp s.board.store.lastSaveMs t ∧
        (due → t + Settings.eepromSaveMs.toNat ≤ s.board.time))
      (MeterStore.save pulses v : Fw F Unit)
      (fun _ s => Stored start s ∧ (due → Fresh start s.log)) (SaveLog start) := by
  let I (s : Sys F) : Prop := ∃ t : Nat, SavedBy start t s ∧ Stamp s.board.store.lastSaveMs t ∧
    (due → t + Settings.eepromSaveMs.toNat ≤ s.board.time)
  have hI : ∀ s t : Sys F, I s → t.log = s.log →
      t.board.store.lastSaveMs = s.board.store.lastSaveMs → s.board.time ≤ t.board.time → I t := by
    rintro s t ⟨τ, hby, hstamp, hdue⟩ hlog hsave htime
    exact ⟨τ, hby.frame hlog htime, hsave ▸ hstamp, fun h => (hdue h).trans htime⟩
  have hC : ∀ s : Sys F, I s → SaveLog start s := by
    rintro s ⟨τ, hby, hstamp, -⟩
    exact ⟨hby.rule, .inr ⟨τ, hby.time, hstamp⟩⟩
  refine Triple.bind (eepromPut_triple (Q := I) hC ?_ ?_ ?_) fun _ => ?_
  · exact fun s e rest _ hs =>
      hI s _ hs rfl (congrArg MeterStore.lastSaveMs (Board.after_store _ _))
        (Board.le_after_time _ _)
  · exact fun s hs => hI s _ hs rfl rfl le_rfl
  · exact fun s _ hs => hC _ (hI s _ hs rfl rfl le_rfl)
  refine Triple.bind (Q := fun _ => I) (fun s hs => hI s _ hs rfl rfl le_rfl) fun _ => ?_
  -- the write counts from here on, its stamp follows
  let Written (s : Sys F) : Prop := SaveLog start s ∧
    (∃ b older, s.log = (.saved, b) :: older ∧ b.time ≤ s.board.time) ∧
    (∃ t : Nat, SavedBy start t s) ∧ (due → Fresh start s.log)
  refine Triple.bind (Q := fun _ => Written) ?_ fun _ => ?_
  · rintro s ⟨τ, hby, hstamp, hdue⟩
    have hrule : Journal.Every (SaveRule start) (s.logged .saved).log :=
      ⟨saveRule_other nofun, hby.rule⟩
    refine ⟨⟨hrule, .inr ⟨τ, hby.time.logged _, hstamp⟩⟩, ⟨s.board, s.log, rfl, le_rfl⟩,
      ⟨s.board.time, hrule, fun x hx hev => ?_, hby.booted.trans hby.passed, ?_⟩,
      fun h => fresh_saved ?_ fun y hy hev => ?_⟩
    · rcases List.mem_cons.1 hx with rfl | hx
      · exact le_rfl
      · exact (hby.last x hx hev).trans hby.passed
    · exact ⟨_, readAt_now (s := s.logged .saved) le_rfl, fun x hx => by cases hx; rfl⟩
    · exact (Nat.add_le_add_right hby.booted _).trans (hdue h)
    · exact (Nat.add_le_add_right (hby.last y hy hev) _).trans (hdue h)
  refine Triple.bind (millis_triple (I := Written) (fun s hs => hs.1) ?_) fun now => ?_
  · rintro s e rest - ⟨hlog, ⟨b, older, hhead, hb⟩, ⟨τ, hby⟩, hfresh⟩
    have htime : s.board.time ≤ (s.board.after e).time := Board.le_after_time _ _
    have hstore : (s.board.after e).store = s.board.store := Board.after_store _ _
    exact ⟨hlog.frame rfl (congrArg MeterStore.lastSaveMs hstore) htime,
      ⟨b, older, hhead, hb.trans htime⟩, ⟨τ, hby.frame rfl htime⟩, hfresh⟩
  · rintro s ⟨⟨-, ⟨b, older, hhead, hb⟩, ⟨τ, hby⟩, hfresh⟩, rfl⟩
    exact ⟨⟨s.board.time, (hby.now hhead hb).frame rfl le_rfl, .ofNat _⟩, hfresh⟩

/-- The writes of the handlers and of `tick()`. -/
theorem persistNow_stored :
    Triple (Stored start) (persistNow : Fw F Unit) (fun _ => Stored start) (SaveLog start) := by
  refine Triple.bind (look_keeps _) fun b => ?_
  refine (save_stored False _ _).conseq ?_ (fun _ _ h => h.1) (fun _ h => h)
  rintro s ⟨τ, hby, hstamp⟩
  exact ⟨τ, hby, hstamp, False.elim⟩

/-- `saveIfDue()` writes only an interval after its stamp, which no write is later than. -/
theorem saveIfDue_saving (pulses : U32) (v : Bool) :
    Keeps (Saving start) (SaveLog start)
      (MeterStore.saveIfDue pulses v Settings.eepromSaveMs : Fw F Unit) := by
  refine Keeps.bind (look_keeps _) fun dirty => Keeps.ite (Keeps.pure _) ?_
  refine Triple.bind (millis_triple Saving.saveLog Saving.after) fun now => ?_
  refine look_bind fun b => Triple.ite (fun _ => ?_) fun hover => ?_
  · rintro s ⟨⟨hs, -⟩, -⟩
    exact hs
  · refine (save_stored True pulses v).conseq ?_ (fun _ _ h => ⟨h.1, h.2 trivial⟩) (fun _ h => h)
    rintro s ⟨⟨⟨⟨τ, hby, hstamp⟩, -⟩, rfl⟩, rfl⟩
    refine ⟨τ, hby, hstamp, fun _ => ?_⟩
    have hwait := hstamp.due (Int.ofNat_le.2 hby.passed) (BitVec.not_lt.1 hover)
    omega

variable [CFloat F]

/-- `service()` ends with a write at most that was due. -/
theorem service_saving :
    Keeps (Saving start) (SaveLog start) (service : Fw F Unit) := by
  have hI : FsmStable (F := F) (Saving start) := Saving.fsmStable
  refine service_keeps_of_meter hI.toServiceStable.verdictStable Saving.saveLog ?_
    fun _ since hs => hs.serviced since
  refine Keeps.bind (FlowMeter.update_keeps hI.toPortStable Saving.saveLog
    (fun _ _ hs => hs.frame rfl rfl le_rfl) fun _ hs => hs.1.parted rfl rfl nofun) fun _ => ?_
  refine Keeps.bind (FlowMeter.consumeDirty_keeps hI.toPortStable Saving.saveLog
    fun _ _ hs => hs.frame rfl rfl le_rfl) fun dirty => ?_
  have hmark : Keeps (Saving start) (SaveLog start) (MeterStore.markDirty : Fw F Unit) := by
    intro s hs
    show Saving start (s.withStore { s.board.store with dirty := true })
    exact hs.frame rfl rfl le_rfl
  refine Keeps.bind (Keeps.when hmark) fun _ => ?_
  exact Keeps.bind (look_keeps _) fun b => saveIfDue_saving _ _

omit [CFloat F] in
/-- The event of the handler parts its write from what follows. -/
theorem onCommand_saving (cmd : Command) :
    Keeps (Saving start) (SaveLog start) (onCommand cmd : Fw F Unit) := by
  have hI : PortStable (F := F) (Saving start) := Saving.fsmStable.toPortStable
  have hvalve : ∀ (s : Sys F) v l, Saving start s → Saving start (s.withValve v l) :=
    fun _ _ _ hs => hs.frame rfl rfl le_rfl
  have hpersist : Triple (Saving start) (persistNow : Fw F Unit) (fun _ => Stored start)
      (SaveLog start) :=
    persistNow_stored.conseq (fun _ h => h.1) (fun _ _ h => h) (fun _ h => h)
  refine Triple.bind (Q := fun _ => Stored start) ?_ fun _ s hs => hs.parted rfl rfl nofun
  cases cmd with
  | none => exact fun _ hs => hs.1
  | on =>
    exact Triple.bind (LatchingValve.opens_keeps hI Saving.saveLog hvalve) fun _ => hpersist
  | off =>
    exact Triple.bind (LatchingValve.close_keeps hI Saving.saveLog hvalve) fun _ => hpersist

/-- The functions that the radio calls back. -/
theorem kept_saving : Kept (F := F) (Saving start) (SaveLog start) where
  service := service_saving
  command := onCommand_saving
  fingerprint :=
    onFingerprint_keeps Saving.fsmStable.toPortStable Saving.saveLog
      (fun _ _ hs => hs.frame rfl rfl le_rfl) (fun _ _ hs => hs.frame rfl rfl le_rfl)
      fun _ hs => hs.1.parted rfl rfl nofun

/-- The save of Publish is followed by the entry into Listen. -/
theorem tickPublish_saving (now : U32) :
    Keeps (Saving start) (SaveLog start) (tickPublish now : Fw F Unit) := by
  have hI : FsmStable (F := F) (Saving start) := Saving.fsmStable
  have hS : FsmStable (F := F) (Stored start) := Stored.fsmStable
  refine Triple.bind (publishInfo_triple hI.toModemStable Saving.saveLog
    (fun _ _ _ hs => hs.1.parted rfl rfl nofun) fun _ hs => hs.1.parted rfl rfl nofun) fun _ => ?_
  refine Triple.bind (publishTelemetry_triple hI.toModemStable Saving.saveLog
    (fun _ _ _ hs => hs.1.parted rfl rfl nofun) fun _ hs => hs.1.parted rfl rfl nofun) fun ok => ?_
  refine Triple.bind (Q := fun _ => Stored start) ?_ fun _ => ?_
  · exact (Keeps.when persistNow_stored).conseq (fun _ h => h.1) (fun _ _ h => h) (fun _ h => h)
  refine Triple.bind (heartbeatIfDue_keeps hS.toModemStable Stored.saveLog
    (fun _ _ _ hs => hs.logged nofun nofun) hS.toServiceStable (fun _ _ hs => hs.logged nofun nofun)
    now) fun _ => ?_
  refine Triple.bind (hS.millis Stored.saveLog) fun _ => ?_
  refine Triple.bind (set_keeps hS.toServiceStable _ fun _ => rfl) fun _ => ?_
  -- the change of state parts the write from the next round
  refine Triple.bind (Q := fun _ => Stored start) ?_ fun _ s hs => hs.parted rfl rfl nofun
  exact fun s hs => hs.frame rfl rfl le_rfl

/-! ### Runs -/

/-- Nothing is logged yet, and `MeterStore::load` has not read the clock. -/
structure Unsaved (start : Nat) (s : Sys F) : Prop where
  log : s.log = []
  booted : start ≤ s.board.time
  stamp : s.board.store.lastSaveMs = 0

omit [CFloat F] in
/-- A power failure before the timer is armed leaves an empty log. -/
theorem Unsaved.saveLog (s : Sys F) (h : Unsaved start s) : SaveLog start s := by
  refine ⟨?_, .inl ⟨h.log, h.stamp⟩⟩
  rw [h.log]
  exact Journal.every_nil

omit [CFloat F] in
/-- A step of the environment logs nothing. -/
theorem Unsaved.after (s : Sys F) (e : Env) (rest : List Env) (_ : s.tape = e :: rest)
    (h : Unsaved start s) : Unsaved start (s.after e rest) := by
  refine ⟨h.log, h.booted.trans (Board.le_after_time _ _), ?_⟩
  show (s.board.after e).store.lastSaveMs = 0
  rw [Board.after_store]
  exact h.stamp

omit [CFloat F] in
/-- The timer is armed by a reading of this moment. -/
theorem Unsaved.armed {s : Sys F} (h : Unsaved start s) : SavedBy start s.board.time s := by
  refine ⟨?_, fun x hx => ?_, h.booted, s.log, readAt_now ?_, fun x hx => ?_⟩
  · rw [h.log]
    exact Journal.every_nil
  · rw [h.log] at hx
    cases hx
  · rw [h.log]
    exact h.booted
  · rw [h.log] at hx
    cases hx

omit [CFloat F] in
/-- `load()` arms the timer, whatever it finds. -/
theorem load_saving : Triple (Unsaved start) (MeterStore.load : Fw F (Option (U32 × Bool)))
    (fun _ => Saving start) (SaveLog start) := by
  refine Triple.bind (Q := fun _ => Unsaved start) (fun s hs => ⟨hs.log, hs.booted, hs.stamp⟩)
    fun _ => ?_
  refine Triple.bind (millis_triple Unsaved.saveLog Unsaved.after) fun now => ?_
  refine Triple.bind (Q := fun _ => Saving start) ?_ fun _ _ hs => hs
  rintro s ⟨hs, rfl⟩
  refine ⟨⟨s.board.time, hs.armed.frame rfl le_rfl, .ofNat _⟩, ?_⟩
  show Fresh start s.log
  rw [hs.log]
  exact fresh_nil

/-- The restoring arms the timer of the store. -/
theorem restore_saving :
    Triple (Unsaved start) (restore : Fw F Unit) (fun _ => Saving start) (SaveLog start) := by
  refine Triple.bind load_saving fun r => ?_
  refine Keeps.bind (restoreValve_keeps Saving.saveLog Saving.after
    (fun _ _ hs => hs.frame rfl rfl (Nat.le_add_right _ _))
    (fun _ _ _ hs => hs.frame rfl rfl le_rfl) r) fun _ => ?_
  exact restoreRest_keeps Saving.saveLog Saving.after (fun _ _ hs => hs.frame rfl rfl le_rfl)
    (fun _ hs => hs.frame rfl rfl le_rfl) (fun _ _ hs => hs.frame rfl rfl le_rfl) r

/-- In every run, every write of `saveIfDue` is an interval after all earlier ones and after the
    boot, and the stamp is that of a write. -/
theorem firmware_saving (eeprom : Nat → U8) (latch : Bool) (start : Nat) (tape : List Env)
    (n : Nat) : SaveLog start (firmware (F := F) n (Sys.powerUp eeprom latch start tape)).2 := by
  have hrestore : Triple (fun s : Sys F => ∃ s₀, Unsaved start s₀ ∧ s = cleared s₀) restore
      (fun _ => Saving start) (SaveLog start) := by
    refine restore_saving.conseq ?_ (fun _ _ h => h) (fun _ h => h)
    rintro _ ⟨s₀, hs, rfl⟩
    exact ⟨hs.log, hs.booted, hs.stamp⟩
  have hrun := firmware_triple Saving.fsmStable Saving.saveLog hrestore kept_saving
    tickPublish_saving n (Sys.powerUp eeprom latch start tape) ⟨rfl, le_rfl, rfl⟩
  exact wp_snd (wp_mono (fun _ s h => Saving.saveLog s h) (fun _ h => h) hrun)

end WaterboxFsm

end Waterbox
