import Waterbox.Lib.Clock
import Waterbox.Lib.Journal
import Waterbox.Firmware.Rounds

namespace Waterbox

/-!
# The timer of the flow meter

`FlowMeter::update` takes a sample where `FLOW_SAMPLE_MS` have passed since the last one.  It
subtracts the stamp of the last sample from a reading of the clock that is taken after it.

* `ReadAt` — when the clock was read, in relation to what the log shows.
* `SampleRule` — what the log must look like.
* `Sampling` — the stamp is that of the last sample, or of `FlowMeter::begin`.
* `WaterboxFsm.firmware_sampling` — whole runs.
-/

open Cut Clock

variable {F : Type} {start : Nat}

/-- Interrupts count pulses; the stamp of the sample is not theirs. -/
@[simp] theorem Board.after_oldTime (b : Board F) (e : Env) :
    (b.after e).flow.oldTime = b.flow.oldTime := by
  unfold Board.after
  split
  · rw [FlowMeter.onPulse_iterate]
  · rfl

/-- Nor is its interval. -/
@[simp] theorem Board.after_sampleMs (b : Board F) (e : Env) :
    (b.after e).flow.sampleMs = b.flow.sampleMs := by
  unfold Board.after
  split
  · rw [FlowMeter.onPulse_iterate]
  · rfl

/-- Time does not run backwards. -/
theorem Board.le_after_time (b : Board F) (e : Env) : b.time ≤ (b.after e).time := by
  rw [Board.after_time]
  exact Nat.le_add_right _ _

/-! ### Readings of the clock -/

/-- The clock was read at the time `t`: after the events `past`, or after the start where there are
    none, and before all that were logged later. -/
structure ReadAt (start : Nat) (past : List (Event F × Board F)) (t : Nat) (s : Sys F) : Prop where
  earlier : (past.head?.elim start fun x => x.2.time) ≤ t
  later : ∃ newer, s.log = newer ++ past ∧ ∀ x ∈ newer, t ≤ x.2.time
  passed : t ≤ s.board.time

section Readings

variable {past : List (Event F × Board F)} {t : Nat} {s s' : Sys F}

/-- Time passes. -/
theorem ReadAt.frame (h : ReadAt start past t s) (hlog : s'.log = s.log)
    (htime : s.board.time ≤ s'.board.time) : ReadAt start past t s' where
  earlier := h.earlier
  later := by
    rw [hlog]
    exact h.later
  passed := h.passed.trans htime

/-- An event is logged later than the reading. -/
theorem ReadAt.logged (h : ReadAt start past t s) (ev : Event F) :
    ReadAt start past t (s.logged ev) := by
  obtain ⟨newer, hlog, hnewer⟩ := h.later
  refine ⟨h.earlier, ⟨(ev, s.board) :: newer, ?_, fun x hx => ?_⟩, h.passed⟩
  · show (ev, s.board) :: s.log = _
    rw [hlog, List.cons_append]
  · rcases List.mem_cons.1 hx with rfl | hx
    · exact h.passed
    · exact hnewer x hx

/-- A reading of this moment. -/
theorem readAt_now (h : (s.log.head?.elim start fun x => x.2.time) ≤ s.board.time) :
    ReadAt start s.log s.board.time s :=
  ⟨h, ⟨[], rfl, fun _ hx => nomatch hx⟩, le_rfl⟩

end Readings

/-! ### Samples -/

/-- Every earlier sample is an interval ago. -/
def SampleRule (x : Event F × Board F) (past : List (Event F × Board F)) : Prop :=
  x.1 = .sampled → ∀ y ∈ past, y.1 = .sampled →
    y.2.time + Settings.flowSampleMs.toNat ≤ x.2.time

/-- `t` is the time of a sample, or the one at which `FlowMeter::begin` has read the clock. -/
def SampleTime (start t : Nat) (s : Sys F) : Prop :=
  ∃ past, ReadAt start past t s ∧ ∀ x ∈ past.head?, x.1 = .sampled ∧ x.2.time = t

/-- All samples were taken at the time `t` or before. -/
structure SampledBy (start t : Nat) (s : Sys F) : Prop where
  rule : Journal.Every SampleRule s.log
  fitted : s.board.flow.sampleMs = Settings.flowSampleMs
  last : ∀ x ∈ s.log, x.1 = .sampled → x.2.time ≤ t
  time : SampleTime start t s

/-- Also the flow meter has the stamp of that time. -/
def Sampling (start : Nat) (s : Sys F) : Prop :=
  ∃ t : Nat, SampledBy start t s ∧ Stamp s.board.flow.oldTime t

/-- The stamp of the flow meter is the time of a sample, or the one at which `FlowMeter::begin` has
    read the clock; before that it is 0 and nothing is logged. -/
def SampleStamp (start : Nat) (s : Sys F) : Prop :=
  s.log = [] ∧ s.board.flow.oldTime = 0 ∨
    ∃ t : Nat, SampleTime start t s ∧ Stamp s.board.flow.oldTime t

/-- What holds wherever the power can fail. -/
def SampleLog (start : Nat) (s : Sys F) : Prop :=
  Journal.Every SampleRule s.log ∧ SampleStamp start s

/-- The interval is over, by the reading `now` of this moment. -/
def SampleDue (start : Nat) (now : U32) (s : Sys F) : Prop :=
  now = BitVec.ofNat 32 s.board.time ∧
    ∃ t : Nat, SampledBy start t s ∧ Stamp s.board.flow.oldTime t ∧
      t + Settings.flowSampleMs.toNat ≤ s.board.time

/-- The sample is taken, but its stamp is not stored yet. -/
def SampleTaken (start : Nat) (now : U32) (s : Sys F) : Prop :=
  SampleLog start s ∧ ∃ t : Nat, SampledBy start t s ∧ Stamp now t

section Samples

variable {s t : Sys F} {now : U32}

/-- A sample stays where it is in the log. -/
theorem SampleTime.frame {τ : Nat} (h : SampleTime start τ s) (hlog : t.log = s.log)
    (htime : s.board.time ≤ t.board.time) : SampleTime start τ t := by
  obtain ⟨past, hread, hpast⟩ := h
  exact ⟨past, hread.frame hlog htime, hpast⟩

/-- It stays where it is also when an event is logged. -/
theorem SampleTime.logged {τ : Nat} (h : SampleTime start τ s) (ev : Event F) :
    SampleTime start τ (s.logged ev) := by
  obtain ⟨past, hread, hpast⟩ := h
  exact ⟨past, hread.logged ev, hpast⟩

/-- A sample of this moment. -/
theorem sampleTime_sampled (s : Sys F) :
    SampleTime start s.board.time (s.logged .sampled) := by
  have hread : ReadAt start (s.logged .sampled).log s.board.time (s.logged .sampled) :=
    readAt_now le_rfl
  refine ⟨_, hread, fun x hx => ?_⟩
  cases hx
  exact ⟨rfl, rfl⟩

/-- A sample is not of the future. -/
theorem SampleTime.le {τ : Nat} (h : SampleTime start τ s) : τ ≤ s.board.time := by
  obtain ⟨past, hread, -⟩ := h
  exact hread.passed

/-- What writes neither the log nor the interval leaves the samples as they are. -/
theorem SampledBy.frame {τ : Nat} (h : SampledBy start τ s) (hlog : t.log = s.log)
    (hms : t.board.flow.sampleMs = s.board.flow.sampleMs)
    (htime : s.board.time ≤ t.board.time) : SampledBy start τ t where
  rule := hlog ▸ h.rule
  fitted := hms.trans h.fitted
  last := hlog ▸ h.last
  time := h.time.frame hlog htime

/-- Where the log and the stamp are the same, time may pass. -/
theorem SampleLog.frame (h : SampleLog start s) (hlog : t.log = s.log)
    (hold : t.board.flow.oldTime = s.board.flow.oldTime)
    (htime : s.board.time ≤ t.board.time) : SampleLog start t := by
  obtain ⟨hrule, ⟨hnone, hzero⟩ | ⟨τ, htau, hstamp⟩⟩ := h
  · exact ⟨hlog ▸ hrule, .inl ⟨hlog.trans hnone, hold.trans hzero⟩⟩
  · exact ⟨hlog ▸ hrule, .inr ⟨τ, htau.frame hlog htime, hold ▸ hstamp⟩⟩

/-- Where also the interval is the same, the flow meter goes on. -/
theorem Sampling.frame (h : Sampling start s) (hlog : t.log = s.log)
    (hold : t.board.flow.oldTime = s.board.flow.oldTime)
    (hms : t.board.flow.sampleMs = s.board.flow.sampleMs)
    (htime : s.board.time ≤ t.board.time) : Sampling start t := by
  obtain ⟨τ, hby, hstamp⟩ := h
  exact ⟨τ, hby.frame hlog hms htime, hold ▸ hstamp⟩

/-- Only a sample is under the rule. -/
theorem sampleRule_other {x : Event F × Board F} {past : List (Event F × Board F)}
    (h : x.1 ≠ .sampled) : SampleRule x past := fun hx => absurd hx h

/-- Events that are no samples are logged. -/
theorem Sampling.logged (h : Sampling start s) {ev : Event F} (hev : ev ≠ .sampled) :
    Sampling start (s.logged ev) := by
  obtain ⟨τ, hby, hstamp⟩ := h
  refine ⟨τ, ⟨⟨sampleRule_other hev, hby.rule⟩, hby.fitted, fun x hx hsampled => ?_,
    hby.time.logged ev⟩, hstamp⟩
  rcases List.mem_cons.1 hx with rfl | hx
  · exact absurd hsampled hev
  · exact hby.last x hx hsampled

/-- The flow meter's own state is more than what the power failure leaves of it. -/
theorem Sampling.sampleLog (s : Sys F) (h : Sampling start s) : SampleLog start s := by
  obtain ⟨τ, hby, hstamp⟩ := h
  exact ⟨hby.rule, .inr ⟨τ, hby.time, hstamp⟩⟩

/-- A step of the environment touches neither log nor stamp. -/
theorem Sampling.after (s : Sys F) (e : Env) (rest : List Env) (_ : s.tape = e :: rest)
    (h : Sampling start s) : Sampling start (s.after e rest) :=
  h.frame rfl (Board.after_oldTime _ _) (Board.after_sampleMs _ _) (Board.le_after_time _ _)

/-- Nothing of radio, FSM and LED counts, and none of their events is a sample. -/
theorem Sampling.fsmStable : FsmStable (F := F) (Sampling start) :=
  .of_unseen Sampling.after (fun _ _ h => h.frame rfl rfl rfl (Nat.le_add_right _ _))
    (fun _ _ h => h.frame rfl rfl rfl le_rfl) (fun _ _ h => h.frame rfl rfl rfl le_rfl)
    (fun _ _ h => h.frame rfl rfl rfl le_rfl)
    fun _ ev hev h => h.logged (by rintro rfl; cases hev)

/-- Nor are the records. -/
theorem Sampling.reported : WaterboxFsm.Reported (F := F) (Sampling start) where
  telemetry _ h := h.logged nofun
  info _ h := h.logged nofun
  heartbeat _ _ h := h.logged nofun
  published _ _ _ h := h.logged nofun

/-- The new sample is an interval after all others. -/
theorem SampleDue.sampled (h : SampleDue start now s) :
    SampleTaken start now (s.logged .sampled) := by
  obtain ⟨rfl, τ, hby, hstamp, hdue⟩ := h
  have hrule : Journal.Every SampleRule (s.logged .sampled).log := by
    refine ⟨fun _ y hy hsampled => ?_, hby.rule⟩
    have hlast := hby.last y hy hsampled
    show y.2.time + _ ≤ s.board.time
    omega
  refine ⟨⟨hrule, .inr ⟨τ, hby.time.logged _, hstamp⟩⟩, s.board.time,
    ⟨hrule, hby.fitted, ?_, sampleTime_sampled s⟩, .ofNat _⟩
  intro x hx hsampled
  rcases List.mem_cons.1 hx with rfl | hx
  · exact le_rfl
  · exact (hby.last x hx hsampled).trans hby.time.le

end Samples

namespace FlowMeter

/-- A statement that touches neither the stamp nor the interval. -/
theorem set_sampling (f : FlowMeter F → FlowMeter F) (hold : ∀ fm, (f fm).oldTime = fm.oldTime)
    (hms : ∀ fm, (f fm).sampleMs = fm.sampleMs) :
    Keeps (Sampling start) (SampleLog start) (set f) :=
  change_keeps fun _ hs => hs.frame rfl (hold _) (hms _) le_rfl

/-- Interrupts between two statements. -/
theorem preempt_sampling : Keeps (Sampling start) (SampleLog start) (preempt : Fw F Unit) :=
  preempt_keeps Sampling.sampleLog Sampling.after

/-- The pulses are taken; the reading that found the sample due is still of this moment. -/
theorem takePulses_due (now : U32) :
    Keeps (SampleDue start now) (SampleLog start) (takePulses : Fw F U32) := by
  refine Keeps.bind (look_keeps _) fun n => Keeps.bind (change_keeps fun s hs => ?_) fun _ =>
    Keeps.pure _
  obtain ⟨hnow, τ, hby, hstamp, hdue⟩ := hs
  exact ⟨hnow, τ, hby.frame rfl rfl le_rfl, hstamp, hdue⟩

/-- The pulses go into the totals. -/
theorem fold_sampling (pulses : U32) :
    Keeps (Sampling start) (SampleLog start) (fold pulses : Fw F Unit) := by
  refine Keeps.ite ?_ (set_sampling _ (fun _ => rfl) fun _ => rfl)
  refine Keeps.bind (set_sampling _ (fun _ => rfl) fun _ => rfl) fun _ => ?_
  exact Keeps.bind preempt_sampling fun _ => set_sampling _ (fun _ => rfl) fun _ => rfl

/-- The flag is read and cleared. -/
theorem consumeDirty_sampling :
    Keeps (Sampling start) (SampleLog start) (consumeDirty : Fw F Bool) := by
  refine Keeps.bind (look_keeps _) fun _ => Keeps.bind preempt_sampling fun _ => ?_
  exact Keeps.bind (set_sampling _ (fun _ => rfl) fun _ => rfl) fun _ => Keeps.pure _

variable [CFloat F]

/-- The flow of the sample is computed. -/
theorem measure_sampling (pulses elapsed : U32) :
    Keeps (Sampling start) (SampleLog start) (measure pulses elapsed : Fw F Unit) := by
  refine set_sampling _ (fun fm => ?_) fun fm => ?_
  · split <;> rfl
  · split <;> rfl

/-- The stamp of the sample is the reading that found it due. -/
theorem sample_sampling (now elapsed : U32) :
    Triple (SampleDue start now) (sample now elapsed : Fw F Unit) (fun _ => Sampling start)
      (SampleLog start) := by
  refine Triple.bind (takePulses_due now) fun pulses => ?_
  refine Triple.bind (Q := fun _ => SampleTaken start now) (fun s hs => hs.sampled) fun _ => ?_
  refine Triple.bind (Q := fun _ => SampleTaken start now) ?_ fun _ => ?_
  · refine preempt_keeps (fun s hs => hs.1) fun s e rest _ hs => ?_
    obtain ⟨hlog, τ, hby, hstamp⟩ := hs
    exact ⟨hlog.frame rfl (Board.after_oldTime _ _) (Board.le_after_time _ _), τ,
      hby.frame rfl (Board.after_sampleMs _ _) (Board.le_after_time _ _), hstamp⟩
  refine Triple.bind (Q := fun _ => Sampling start) ?_ fun _ => ?_
  · rintro s ⟨-, τ, hby, hstamp⟩
    exact ⟨τ, hby.frame rfl rfl le_rfl, hstamp⟩
  refine Keeps.bind preempt_sampling fun _ => Keeps.bind (fold_sampling pulses) fun _ => ?_
  exact Keeps.bind preempt_sampling fun _ => measure_sampling pulses elapsed

/-- `update()`: nothing, or a sample an interval after the last one. -/
theorem update_sampling : Keeps (Sampling start) (SampleLog start) (update : Fw F Unit) := by
  refine Triple.bind (millis_triple Sampling.sampleLog Sampling.after) fun now => ?_
  refine look_bind fun b => Triple.ite (fun _ => ?_) fun hover => ?_
  · rintro s ⟨⟨hs, -⟩, -⟩
    exact hs
  · refine (sample_sampling now _).conseq ?_ (fun _ _ h => h) (fun _ h => h)
    rintro s ⟨⟨⟨τ, hby, hstamp⟩, rfl⟩, rfl⟩
    refine ⟨rfl, τ, hby, hstamp, ?_⟩
    have hdue : Settings.flowSampleMs ≤ BitVec.ofNat 32 s.board.time - s.board.flow.oldTime := by
      rw [← hby.fitted]
      exact BitVec.not_lt.1 hover
    have hwait := hstamp.due (Int.ofNat_le.2 hby.time.le) hdue
    omega

end FlowMeter

namespace WaterboxFsm

variable [CFloat F]

omit [CFloat F] in
/-- A save is no sample. -/
theorem save_sampling (pulses : U32) (v : Bool) :
    Keeps (Sampling start) (SampleLog start) (MeterStore.save pulses v : Fw F Unit) :=
  MeterStore.save_keeps Sampling.fsmStable.toPortStable Sampling.sampleLog
    (fun _ _ hs => hs.frame rfl rfl rfl le_rfl) (fun _ _ hs => hs.frame rfl rfl rfl le_rfl)
    (fun _ hs => hs.logged nofun) pulses v

/-- The functions that the radio calls back. -/
theorem kept_sampling : Kept (F := F) (Sampling start) (SampleLog start) where
  service :=
    service_keeps Sampling.fsmStable.toServiceStable.verdictStable Sampling.sampleLog
      FlowMeter.update_sampling FlowMeter.consumeDirty_sampling
      (MeterStore.markDirty_keeps fun _ _ hs => hs.frame rfl rfl rfl le_rfl) save_sampling
      fun _ _ hs => hs.logged nofun
  command := by
    have hI : PortStable (F := F) (Sampling start) := Sampling.fsmStable.toPortStable
    have hvalve : ∀ (s : Sys F) v l, Sampling start s →
        Sampling start (s.withValve v l) :=
      fun _ _ _ hs => hs.frame rfl rfl rfl le_rfl
    exact onCommand_keeps (LatchingValve.opens_keeps hI Sampling.sampleLog hvalve)
      (LatchingValve.close_keeps hI Sampling.sampleLog hvalve)
      (Keeps.bind (look_keeps _) fun _ => save_sampling _ _) fun _ _ hs => hs.logged nofun
  fingerprint :=
    onFingerprint_keeps Sampling.fsmStable.toPortStable Sampling.sampleLog
      (fun _ _ hs => hs.frame rfl rfl rfl le_rfl) (fun _ _ hs => hs.frame rfl rfl rfl le_rfl)
      fun _ hs => hs.logged nofun

/-- Nothing is logged yet, and `FlowMeter::begin` has not read the clock. -/
def Unsampled (start : Nat) (s : Sys F) : Prop :=
  s.log = [] ∧ s.board.flow.oldTime = 0 ∧ start ≤ s.board.time

omit [CFloat F] in
/-- What logs nothing leaves it so. -/
theorem Unsampled.frame {s t : Sys F} (h : Unsampled start s) (hlog : t.log = s.log)
    (hold : t.board.flow.oldTime = s.board.flow.oldTime)
    (htime : s.board.time ≤ t.board.time) : Unsampled start t :=
  ⟨hlog.trans h.1, hold.trans h.2.1, h.2.2.trans htime⟩

omit [CFloat F] in
/-- So does a step of the environment. -/
theorem Unsampled.after (s : Sys F) (e : Env) (rest : List Env) (_ : s.tape = e :: rest)
    (h : Unsampled start s) : Unsampled start (s.after e rest) :=
  h.frame rfl (Board.after_oldTime _ _) (Board.le_after_time _ _)

omit [CFloat F] in
/-- A power failure before the timer is armed leaves an empty log. -/
theorem Unsampled.sampleLog (s : Sys F) (h : Unsampled start s) : SampleLog start s := by
  refine ⟨?_, .inl ⟨h.1, h.2.1⟩⟩
  rw [h.1]
  exact Journal.every_nil

omit [CFloat F] in
/-- The timer is armed by a reading of this moment. -/
theorem Unsampled.armed {s : Sys F} (h : Unsampled start s)
    (hms : s.board.flow.sampleMs = Settings.flowSampleMs) :
    SampledBy start s.board.time s := by
  obtain ⟨hnone, -, hstart⟩ := h
  refine ⟨?_, hms, fun x hx => ?_, s.log, readAt_now ?_, fun x hx => ?_⟩
  · rw [hnone]
    exact Journal.every_nil
  · rw [hnone] at hx
    cases hx
  · rw [hnone]
    exact hstart
  · rw [hnone] at hx
    cases hx

/-- `begin` of the flow meter arms the timer. -/
theorem flowBegin_sampling (ppl : U16) :
    Triple (Unsampled start) (FlowMeter.begin ppl Settings.flowSampleMs : Fw F Unit)
      (fun _ => Sampling start) (SampleLog start) := by
  let I (s : Sys F) : Prop := Unsampled start s ∧ s.board.flow.sampleMs = Settings.flowSampleMs
  refine Triple.bind (Q := fun _ => I) ?_ fun _ => ?_
  · exact fun s hs => ⟨hs.frame rfl rfl le_rfl, rfl⟩
  refine Triple.bind (millis_triple (I := I) (fun s hs => hs.1.sampleLog s) ?_) fun now => ?_
  · exact fun s e rest htape hs =>
      ⟨hs.1.after s e rest htape, (Board.after_sampleMs _ _).trans hs.2⟩
  refine Triple.bind (Q := fun _ => Sampling start) ?_ fun _ => ?_
  · rintro s ⟨⟨hs, hms⟩, rfl⟩
    exact ⟨s.board.time, (hs.armed hms).frame rfl rfl le_rfl, .ofNat _⟩
  refine Keeps.bind FlowMeter.preempt_sampling fun _ => ?_
  refine Keeps.bind (change_keeps fun s hs => ?_) fun _ => FlowMeter.preempt_sampling
  exact hs.frame rfl rfl rfl le_rfl

/-- The restoring arms the timer of the flow meter. -/
theorem restore_sampling :
    Triple (Unsampled start) (restore : Fw F Unit) (fun _ => Sampling start) (SampleLog start) := by
  have hC : ∀ s : Sys F, Unsampled start s → SampleLog start s := Unsampled.sampleLog
  refine Triple.bind (Q := fun _ => Unsampled start) ?_ fun r => ?_
  · exact (load_triple hC Unsampled.after fun _ _ hs => hs.frame rfl rfl le_rfl).conseq
      (fun _ h => h) (fun _ _ h => h.1) (fun _ h => h)
  refine Triple.bind (restoreValve_keeps hC Unsampled.after
    (fun _ _ hs => hs.frame rfl rfl (Nat.le_add_right _ _))
    (fun _ _ _ hs => hs.frame rfl rfl le_rfl) r) fun _ => ?_
  refine Triple.bind (flowBegin_sampling _) fun _ => ?_
  refine Keeps.bind ?_ fun _ => Keeps.bind (look_keeps _) fun fp =>
    restoreSignature_keeps (fun _ _ hs => hs.frame rfl rfl rfl le_rfl) fp
  cases r with
  | none => exact Keeps.pure _
  | some _ =>
    exact Keeps.bind FlowMeter.preempt_sampling fun _ =>
      FlowMeter.set_sampling _ (fun _ => rfl) fun _ => rfl

/-- In every run, every sample is taken an interval after all earlier ones, and the stamp is that
    of a sample. -/
theorem firmware_sampling (eeprom : Nat → U8) (latch : Bool) (start : Nat) (tape : List Env)
    (n : Nat) : SampleLog start (firmware (F := F) n (Sys.powerUp eeprom latch start tape)).2 := by
  have hrestore : Triple (fun s : Sys F => ∃ s₀, Unsampled start s₀ ∧ s = cleared s₀) restore
      (fun _ => Sampling start) (SampleLog start) := by
    refine restore_sampling.conseq ?_ (fun _ _ h => h) (fun _ h => h)
    rintro _ ⟨s₀, hs, rfl⟩
    exact hs.frame rfl rfl le_rfl
  have hrun := firmware_triple Sampling.fsmStable Sampling.sampleLog hrestore kept_sampling
    (tickPublish_keeps Sampling.fsmStable Sampling.sampleLog Sampling.reported
      (Keeps.bind (look_keeps _) fun _ => save_sampling _ _)) n
    (Sys.powerUp eeprom latch start tape) ⟨rfl, rfl, le_rfl⟩
  exact wp_snd (wp_mono (fun _ s h => Sampling.sampleLog s h) (fun _ h => h) hrun)

end WaterboxFsm

end Waterbox
