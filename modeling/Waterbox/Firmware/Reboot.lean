import Waterbox.Firmware.Single
import Waterbox.Firmware.Synced

namespace Waterbox

/-!
# What a power cycle would bring back

* `Board.Transparent` — a power cycle now would bring back the live valve position, the live
  total unless it is marked as unsaved, and the live signature.
* `Recalled` — the fingerprint image and the live signature agree outside `onFingerprint()`.
* `Punctual` — where a call of `service()` leaves the store dirty, the interval between two saves
  was not over when that call looked at the clock.
* `WaterboxFsm.reboot_transparent` — all of it, for every run.
-/

open Cut

variable {F : Type} [CFloat F]

/-- `loadFingerprint()` and `setParams()` would bring back the live signature; where nothing
    valid is stored the live signature is invalid. -/
def Board.Recalled (b : Board F) : Prop :=
  match MeterStore.storedFingerprint b.eeprom with
  | some params => b.signature = ConsumptionSignature.setParams params
  | none => b.signature.valid = false

/-- A power cycle now would bring back the live state. -/
structure Board.Transparent (b : Board F) : Prop where
  valve : MeterStore.restoredValve b.eeprom = b.valve.isOpen
  total : b.store.dirty = false → MeterStore.restoredTotal b.eeprom = b.flow.totalPulses
  signature : b.Recalled

/-! ### The fingerprint -/

/-- After every callback so far the fingerprint image agreed with the live signature. -/
def LogRecalled (s : Sys F) : Prop := ∀ x ∈ s.log, x.1.isCallback = true → x.2.Recalled

/-- The fingerprint image agrees with the live signature, now and after every callback. -/
structure Recalled (s : Sys F) : Prop where
  now : s.board.Recalled
  log : LogRecalled s

namespace Recalled

variable {s s' : Sys F}

theorem frame (h : Recalled s) (heeprom : MeterStore.storedFingerprint (F := F) s'.board.eeprom =
    MeterStore.storedFingerprint s.board.eeprom) (hsig : s'.board.signature = s.board.signature)
    (hlog : s'.log = s.log) : Recalled s' where
  now := by
    rw [Board.Recalled, heeprom, hsig]
    exact h.now
  log := by
    rw [LogRecalled, hlog]
    exact h.log

theorem logged (h : Recalled s) (ev : Event F) : Recalled (s.logged ev) where
  now := h.now
  log x hx hc := by
    rcases List.mem_cons.1 hx with rfl | hx
    · exact h.now
    · exact h.log x hx hc

theorem fsmStable : FsmStable (F := F) Recalled := by
  refine .of_unseen ?_ ?_ ?_ ?_ ?_ fun s ev hev h => h.logged _
  · exact fun _ _ _ _ h =>
      h.frame (congrArg _ (Board.after_eeprom _ _)) (Board.after_signature _ _) rfl
  · exact fun _ _ h => h.frame rfl rfl rfl
  · exact fun _ _ h => h.frame rfl rfl rfl
  · exact fun _ _ h => h.frame rfl rfl rfl
  · exact fun _ _ h => h.frame rfl rfl rfl

theorem reported : WaterboxFsm.Reported (F := F) Recalled where
  telemetry _ h := h.logged _
  info _ h := h.logged _
  heartbeat _ _ h := h.logged _
  published _ _ _ h := h.logged _

end Recalled

namespace WaterboxFsm

/-- The image of pulses and valve lies outside the fingerprint. -/
theorem save_recalled (pulses : U32) (v : Bool) :
    Keeps Recalled LogRecalled (MeterStore.save pulses v : Fw F Unit) := by
  refine Keeps.bind (eepromPut_triple (fun _ hs => hs.log) Recalled.fsmStable.after (fun s hs => ?_)
    fun _ _ hs => hs.log) fun _ => ?_
  · exact hs.frame (MeterStore.storedFingerprint_image _ _ _) rfl rfl
  refine Keeps.bind (MeterStore.set_keeps (fun _ _ hs => hs.frame rfl rfl rfl) _) fun _ => ?_
  refine Keeps.bind (emit_keeps fun _ hs => hs.logged _) fun _ => ?_
  refine Keeps.bind (Recalled.fsmStable.millis fun _ hs => hs.log) fun _ => ?_
  exact MeterStore.set_keeps (fun _ _ hs => hs.frame rfl rfl rfl) _

/-- The image of the totals lies elsewhere in the EEPROM. -/
theorem persistNow_recalled : Keeps Recalled LogRecalled (persistNow : Fw F Unit) :=
  Keeps.bind (look_keeps _) fun _ => save_recalled _ _

/-- `onFingerprint()` changes the signature and its image together. -/
theorem onFingerprint_recalled [LawfulBits F] (params : Params F) :
    Keeps Recalled LogRecalled (onFingerprint params : Fw F Unit) := by
  let Changed (s : Sys F) : Prop := s.board.signature = ConsumptionSignature.setParams params ∧
    LogRecalled s
  refine Triple.bind (Q := fun _ => Changed) (fun s hs => ⟨rfl, hs.log⟩) fun _ => ?_
  refine Triple.bind (Q := fun _ => Recalled) ?_ fun _ => emit_keeps fun _ hs => hs.logged _
  refine eepromPut_triple (fun _ hs => hs.2) ?_ (fun s hs => ⟨?_, hs.2⟩) fun _ _ hs => hs.2
  · exact fun s e rest _ hs => ⟨(Board.after_signature _ _).trans hs.1, hs.2⟩
  · show match MeterStore.storedFingerprint (writeBytes s.board.eeprom MeterStore.eepromFpBase
        (MeterStore.fingerprintImage params)) with
      | some params => s.board.signature = ConsumptionSignature.setParams params
      | none => s.board.signature.valid = false
    rw [MeterStore.storedFingerprint_fingerprintImage]
    exact hs.1

/-- A fingerprint that comes in is saved as soon as it is in use. -/
theorem kept_recalled [LawfulBits F] : Kept (F := F) Recalled LogRecalled where
  service := by
    have hflow : ∀ (s : Sys F) fm, Recalled s → Recalled (s.withFlow fm) := fun _ _ h =>
      h.frame rfl rfl rfl
    refine service_keeps Recalled.fsmStable.toServiceStable.verdictStable
      (fun _ hs => hs.log) ?_ ?_ ?_ save_recalled ?_
    · exact FlowMeter.update_keeps Recalled.fsmStable.toPortStable (fun _ hs => hs.log) hflow
        fun _ h => h.logged _
    · exact FlowMeter.consumeDirty_keeps Recalled.fsmStable.toPortStable (fun _ hs => hs.log) hflow
    · exact MeterStore.markDirty_keeps fun _ _ h => h.frame rfl rfl rfl
    · exact fun _ _ h => h.logged _
  command := by
    have hvalve : ∀ (s : Sys F) v l, Recalled s → Recalled (s.withValve v l) := fun _ _ _ h =>
      h.frame rfl rfl rfl
    refine onCommand_keeps ?_ ?_ persistNow_recalled fun _ _ h => h.logged _
    · exact LatchingValve.opens_keeps Recalled.fsmStable.toPortStable (fun _ hs => hs.log) hvalve
    · exact LatchingValve.close_keeps Recalled.fsmStable.toPortStable (fun _ hs => hs.log) hvalve
  fingerprint := onFingerprint_recalled

/-- `begin()` brings the stored signature back. -/
theorem restore_recalled :
    Triple (fun s => s.log = [] ∧ s.board.signature.valid = false) (restore : Fw F Unit)
      (fun _ => Recalled) LogRecalled := by
  let I (s : Sys F) : Prop := s.log = [] ∧ s.board.signature.valid = false
  have hafter : ∀ (s : Sys F) e rest, s.tape = e :: rest → I s → I (s.after e rest) :=
    fun s e rest _ hs => ⟨hs.1, (congrArg ConsumptionSignature.valid
      (Board.after_signature _ _)).trans hs.2⟩
  have hcut : ∀ s : Sys F, I s → LogRecalled s := by
    intro s hs x hx
    rw [hs.1] at hx
    cases hx
  have hload : Keeps I LogRecalled (MeterStore.load : Fw F (Option (U32 × Bool))) :=
    (load_triple hcut hafter fun _ _ hs => hs).conseq (fun _ h => h) (fun _ _ h => h.1)
      (fun _ h => h)
  refine Triple.bind hload fun r => ?_
  refine Triple.bind (restoreValve_keeps hcut hafter (fun _ _ hs => hs)
    (fun _ _ _ hs => hs) r) fun _ => ?_
  refine Triple.bind (flowBegin_keeps hcut hafter (fun _ _ hs => hs) (fun _ hs => hs) _ _)
    fun _ => ?_
  refine Triple.bind (restoreTotal_keeps hcut hafter (fun _ _ hs => hs) r) fun _ => ?_
  -- up to here nothing has touched the signature; now the block is read
  refine look_bind fun b => ?_
  rintro s ⟨hs, rfl⟩
  cases hfp : MeterStore.storedFingerprint (F := F) s.board.eeprom with
  | none =>
    refine ⟨?_, hcut s hs⟩
    rw [Board.Recalled, hfp]
    exact hs.2
  | some params =>
    refine ⟨?_, hcut s hs⟩
    show match MeterStore.storedFingerprint (F := F) s.board.eeprom with
      | some params' => ConsumptionSignature.setParams params =
          ConsumptionSignature.setParams params'
      | none => _
    rw [hfp]

/-- The boot takes the parameters from the image, and the rounds keep them in step. -/
theorem firmware_recalled [LawfulBits F] (n : Nat) :
    Triple (fun s => s.log = [] ∧ s.board.signature.valid = false) (firmware n : Fw F Unit)
      (fun _ => Recalled) LogRecalled := by
  refine firmware_triple Recalled.fsmStable (fun _ hs => hs.log) ?_ kept_recalled ?_ n
  · refine restore_recalled.conseq ?_ (fun _ _ h => h) (fun _ h => h)
    rintro _ ⟨s₀, hs, rfl⟩
    exact hs
  · exact tickPublish_keeps Recalled.fsmStable (fun _ hs => hs.log) Recalled.reported
      persistNow_recalled

end WaterboxFsm

/-! ### The interval between two saves -/

/-- At some moment from `since` on the interval since the last save was not over. -/
def Board.NotDue (since : Nat) (b : Board F) : Prop :=
  ∃ t, since ≤ t ∧ t ≤ b.time ∧ BitVec.ofNat 32 t - b.store.lastSaveMs < Settings.eepromSaveMs

/-- Every call of `service()` that left the store dirty found the interval not over. -/
def Punctual (s : Sys F) : Prop :=
  ∀ x ∈ s.log, ∀ since, x.1 = .serviced since → x.2.store.dirty = true → x.2.NotDue since

namespace Punctual

variable {s : Sys F}

omit [CFloat F] in
theorem logged (h : Punctual s) {ev : Event F}
    (hev : ∀ since, ev = .serviced since → s.board.store.dirty = true → s.board.NotDue since) :
    Punctual (s.logged ev) := by
  intro x hx
  rcases List.mem_cons.1 hx with rfl | hx
  · exact hev
  · exact h x hx

omit [CFloat F] in
theorem fsmStable : FsmStable (F := F) Punctual := by
  refine .of_unseen (fun _ _ _ _ h => h) (fun _ _ h => h) (fun _ _ h => h) (fun _ _ h => h)
    (fun _ _ h => h) fun s ev hev h => h.logged ?_
  cases ev <;> simp_all [Event.isNote]

omit [CFloat F] in
theorem reported : WaterboxFsm.Reported (F := F) Punctual where
  telemetry _ h := h.logged fun _ h => nomatch h
  info _ h := h.logged fun _ h => nomatch h
  heartbeat _ _ h := h.logged fun _ h => nomatch h
  published _ _ _ h := h.logged fun _ h => nomatch h

end Punctual

/-- During a call of `service()` that began at `since`. -/
def Serving (since : Nat) (s : Sys F) : Prop := Punctual s ∧ since ≤ s.board.time

/-- After the store has been looked at. -/
def Checked (since : Nat) (s : Sys F) : Prop :=
  Punctual s ∧ (s.board.store.dirty = true → s.board.NotDue since)

omit [CFloat F] in
theorem Serving.portStable (since : Nat) : PortStable (F := F) (Serving since) where
  after _ _ _ _ h := ⟨h.1, h.2.trans (by simp [Sys.after])⟩
  later _ _ h := ⟨h.1, h.2.trans (Nat.le_add_right _ _)⟩
  radio _ _ _ h := h
  packet _ h := ⟨h.1.logged (fun _ h => nomatch h), h.2⟩

omit [CFloat F] in
theorem Checked.fsmStable (since : Nat) : FsmStable (F := F) (Checked since) := by
  refine .of_unseen (fun s e _ _ h => ⟨h.1, fun hd => ?_⟩) (fun s ms h => ⟨h.1, fun hd => ?_⟩)
    (fun _ _ h => h) (fun _ _ h => h) (fun _ _ h => h) fun s ev hev h => ⟨h.1.logged ?_, h.2⟩
  · simp only [Sys.after, Board.after_store] at hd
    obtain ⟨t, hsince, ht, hlt⟩ := h.2 hd
    refine ⟨t, hsince, ht.trans (by simp [Sys.after]), ?_⟩
    simpa only [Sys.after, Board.after_store] using hlt
  · obtain ⟨t, hsince, ht, hlt⟩ := h.2 hd
    exact ⟨t, hsince, ht.trans (Nat.le_add_right _ _), hlt⟩
  · cases ev <;> simp_all [Event.isNote]

namespace WaterboxFsm

omit [CFloat F] in
/-- `saveIfDue` leaves the store dirty only where it found the interval not over. -/
theorem saveIfDue_checked (pulses : U32) (v : Bool) (since : Nat) :
    Triple (Serving since) (MeterStore.saveIfDue pulses v Settings.eepromSaveMs : Fw F Unit)
      (fun _ => Checked since) Punctual := by
  have hcut : ∀ s : Sys F, Serving since s → Punctual s := fun _ hs => hs.1
  have hmillis : Triple (Serving since) (millis : Fw F U32)
      (fun now s => Serving since s ∧ now = BitVec.ofNat 32 s.board.time) Punctual :=
    millis_triple hcut (Serving.portStable since).after
  -- a save leaves the store clean
  let Clean (s : Sys F) : Prop := Serving since s ∧ s.board.store.dirty = false
  have hclean : ∀ s : Sys F, Clean s → Punctual s := fun _ hs => hs.1.1
  have hcleanAfter : ∀ (s : Sys F) e rest, s.tape = e :: rest → Clean s →
      Clean (s.after e rest) := fun s e rest htape hs =>
    ⟨(Serving.portStable since).after s e rest htape hs.1,
      (congrArg MeterStore.dirty (Board.after_store _ _)).trans hs.2⟩
  have hsave : Triple (Serving since) (MeterStore.save pulses v : Fw F Unit)
      (fun _ => Checked since) Punctual := by
    refine Triple.bind (eepromPut_triple (Q := Serving since) hcut
      (Serving.portStable since).after (fun _ hs => hs) (fun _ _ hs => hs.1)) fun _ => ?_
    refine Triple.bind (Q := fun _ => Clean) (fun s hs => ⟨hs, rfl⟩) fun _ => ?_
    refine Triple.bind (Q := fun _ => Clean) (emit_keeps fun s hs => ?_) fun _ => ?_
    · exact ⟨⟨hs.1.1.logged (fun _ h => nomatch h), hs.1.2⟩, hs.2⟩
    refine Triple.bind (Q := fun _ => Clean) (millis_keeps hclean hcleanAfter) fun now => ?_
    intro s hs
    exact ⟨hs.1.1, fun hd => by
      have hd : s.board.store.dirty = true := hd
      rw [hs.2] at hd
      cases hd⟩
  refine look_bind fun b => Triple.ite (fun hd => ?_) fun _ => ?_
  · rintro s ⟨hs, rfl⟩
    refine ⟨hs.1, fun hdirty => ?_⟩
    rw [hdirty] at hd
    cases hd
  refine Triple.bind (hmillis.conseq (fun _ hs => hs.1) (fun _ _ h => h) fun _ h => h) fun now => ?_
  refine look_bind fun b => Triple.ite (fun hlt => ?_) fun _ => ?_
  · rintro s ⟨⟨hs, rfl⟩, rfl⟩
    exact ⟨hs.1, fun _ => ⟨s.board.time, hs.2, Nat.le_refl _, hlt⟩⟩
  · exact hsave.conseq (fun _ hs => hs.1.1) (fun _ _ h => h) fun _ h => h

/-- Behind it what was checked holds of the time at which the call began. -/
theorem meterAndSave_checked (since : Nat) :
    Triple (Serving since) (meterAndSave : Fw F Unit) (fun _ => Checked since) Punctual := by
  have hcut : ∀ s : Sys F, Serving since s → Punctual s := fun _ hs => hs.1
  have hI := Serving.portStable (F := F) since
  refine Triple.bind (FlowMeter.update_keeps hI hcut (fun _ _ hs => hs) fun _ hs =>
    ⟨hs.1.logged (fun _ h => nomatch h), hs.2⟩) fun _ => ?_
  refine Triple.bind (FlowMeter.consumeDirty_keeps hI hcut fun _ _ hs => hs) fun d => ?_
  refine Triple.bind (Keeps.when (MeterStore.markDirty_keeps fun _ _ hs => hs)) fun _ => ?_
  exact Triple.bind (look_keeps _) fun b => saveIfDue_checked _ _ _

/-- `saveIfDue()` has compared the clock inside this call. -/
theorem service_punctual : Keeps Punctual Punctual (service : Fw F Unit) := by
  refine look_bind fun b => ?_
  have hC : ∀ s : Sys F, Checked b.time s → Punctual s := fun _ hs => hs.1
  have hI := (Checked.fsmStable (F := F) b.time).toServiceStable.verdictStable
  refine Triple.bind (Q := fun _ => Checked b.time) ?_ fun _ => ?_
  · refine (meterAndSave_checked b.time).conseq ?_ (fun _ _ h => h) (fun _ h => h)
    rintro s ⟨hs, rfl⟩
    exact ⟨hs, Nat.le_refl _⟩
  refine Triple.bind (evaluateSignature_keeps hI hC) fun _ => ?_
  refine Triple.bind (updateLed_keeps hI hC) fun _ s hs => ?_
  refine hs.1.logged fun since' h hd => ?_
  cases h
  exact hs.2 hd

omit [CFloat F] in
/-- After a save nothing is left to be saved. -/
theorem save_punctual (pulses : U32) (v : Bool) :
    Keeps Punctual Punctual (MeterStore.save pulses v : Fw F Unit) :=
  MeterStore.save_keeps Punctual.fsmStable.toPortStable (fun _ h => h) (fun _ _ h => h)
    (fun _ _ h => h) (fun _ h => h.logged fun _ h => nomatch h) pulses v

theorem kept_punctual : Kept (F := F) Punctual Punctual where
  service := service_punctual
  command :=
    onCommand_keeps
      (LatchingValve.opens_keeps Punctual.fsmStable.toPortStable (fun _ h => h) fun _ _ _ h => h)
      (LatchingValve.close_keeps Punctual.fsmStable.toPortStable (fun _ h => h) fun _ _ _ h => h)
      (Keeps.bind (look_keeps _) fun _ => save_punctual _ _)
      fun _ _ h => h.logged fun _ h => nomatch h
  fingerprint :=
    onFingerprint_keeps Punctual.fsmStable.toPortStable (fun _ h => h) (fun _ _ h => h)
      (fun _ _ h => h)
      fun _ h => h.logged fun _ h => nomatch h

/-- Whole runs. -/
theorem firmware_punctual (n : Nat) :
    Keeps Punctual Punctual (firmware n : Fw F Unit) := by
  refine firmware_triple Punctual.fsmStable (fun _ h => h) ?_ kept_punctual ?_ n
  · refine (restore_keeps (I := Punctual) (fun _ h => h) (fun _ _ _ _ h => h) (fun _ _ h => h)
      (fun _ _ _ h => h) (fun _ _ h => h) (fun _ h => h) (fun _ _ h => h)
      (fun _ _ h => h)).conseq ?_ (fun _ _ h => h) (fun _ h => h)
    rintro _ ⟨s₀, hs, rfl⟩
    exact hs
  · exact tickPublish_keeps Punctual.fsmStable (fun _ h => h) Punctual.reported
      (Keeps.bind (look_keeps _) fun _ => save_punctual _ _)

/-! ### All of it -/

/-- Reboot transparency.  In every run, at every boundary between two rounds and after every
    command and fingerprint callback, a power cycle would bring back the live valve position, the
    live total unless the store is dirty, and the live signature.  And where a call of
    `service()` leaves the store dirty, less than the save interval had passed since the last
    save at the moment of that call when the clock was compared. -/
theorem reboot_transparent [LawfulBits F] (eeprom : Nat → U8) (latch : Bool) (start : Nat)
    (tape : List Env) (n : Nat) :
    let run := firmware (F := F) n (Sys.powerUp eeprom latch start tape)
    (run.1 = some () → run.2.board.Transparent) ∧
    (∀ x ∈ run.2.log, x.1.isCallback = true → x.2.Transparent) ∧
    ∀ x ∈ run.2.log, ∀ since, x.1 = .serviced since → x.2.store.dirty = true →
      ∃ t, since ≤ t ∧ t ≤ x.2.time ∧
        BitVec.ofNat 32 t - x.2.store.lastSaveMs < Settings.eepromSaveMs := by
  intro run
  let s₀ : Sys F := Sys.powerUp eeprom latch start tape
  have hhistory : History (F := F) [] (MeterStore.restoredTotal eeprom) := history_nil _
  have hfound : Found False [] eeprom s₀ := ⟨rfl, rfl, False.elim⟩
  have hsynced := firmware_inStep rfl hhistory n s₀ ⟨early_powerUp latch start tape, hfound⟩
  have hrecalled := firmware_recalled (F := F) n s₀ ⟨rfl, rfl⟩
  have hpunctual : Punctual run.2 :=
    wp_snd (firmware_punctual (F := F) n s₀ fun x hx => nomatch hx)
  refine ⟨fun hrun => ?_, fun x hx hc => ?_, hpunctual⟩
  · have hfin : firmware n s₀ = (some (), run.2) := Prod.ext hrun rfl
    have hs := wp_finished (m := firmware n) hsynced hfin
    have hr := wp_finished (m := firmware n) hrecalled hfin
    exact ⟨hs.synced.saved.valve, hs.synced.saved.total, hr.now⟩
  · have hlog : LogRecalled run.2 := wp_snd (wp_mono (fun _ _ h => h.log) (fun _ h => h) hrecalled)
    have hcut : BootCut False [] eeprom (MeterStore.restoredTotal eeprom) run.2 :=
      wp_snd (wp_mono (fun _ _ h => .inr h.cutOff) (fun _ h => h) hsynced)
    -- cut off before the first record, or after it
    rcases hcut with ⟨hnil, -⟩ | hcut
    · rw [hnil] at hx
      cases hx
    · have hsaved := hcut.ledger.saved x hx hc
      exact ⟨hsaved.valve, hsaved.total, hlog x hx hc⟩

/-- The first five rounds of a new device. -/
theorem reboot_transparent_blank :
    (firmware (F := Single) 5
      (Sys.powerUp blank false 0 (List.replicate 200 willing))).2.board.Transparent :=
  (reboot_transparent blank false 0 (List.replicate 200 willing) 5).1 (by decide +kernel)

/-- A minute without a save runs out between the look at the clock and the end of `service()`. -/
def minuteRunsOut : List Env :=
  List.replicate 5 willing ++ { willing with elapsed := 59999, pulses := 1 } ::
    List.replicate 6 willing ++ [{ willing with elapsed := 1 }]

/-- `service()` returns with the store dirty and the full interval since the last save. -/
theorem reboot_not_punctual :
    ∃ x ∈ (firmware (F := Single) 1 (Sys.powerUp blank false 0 minuteRunsOut)).2.log,
      (∃ since, x.1 = .serviced since) ∧ x.2.store.dirty = true ∧
        Settings.eepromSaveMs ≤ BitVec.ofNat 32 x.2.time - x.2.store.lastSaveMs := by
  have hany : ((firmware (F := Single) 1 (Sys.powerUp blank false 0 minuteRunsOut)).2.log.any
      fun x => (match x.1 with
        | .serviced _ => true
        | _ => false) && decide (x.2.store.dirty = true ∧
          Settings.eepromSaveMs ≤ BitVec.ofNat 32 x.2.time - x.2.store.lastSaveMs)) = true := by
    decide +kernel
  obtain ⟨⟨ev, b⟩, hx, hcond⟩ := List.any_eq_true.1 hany
  rw [Bool.and_eq_true] at hcond
  refine ⟨(ev, b), hx, ?_, of_decide_eq_true hcond.2⟩
  cases ev <;> simp at hcond
  exact ⟨_, rfl⟩

end WaterboxFsm

end Waterbox
