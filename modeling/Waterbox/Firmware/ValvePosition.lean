import Waterbox.Firmware.Single
import Waterbox.Firmware.Rounds

namespace Waterbox

/-!
# The reported valve position and the latch

The latch keeps its position without power; `isOpen()` reads a flag in RAM.  Every pulse moves the
latch and then sets the flag, so that the two agree from the moment `begin()` makes them agree:
by applying the restored position, or, where nothing is restored, by finding the latch closed.

* `Seated` — flag and latch agree, now and at every event in the log.
* `WaterboxFsm.begin_seated` — `begin()` establishes it from a boot with `Restorable`.
* `WaterboxFsm.valve_position_iff` — the law over whole lives, and its exact condition.
-/

open Cut

variable {F : Type}

/-- The valve position a record reports. -/
def Event.valveOpen? : Event F → Option Bool
  | .telemetry r => some r.valveOpen
  | .info r => some r.valveOpen
  | .heartbeat r => some r.valveOpen
  | _ => none

/-- At this event the flag shows the latch, and so does what is reported. -/
def Event.ShowsLatch (x : Event F × Board F) : Prop :=
  x.2.valve.isOpen = x.2.latchOpen ∧ ∀ v, x.1.valveOpen? = some v → v = x.2.latchOpen

/-- Every event so far showed the latch. -/
def LogSeated (s : Sys F) : Prop := ∀ x ∈ s.log, Event.ShowsLatch x

/-- The flag shows the latch, now and at every event so far, and the coil has its duty cycle. -/
structure Seated (s : Sys F) : Prop where
  speed : s.board.valve.speed = Settings.valveSpeed
  agree : s.board.valve.isOpen = s.board.latchOpen
  log : LogSeated s

namespace Seated

variable {s s' : Sys F}

theorem frame (h : Seated s) (hvalve : s'.board.valve = s.board.valve)
    (hlatch : s'.board.latchOpen = s.board.latchOpen) (hlog : s'.log = s.log) : Seated s' where
  speed := by rw [hvalve, h.speed]
  agree := by rw [hvalve, hlatch, h.agree]
  log := by
    rw [LogSeated, hlog]
    exact h.log

theorem logged (h : Seated s) {ev : Event F}
    (hev : ∀ v, ev.valveOpen? = some v → v = s.board.valve.isOpen) : Seated (s.logged ev) where
  speed := h.speed
  agree := h.agree
  log x hx := by
    rcases List.mem_cons.1 hx with rfl | hx
    · exact ⟨h.agree, fun v hv => (hev v hv).trans h.agree⟩
    · exact h.log x hx

theorem fsmStable : FsmStable (F := F) Seated := by
  refine .of_unseen ?_ ?_ ?_ ?_ ?_ fun s ev hev h => ?_
  · exact fun _ _ _ _ h => h.frame (Board.after_valve _ _) (Board.after_latchOpen _ _) rfl
  · exact fun _ _ h => h.frame rfl rfl rfl
  · exact fun _ _ h => h.frame rfl rfl rfl
  · exact fun _ _ h => h.frame rfl rfl rfl
  · exact fun _ _ h => h.frame rfl rfl rfl
  · exact h.logged (by cases ev <;> simp_all [Event.isNote, Event.valveOpen?])

theorem reported : WaterboxFsm.Reported (F := F) Seated where
  telemetry _ h := h.logged fun _ hv => (Option.some.inj hv).symm
  info _ h := h.logged fun _ hv => (Option.some.inj hv).symm
  heartbeat _ _ h := h.logged fun _ hv => (Option.some.inj hv).symm
  published _ _ _ h := h.logged fun _ hv => nomatch hv

end Seated

/-! ### Moving the latch -/

/-- The coil has its duty cycle, the flag says `v`, and the latch is at `l`. -/
structure Placed (v l : Bool) (s : Sys F) : Prop where
  speed : s.board.valve.speed = Settings.valveSpeed
  flag : s.board.valve.isOpen = v
  latch : s.board.latchOpen = l

/-- Only the valve and the latch matter. -/
theorem Placed.frame {v l : Bool} {s s' : Sys F} (h : Placed v l s)
    (hvalve : s'.board.valve = s.board.valve) (hlatch : s'.board.latchOpen = s.board.latchOpen) :
    Placed v l s' := ⟨by rw [hvalve, h.speed], by rw [hvalve, h.flag], by rw [hlatch, h.latch]⟩

theorem Placed.fsmStable {v l : Bool} : FsmStable (F := F) (Placed v l) := by
  refine .of_unseen ?_ ?_ ?_ ?_ ?_ fun s ev hev h => h.frame rfl rfl
  · exact fun _ _ _ _ h => h.frame (Board.after_valve _ _) (Board.after_latchOpen _ _)
  · exact fun _ _ h => h.frame rfl rfl
  · exact fun _ _ h => h.frame rfl rfl
  · exact fun _ _ h => h.frame rfl rfl
  · exact fun _ _ h => h.frame rfl rfl

/-- A coil with its duty cycle brings the latch and the flag to the same side, wherever they
    were before; `L` is what is known of the log. -/
theorem LatchingValve.apply_placed (v : Bool) {P C : Sys F → Prop}
    {L : List (Event F × Board F) → Prop} (hC : ∀ s, P s → C s) (hL : ∀ s, P s → L s.log)
    (hafter : ∀ s e rest, s.tape = e :: rest → P s → P (s.after e rest))
    (hlater : ∀ s ms, P s → P (s.later ms))
    (hspeed : ∀ s, P s → s.board.valve.speed = Settings.valveSpeed) :
    Triple P (apply v : Fw F Unit) (fun _ s => Placed v v s ∧ L s.log) C := by
  -- what both sides share: a pulse of the wanted polarity, then the flag
  have hmove : ∀ (ia ib : U8) (b : Bool), (∀ l, moved ia ib l = b) →
      Triple P (pulse ia ib >>= fun _ => set fun w => { w with isOpen := b } : Fw F Unit)
        (fun _ s => Placed b b s ∧ L s.log) C := by
    intro ia ib b hmoved
    refine Triple.bind (Q := fun _ s => s.board.valve.speed = Settings.valveSpeed ∧
      s.board.latchOpen = b ∧ L s.log) ?_ fun _ s hs => ⟨⟨hs.1, rfl, hs.2.1⟩, hs.2.2⟩
    refine Triple.bind (Q := fun _ => P) (look_keeps _) fun ms => ?_
    refine Triple.bind (Q := fun _ => P) ?_ fun _ s hs => ⟨hspeed s hs, hmoved _, hL s hs⟩
    exact delay_keeps hC hafter ms fun s hs => hlater s ms hs
  cases v with
  | false =>
    refine look_bind fun b => ?_
    intro s ⟨hs, hb⟩
    refine hmove 0 b.valve.speed false (fun l => ?_) s hs
    rw [← hb, hspeed s hs]
    rfl
  | true =>
    refine look_bind fun b => ?_
    intro s ⟨hs, hb⟩
    refine hmove b.valve.speed 0 true (fun l => ?_) s hs
    rw [← hb, hspeed s hs]
    rfl

/-- A valve that is placed where its flag says is seated. -/
theorem Placed.seated {v : Bool} {s : Sys F} (h : Placed v v s) (hlog : LogSeated s) : Seated s :=
  ⟨h.speed, h.flag.trans h.latch.symm, hlog⟩

/-- No cut falls between the moving of the latch and the setting of the flag. -/
theorem LatchingValve.apply_seated (v : Bool) : Keeps Seated Seated (apply v : Fw F Unit) := by
  refine (apply_placed v (P := Seated) (L := fun log => ∀ x ∈ log, Event.ShowsLatch x)
    (fun _ h => h) (fun _ h => h.log) Seated.fsmStable.after Seated.fsmStable.later
    fun _ h => h.speed).conseq
    (fun _ h => h) (fun _ s hs => hs.1.seated hs.2) (fun _ h => h)

/-! ### The FSM -/

namespace WaterboxFsm

variable [CFloat F]

omit [CFloat F] in
/-- Saving moves nothing. -/
theorem save_seated (pulses : U32) (v : Bool) :
    Keeps Seated Seated (MeterStore.save pulses v : Fw F Unit) :=
  MeterStore.save_keeps Seated.fsmStable.toPortStable (fun _ h => h)
    (fun _ _ h => h.frame rfl rfl rfl) (fun _ _ h => h.frame rfl rfl rfl)
    (fun _ h => h.logged fun _ hv => nomatch hv) pulses v

omit [CFloat F] in
theorem persistNow_seated : Keeps Seated Seated (persistNow : Fw F Unit) :=
  Keeps.bind (look_keeps _) fun _ => save_seated _ _

/-- Every action of a callback: the coil and the flag move together. -/
theorem kept_seated : Kept (F := F) Seated Seated where
  service := by
    have hflow : ∀ (s : Sys F) fm, Seated s → Seated (s.withFlow fm) := fun _ _ h =>
      h.frame rfl rfl rfl
    refine service_keeps Seated.fsmStable.toServiceStable.verdictStable
      (fun _ h => h) ?_ ?_ ?_ save_seated ?_
    · exact FlowMeter.update_keeps Seated.fsmStable.toPortStable (fun _ h => h) hflow
        (fun _ h => h.logged fun _ hv => nomatch hv)
    · exact FlowMeter.consumeDirty_keeps Seated.fsmStable.toPortStable (fun _ h => h) hflow
    · exact MeterStore.markDirty_keeps fun _ _ h => h.frame rfl rfl rfl
    · exact fun _ _ h => h.logged fun _ hv => nomatch hv
  command :=
    onCommand_keeps (LatchingValve.apply_seated true) (LatchingValve.apply_seated false)
      persistNow_seated (fun _ _ h => h.logged fun _ hv => nomatch hv)
  fingerprint :=
    onFingerprint_keeps Seated.fsmStable.toPortStable (fun _ h => h)
      (fun _ _ h => h.frame rfl rfl rfl)
      (fun _ _ h => h.frame rfl rfl rfl) (fun _ h => h.logged fun _ hv => nomatch hv)

theorem ticks_seated (n : Nat) : Keeps Seated Seated (Cut.times tick n : Fw F Unit) :=
  ticks_keeps Seated.fsmStable (fun _ h => h) kept_seated
    (tickPublish_keeps Seated.fsmStable (fun _ h => h) Seated.reported persistNow_seated) n

/-! ### `begin()` -/

/-- Where the flag and the latch are after a boot that loaded `r` and found the latch at
    `latch`. -/
def placedFlag (r : Option (U32 × Bool)) : Bool := (r.map Prod.snd).getD false

/-- Where the latch stands after `begin()` has found `r` in the EEPROM. -/
def placedLatch (r : Option (U32 × Bool)) (latch : Bool) : Bool := (r.map Prod.snd).getD latch

/-- The boot leaves the latch where the image says, if there is one. -/
theorem restore_placed {L : List (Event F × Board F) → Prop} (r : Option (U32 × Bool))
    (latch : Bool) :
    Triple (fun s => (Placed false latch s ∧ L s.log) ∧ MeterStore.stored s.board.eeprom = r)
      (restore : Fw F Unit)
      (fun _ s => Placed (placedFlag r) (placedLatch r latch) s ∧ L s.log) (fun s => L s.log) := by
  have hload : Triple
      (fun s : Sys F => (Placed false latch s ∧ L s.log) ∧ MeterStore.stored s.board.eeprom = r)
      (MeterStore.load : Fw F (Option (U32 × Bool)))
      (fun r' s => ((Placed false latch s ∧ L s.log) ∧ MeterStore.stored s.board.eeprom = r) ∧
        r' = MeterStore.stored s.board.eeprom) (fun s => L s.log) := by
    refine load_triple (fun _ hs => hs.1.2) (fun s e rest htape hs => ?_) fun s st hs => ?_
    · refine ⟨⟨Placed.fsmStable.after s e rest htape hs.1.1, hs.1.2⟩, ?_⟩
      simpa only [Sys.after, Board.after_eeprom] using hs.2
    · exact ⟨⟨hs.1.1.frame rfl rfl, hs.1.2⟩, hs.2⟩
  -- behind the latch pulse nothing moves the valve
  let I (s : Sys F) : Prop := Placed (placedFlag r) (placedLatch r latch) s ∧ L s.log
  have hrest : ∀ r', Keeps I (fun s => L s.log) (do
      FlowMeter.begin pulsesPerLiter Settings.flowSampleMs
      restoreTotal r'
      let fp ← MeterStore.loadFingerprint
      restoreSignature fp : Fw F Unit) := by
    refine restoreRest_keeps (fun _ hs => hs.2) ?_ ?_ ?_ ?_
    · exact fun s e rest htape hs => ⟨Placed.fsmStable.after s e rest htape hs.1, hs.2⟩
    · exact fun _ _ hs => ⟨hs.1.frame rfl rfl, hs.2⟩
    · exact fun _ hs => ⟨hs.1.frame rfl rfl, hs.2⟩
    · exact fun _ _ hs => ⟨hs.1.frame rfl rfl, hs.2⟩
  refine Triple.bind hload fun r' => ?_
  rintro s ⟨⟨hs, hr⟩, hr'⟩
  rw [hr] at hr'
  subst hr'
  refine Triple.bind (P := fun s => Placed false latch s ∧ L s.log) (Q := fun _ => I) ?_
    (fun _ => hrest r') s hs
  cases r' with
  | none => exact Triple.pure fun _ hs => hs
  | some r =>
    obtain ⟨pulses, v⟩ := r
    refine LatchingValve.apply_placed v (fun _ hs => hs.2)
      (fun _ hs => hs.2) ?_ ?_ fun _ hs => hs.1.speed
    · exact fun s e rest htape hs => ⟨Placed.fsmStable.after s e rest htape hs.1, hs.2⟩
    · exact fun s ms hs => ⟨Placed.fsmStable.later s ms hs.1, hs.2⟩

/-- Where `begin()` leaves flag and latch. -/
theorem begin_placed (r : Option (U32 × Bool)) (latch : Bool) :
    Triple (fun s => s.board.latchOpen = latch ∧ MeterStore.stored s.board.eeprom = r)
      (begin : Fw F Unit) (fun _ => Placed (placedFlag r) (placedLatch r latch))
      (fun _ => True) := by
  refine begin_triple Placed.fsmStable (fun _ _ => trivial) ?_
  refine (restore_placed (L := fun _ => True) r latch).conseq ?_ (fun _ _ hs => hs.1)
    (fun _ _ => trivial)
  rintro _ ⟨s₀, ⟨hlatch, hr⟩, rfl⟩
  exact ⟨⟨⟨rfl, rfl, hlatch⟩, trivial⟩, hr⟩

/-- The boot finds a valid image, or the latch where it will assume it. -/
def Restorable (eeprom : Nat → U8) (latch : Bool) : Prop :=
  MeterStore.stored eeprom ≠ none ∨ latch = false

/-- So it agrees with the flag, unless there is no image and the latch is open. -/
theorem placed_agree_iff (r : Option (U32 × Bool)) (latch : Bool) :
    placedFlag r = placedLatch r latch ↔ r ≠ none ∨ latch = false := by
  cases r with
  | none => simp [placedFlag, placedLatch, eq_comm]
  | some r => simp [placedFlag, placedLatch]

/-- From an image, or with a closed latch, `begin()` ends seated. -/
theorem begin_seated :
    Triple (fun s => LogSeated s ∧ Restorable s.board.eeprom s.board.latchOpen)
      (begin : Fw F Unit) (fun _ => Seated) LogSeated := by
  refine begin_triple Seated.fsmStable (fun _ hs => hs.log) ?_
  rintro _ ⟨s₀, ⟨hlog, hok⟩, rfl⟩
  refine wp_mono (fun _ s hs => ?_) (fun _ hs => hs)
    (restore_placed (L := fun log => ∀ x ∈ log, Event.ShowsLatch x) _ _ (cleared s₀)
      ⟨⟨⟨rfl, rfl, rfl⟩, hlog⟩, rfl⟩)
  have hagree := (placed_agree_iff (MeterStore.stored s₀.board.eeprom) s₀.board.latchOpen).2 hok
  exact ⟨hs.1.speed, by rw [hs.1.flag, hs.1.latch]; exact hagree, hs.2⟩

theorem firmware_seated (n : Nat) :
    Triple (fun s => LogSeated s ∧ Restorable s.board.eeprom s.board.latchOpen)
      (firmware n : Fw F Unit) (fun _ => Seated) LogSeated :=
  Triple.bind begin_seated fun _ => (ticks_seated n).weaken fun _ h => h.log

/-! ### Lives -/

/-- One boot of a life. -/
theorem boot_seated (s : Sys F) (b : Boot) (hs : LogSeated s)
    (hok : Restorable s.board.eeprom s.board.latchOpen) : LogSeated (s.boot b).2 :=
  wp_snd (wp_mono (fun _ _ h => h.log) (fun _ h => h)
    (firmware_seated b.rounds (s.powerOn b) ⟨hs, hok⟩))

/-- The state a boot of a life starts from. -/
def bootState (boots : List Boot) (s : Sys F) (k : Nat) : Sys F := life (boots.take k) s

/-- The reported valve position is the real one.  Where every boot of a life finds a valid image
    or a closed latch, flag and latch agree in every state after `begin()` and every record shows
    the latch; and for a single boot, flag and latch agree when `begin()` returns if and only if
    it found one of the two. -/
theorem valve_position_iff :
    (∀ (boots : List Boot) (s : Sys F), s.log = [] →
      (∀ k < boots.length,
        Restorable (bootState boots s k).board.eeprom (bootState boots s k).board.latchOpen) →
      (∀ x ∈ (life boots s).log, x.2.valve.isOpen = x.2.latchOpen ∧
        ∀ v, x.1.valveOpen? = some v → v = x.2.latchOpen) ∧
      ∀ k (hk : k < boots.length) (t : Sys F),
        begin ((bootState boots s k).powerOn boots[k]) = (some (), t) →
        ∀ n, (Cut.times tick n t).2.board.valve.isOpen =
          (Cut.times tick n t).2.board.latchOpen) ∧
    ∀ (s : Sys F) (b : Boot) (t : Sys F), begin (s.powerOn b) = (some (), t) →
      (t.board.valve.isOpen = t.board.latchOpen ↔
        Restorable s.board.eeprom s.board.latchOpen) := by
  have hlog : ∀ (boots : List Boot) (s : Sys F), LogSeated s →
      (∀ k < boots.length,
        Restorable (bootState boots s k).board.eeprom (bootState boots s k).board.latchOpen) →
      LogSeated (life boots s) := by
    intro boots s hs hok
    let ok (s : Sys F) (_ : Boot) : Prop := Restorable s.board.eeprom s.board.latchOpen
    have hboot : ∀ s b, LogSeated s → ok s b → LogSeated (s.boot b).2 := boot_seated
    exact life_induction hboot boots s hs fun k hk => hok k hk
  refine ⟨fun boots s hs hok => ?_, fun s b t ht => ?_⟩
  · have hs : LogSeated s := by simp [LogSeated, hs]
    refine ⟨hlog boots s hs hok, fun k hk t ht n => ?_⟩
    -- the boots before this one are a life of their own
    have hbefore : LogSeated (bootState boots s k) := by
      refine hlog _ s hs fun j hj => ?_
      have hjk : j < k := by
        rw [List.length_take] at hj
        omega
      have hstate : bootState (boots.take k) s j = bootState boots s j := by
        rw [bootState, bootState, List.take_take, Nat.min_eq_left hjk.le]
      rw [hstate]
      exact hok j (by omega)
    have hseated : Seated t := wp_finished (m := begin)
      (begin_seated ((bootState boots s k).powerOn boots[k]) ⟨hbefore, hok k hk⟩) ht
    exact (wp_snd (ticks_seated n t hseated)).agree
  · have hplaced := wp_finished (m := begin)
      (begin_placed (MeterStore.stored s.board.eeprom) s.board.latchOpen (s.powerOn b)
        ⟨rfl, rfl⟩) ht
    rw [hplaced.flag, hplaced.latch]
    exact placed_agree_iff _ _

/-- Half a second in which the modem does what it is asked. -/
def halfSecond : Env := { willing with elapsed := 500 }

/-- The same, with a command to open the valve. -/
def openOrder : Env :=
  { halfSecond with
    packet := some (.publish false
      (GsmMqttClient.topic willing.imei "cmd".toList) "on".toList) }

/-- A boot in which the valve is opened, and the next one. -/
def orderedBoots : List Boot :=
  [{ start := 0, tape := List.replicate 122 halfSecond ++ openOrder :: List.replicate 40 halfSecond,
     rounds := 6 },
   { start := 5000, tape := List.replicate 60 halfSecond, rounds := 5 }]

/-- A device out of the box, with its valve closed: it is told to open it, and starts again from the
    image that it saved then. -/
theorem valve_position_ordered :
    (life orderedBoots (Sys.powerUp (F := Single) blank false 0 [])).board.latchOpen = true ∧
    ∀ x ∈ (life orderedBoots (Sys.powerUp (F := Single) blank false 0 [])).log,
      x.2.valve.isOpen = x.2.latchOpen := by
  refine ⟨by decide +kernel, fun x hx => ?_⟩
  refine ((valve_position_iff.1 orderedBoots _ rfl fun k hk => ?_).1 x hx).1
  have hk : k = 0 ∨ k = 1 := by
    have hlen : orderedBoots.length = 2 := rfl
    omega
  rcases hk with rfl | rfl
  · exact .inr rfl
  · exact .inl (by decide +kernel)

/-- A device out of the box with its valve open: it reports the open valve as closed. -/
theorem valve_position_wrong :
    let boots : List Boot := [{ start := 0, tape := List.replicate 200 willing, rounds := 5 }]
    ∃ x ∈ (life boots (Sys.powerUp (F := Single) blank true 0 [])).log,
      x.1.valveOpen? = some false ∧ x.2.latchOpen = true := by
  intro boots
  have hany : ((life boots (Sys.powerUp (F := Single) blank true 0 [])).log.any fun x =>
      x.1.valveOpen? = some false ∧ x.2.latchOpen = true) = true := by decide +kernel
  simpa only [List.any_eq_true, decide_eq_true_eq] using hany

end WaterboxFsm

end Waterbox
