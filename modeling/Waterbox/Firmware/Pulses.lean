import Mathlib.Tactic.Ring
import Waterbox.Firmware.Rounds

namespace Waterbox

/-!
# No pulse is lost, none is counted twice

The interrupt writes `pulseCount_`, `update()` moves it into `totalPulses_`, and `begin()` enables
the interrupt before it installs the restored total.  The account of a flow meter is the sum of
the total, the counter and the pulses `update()` holds in its hand; it moves with the pulses and
with nothing else.

* `FlowMeter.Accounted` — the account against the pulses since `attachInterrupt`, modulo
  `2 ^ 32`, and exactly as long as the sum fits 32 bits.
* `Metered` — the same of a running system and of every entry of its log, with the totals in
  the log in ascending order.
* `Settled` — `Metered` outside `update()`, which every function of the firmware preserves.
-/

open Cut

variable {F : Type}

namespace FlowMeter

/-! ### The account -/

/-- The pulses in the total, in the counter and on their way between the two. -/
def account (fm : FlowMeter F) : U32 := fm.totalPulses + fm.pulseCount + fm.taken

/-- The account as a number. -/
def accountNat (fm : FlowMeter F) : Nat :=
  fm.totalPulses.toNat + fm.pulseCount.toNat + fm.taken.toNat

/-- The account holds `base` and `edges` pulses. -/
structure Accounted (base : U32) (edges : Nat) (fm : FlowMeter F) : Prop where
  modular : fm.account = base + BitVec.ofNat 32 edges
  exact : base.toNat + edges < 2 ^ 32 → fm.accountNat = base.toNat + edges

/-- What the account depends on. -/
def counters (fm : FlowMeter F) : U32 × U32 × U32 × U16 :=
  (fm.totalPulses, fm.pulseCount, fm.taken, fm.pulsesPerLiter)

theorem Accounted.congr {base : U32} {edges : Nat} {fm fm' : FlowMeter F}
    (h : fm.Accounted base edges) (hfm : fm'.counters = fm.counters) :
    fm'.Accounted base edges := by
  simp only [counters, Prod.mk.injEq] at hfm
  obtain ⟨ht, hc, hk, -⟩ := hfm
  constructor
  · rw [← h.modular, account, account, ht, hc, hk]
  · intro hb
    rw [← h.exact hb, accountNat, accountNat, ht, hc, hk]

/-- The interrupt adds every pulse to the account. -/
theorem Accounted.onPulse {base : U32} {edges : Nat} {fm : FlowMeter F}
    (h : fm.Accounted base edges) (n : Nat) :
    (FlowMeter.onPulse^[n] fm).Accounted base (edges + n) := by
  rw [onPulse_iterate]
  have hm := congrArg BitVec.toNat h.modular
  simp only [account, BitVec.toNat_add, BitVec.toNat_ofNat] at hm
  constructor
  · apply BitVec.eq_of_toNat_eq
    simp only [account, BitVec.toNat_add, BitVec.toNat_ofNat]
    omega
  · intro hb
    have he := h.exact (by omega)
    simp only [accountNat, BitVec.toNat_add, BitVec.toNat_ofNat] at he ⊢
    omega

/-- Taking the pulses from the counter leaves the account alone. -/
theorem Accounted.take {base : U32} {edges : Nat} {fm : FlowMeter F}
    (h : fm.Accounted base edges) (ht : fm.taken = 0) :
    ({ fm with pulseCount := 0, taken := fm.pulseCount } : FlowMeter F).Accounted base edges := by
  constructor
  · rw [← h.modular, account, account, ht]
    ring
  · intro hb
    have he := h.exact hb
    simp only [accountNat, ht] at he ⊢
    omega

/-- Folding the pulses in hand into the total leaves the account alone. -/
theorem Accounted.fold {base : U32} {edges : Nat} {fm : FlowMeter F}
    (h : fm.Accounted base edges) :
    ({ fm with totalPulses := fm.totalPulses + fm.taken, taken := 0 } : FlowMeter F).Accounted
      base edges := by
  constructor
  · rw [← h.modular, account, account]
    ring
  · intro hb
    have he := h.exact hb
    have h0 : (0 : U32).toNat = 0 := rfl
    simp only [accountNat, BitVec.toNat_add] at he ⊢
    omega

/-- Where the account is exact, folding does not wrap. -/
theorem Accounted.le_fold {base : U32} {edges : Nat} {fm : FlowMeter F}
    (h : fm.Accounted base edges) (hb : base.toNat + edges < 2 ^ 32) :
    fm.totalPulses ≤ fm.totalPulses + fm.taken := by
  have he := h.exact hb
  simp only [accountNat] at he
  rw [BitVec.le_def, BitVec.toNat_add]
  omega

/-- Where the account is exact, the total is part of it. -/
theorem Accounted.total_le {base : U32} {edges : Nat} {fm : FlowMeter F}
    (h : fm.Accounted base edges) (hb : base.toNat + edges < 2 ^ 32) :
    fm.totalPulses.toNat ≤ base.toNat + edges := by
  have he := h.exact hb
  simp only [accountNat] at he
  omega

end FlowMeter

/-! ### A metered system -/

/-- The volume a record reports. -/
def Event.totalMl? : Event F → Option U32
  | .telemetry r => some r.totalMl
  | .heartbeat r => some r.totalMl
  | _ => none

/-- An entry of the log agrees with the account at its moment, and no pulse is in hand there
    unless `update()` is sampling. -/
structure Event.Sound (base : U32) (x : Event F × Board F) : Prop where
  accounted : x.2.flow.Accounted base x.2.edges
  settled : x.1 ≠ .sampled → x.2.flow.taken = 0
  fitted : x.2.flow.pulsesPerLiter = WaterboxFsm.pulsesPerLiter
  reported : ∀ t, x.1.totalMl? = some t → t = x.2.flow.totalMilliLitres

/-- Among the entries with `K`, the totals in a log are in ascending order, up to `top`. -/
def Recorded (K : Event F × Board F → Prop) (log : List (Event F × Board F)) (top : U32) : Prop :=
  log.Pairwise (fun x y => K x → K y → y.2.flow.totalPulses ≤ x.2.flow.totalPulses) ∧
    ∀ x ∈ log, K x → x.2.flow.totalPulses ≤ top

/-- The flow meter counts on top of `base`, with `taken` pulses in the hand of `update()`, since
    the log was `old`; the entries with `K` record ascending totals. -/
structure Metered (K : Event F × Board F → Prop) (old : List (Event F × Board F))
    (base taken : U32) (s : Sys F) : Prop where
  attached : s.board.attached = true
  taken : s.board.flow.taken = taken
  fitted : s.board.flow.pulsesPerLiter = WaterboxFsm.pulsesPerLiter
  account : s.board.flow.Accounted base s.board.edges
  log : ∃ new, s.log = new ++ old ∧ ∀ x ∈ new, Event.Sound base x
  ascending : base.toNat + s.board.edges < 2 ^ 32 →
    Recorded K s.log s.board.flow.totalPulses

namespace Metered

variable {K : Event F × Board F → Prop} {old : List (Event F × Board F)} {base k : U32}
  {s s' : Sys F}

/-- Statements that leave counters and log alone leave the meter alone. -/
theorem frame (h : Metered K old base k s) (hflow : s'.board.flow.counters = s.board.flow.counters)
    (hattached : s'.board.attached = s.board.attached) (hedges : s'.board.edges = s.board.edges)
    (hlog : s'.log = s.log) : Metered K old base k s' := by
  have hc := hflow
  simp only [FlowMeter.counters, Prod.mk.injEq] at hc
  obtain ⟨ht, -, hk, hp⟩ := hc
  constructor
  · rw [hattached, h.attached]
  · rw [hk, h.taken]
  · rw [hp, h.fitted]
  · rw [hedges]
    exact h.account.congr hflow
  · rw [hlog]
    exact h.log
  · rw [hedges]
    intro hb
    obtain ⟨hpair, hle⟩ := h.ascending hb
    refine ⟨hlog ▸ hpair, ?_⟩
    rw [hlog, ht]
    exact hle

theorem after (h : Metered K old base k s) (e : Env) (rest : List Env) :
    Metered K old base k (s.after e rest) := by
  have hboard := Sys.board_after_of_attached h.attached e rest
  have hflow := FlowMeter.onPulse_iterate s.board.flow e.pulses
  constructor
  · rw [hboard]
    exact h.attached
  · rw [hboard, hflow]
    exact h.taken
  · rw [hboard, hflow]
    exact h.fitted
  · rw [hboard]
    exact h.account.onPulse e.pulses
  · exact h.log
  · rw [hboard]
    intro hb
    obtain ⟨hpair, hle⟩ := h.ascending (by simp only at hb; omega)
    refine ⟨hpair, ?_⟩
    rw [hflow]
    exact hle

/-- An event may be recorded whose volume, if it reports one, is that of the moment. -/
theorem logged (h : Metered K old base k s) {ev : Event F} (hk : ev ≠ .sampled → k = 0)
    (hr : ∀ t, ev.totalMl? = some t → t = s.board.flow.totalMilliLitres) :
    Metered K old base k (s.logged ev) := by
  obtain ⟨new, hlog, hnew⟩ := h.log
  refine ⟨h.attached, h.taken, h.fitted, h.account, ⟨(ev, s.board) :: new, ?_, ?_⟩, ?_⟩
  · show (ev, s.board) :: s.log = _
    rw [hlog, List.cons_append]
  · intro x hx
    rcases List.mem_cons.1 hx with rfl | hx
    · exact ⟨h.account, fun hev => h.taken.trans (hk hev), h.fitted, hr⟩
    · exact hnew x hx
  · intro hb
    obtain ⟨hpair, hle⟩ := h.ascending hb
    refine ⟨List.pairwise_cons.2 ⟨fun x hx _ => hle x hx, hpair⟩, fun x hx hK => ?_⟩
    rcases List.mem_cons.1 hx with rfl | hx
    · exact BitVec.le_refl _
    · exact hle x hx hK

/-- `takePulses()`. -/
theorem take (h : Metered K old base 0 s) {s' : Sys F} (hs' : s' = { s with board := { s.board with
    flow := { s.board.flow with pulseCount := 0, taken := s.board.flow.pulseCount } } }) :
    Metered K old base s.board.flow.pulseCount s' := by
  subst hs'
  exact ⟨h.attached, rfl, h.fitted, h.account.take h.taken, h.log, h.ascending⟩

/-- `totalPulses_ += pulses`. -/
theorem fold (h : Metered K old base k s) {s' : Sys F} (hs' : s' = { s with board := { s.board with
    flow := { s.board.flow with totalPulses := s.board.flow.totalPulses + k, taken := 0 } } }) :
    Metered K old base 0 s' := by
  subst hs'
  have hk := h.taken
  subst hk
  refine ⟨h.attached, rfl, h.fitted, h.account.fold, h.log, fun hb => ?_⟩
  obtain ⟨hpair, hle⟩ := h.ascending hb
  refine ⟨hpair, fun x hx hK => ?_⟩
  exact BitVec.le_trans (hle x hx hK) (h.account.le_fold hb)

end Metered

/-- A metered system with no pulse in hand: everywhere outside `update()`. -/
abbrev Settled (K : Event F × Board F → Prop) (old : List (Event F × Board F)) (base : U32)
    (s : Sys F) : Prop := Metered K old base 0 s

/-- A metered system, with some pulses in hand. -/
def Counting (K : Event F × Board F → Prop) (old : List (Event F × Board F)) (base : U32)
    (s : Sys F) : Prop :=
  ∃ k, Metered K old base k s

variable {K : Event F × Board F → Prop} {old : List (Event F × Board F)} {base : U32}

theorem Settled.fsmStable : FsmStable (F := F) (Settled K old base) := by
  refine .of_unseen (fun _ e rest _ h => h.after e rest) ?_ ?_ ?_ ?_ fun s ev hev h => ?_
  · exact fun _ _ h => h.frame rfl rfl rfl rfl
  · exact fun _ _ h => h.frame rfl rfl rfl rfl
  · exact fun _ _ h => h.frame rfl rfl rfl rfl
  · exact fun _ _ h => h.frame rfl rfl rfl rfl
  · exact h.logged (fun _ => rfl) (by cases ev <;> simp_all [Event.isNote, Event.totalMl?])

theorem Settled.reported : WaterboxFsm.Reported (F := F) (Settled K old base) where
  telemetry _ h := h.logged (fun _ => rfl) (fun _ ht => (Option.some.inj ht).symm)
  info _ h := h.logged (fun _ => rfl) (fun _ ht => nomatch ht)
  heartbeat _ _ h := h.logged (fun _ => rfl) (fun _ ht => (Option.some.inj ht).symm)
  published _ _ _ h := h.logged (fun _ => rfl) (fun _ ht => nomatch ht)

/-! ### The functions of the flow meter -/

namespace FlowMeter

theorem counting_of_metered {k : U32} (s : Sys F) (h : Metered K old base k s) :
    Counting K old base s := ⟨k, h⟩

/-- A statement that leaves the counters alone. -/
theorem set_metered {k : U32} {f : FlowMeter F → FlowMeter F}
    (hf : ∀ fm, (f fm).counters = fm.counters) :
    Keeps (Metered K old base k) (Counting K old base) (set f) :=
  change_keeps fun _ hs => hs.frame (hf _) rfl rfl rfl

theorem preempt_metered {k : U32} :
    Keeps (Metered K old base k) (Counting K old base) (preempt : Fw F Unit) :=
  preempt_keeps counting_of_metered fun _ e rest _ hs => hs.after e rest

theorem takePulses_triple : Triple (Settled K old base) (takePulses : Fw F U32)
    (fun n => Metered K old base n) (Counting K old base) := by
  refine look_bind fun b => ?_
  refine Triple.bind (Q := fun _ s => Metered K old base b.flow.pulseCount s) ?_ fun _ _ h => h
  rintro s ⟨hs, rfl⟩
  exact hs.take rfl

theorem fold_triple (pulses : U32) : Triple (Metered K old base pulses) (fold pulses : Fw F Unit)
    (fun _ => Settled K old base) (Counting K old base) := by
  refine Triple.ite (fun _ => ?_) (fun hp => ?_)
  · refine Triple.bind (Q := fun _ => Settled K old base) (fun s hs => ?_) fun _ => ?_
    · exact hs.fold rfl
    · exact Keeps.bind preempt_metered fun _ => set_metered fun _ => rfl
  · -- no pulses: the hand is empty, and stays so
    have hp : pulses = 0 := not_not.1 hp
    subst hp
    intro s hs
    exact hs.frame (by rw [counters, counters, hs.taken]) rfl rfl rfl

variable [CFloat F]

theorem measure_counters (pulses elapsed : U32) :
    Keeps (Settled K old base) (Counting K old base) (measure pulses elapsed : Fw F Unit) := by
  refine set_metered fun fm => ?_
  split <;> rfl

theorem sample_triple (now elapsed : U32) :
    Keeps (Settled K old base) (Counting K old base) (sample now elapsed : Fw F Unit) := by
  refine Triple.bind takePulses_triple fun pulses => ?_
  refine Triple.bind (Q := fun _ => Metered K old base pulses) (fun s hs => ?_) fun _ => ?_
  · exact hs.logged (fun h => absurd rfl h) (fun _ ht => nomatch ht)
  refine Triple.bind preempt_metered fun _ => ?_
  refine Triple.bind (set_metered fun _ => rfl) fun _ => ?_
  refine Triple.bind preempt_metered fun _ => ?_
  refine Triple.bind (fold_triple pulses) fun _ => ?_
  exact Keeps.bind preempt_metered fun _ => measure_counters pulses elapsed

theorem update_settled : Keeps (Settled K old base) (Counting K old base) (update : Fw F Unit) := by
  refine Keeps.bind (Settled.fsmStable.millis counting_of_metered) fun now => ?_
  exact Keeps.bind (look_keeps _) fun fm => Keeps.ite (Keeps.pure _) (sample_triple _ _)

omit [CFloat F] in
theorem consumeDirty_settled :
    Keeps (Settled K old base) (Counting K old base) (consumeDirty : Fw F Bool) := by
  refine Keeps.bind (look_keeps _) fun _ => Keeps.bind preempt_metered fun _ => ?_
  exact Keeps.bind (set_metered fun _ => rfl) fun _ => Keeps.pure _

end FlowMeter

/-! ### The FSM -/

namespace WaterboxFsm

variable [CFloat F]

omit [CFloat F] in
theorem save_settled (pulses : U32) (v : Bool) :
    Keeps (Settled K old base) (Counting K old base) (MeterStore.save pulses v : Fw F Unit) :=
  MeterStore.save_keeps Settled.fsmStable.toPortStable FlowMeter.counting_of_metered
    (fun _ _ hs => hs.frame rfl rfl rfl rfl) (fun _ _ hs => hs.frame rfl rfl rfl rfl)
    (fun _ hs => hs.logged (fun _ => rfl) (fun _ ht => nomatch ht)) pulses v

omit [CFloat F] in
theorem persistNow_settled :
    Keeps (Settled K old base) (Counting K old base) (persistNow : Fw F Unit) :=
  Keeps.bind (look_keeps _) fun _ => save_settled _ _

theorem kept_settled : Kept (F := F) (Settled K old base) (Counting K old base) where
  service :=
    service_keeps Settled.fsmStable.toServiceStable.verdictStable FlowMeter.counting_of_metered
      FlowMeter.update_settled
      FlowMeter.consumeDirty_settled
        (MeterStore.markDirty_keeps fun _ _ hs => hs.frame rfl rfl rfl rfl)
      save_settled (fun _ _ hs => hs.logged (fun _ => rfl) (fun _ ht => nomatch ht))
  command := by
    have hvalve : ∀ (s : Sys F) v l, Settled K old base s → Settled K old base (s.withValve v l) :=
      fun _ _ _ hs => hs.frame rfl rfl rfl rfl
    refine onCommand_keeps ?_ ?_ persistNow_settled ?_
    · exact LatchingValve.opens_keeps Settled.fsmStable.toPortStable
        FlowMeter.counting_of_metered hvalve
    · exact LatchingValve.close_keeps Settled.fsmStable.toPortStable
        FlowMeter.counting_of_metered hvalve
    · exact fun _ _ hs => hs.logged (fun _ => rfl) (fun _ ht => nomatch ht)
  fingerprint :=
    onFingerprint_keeps Settled.fsmStable.toPortStable FlowMeter.counting_of_metered
      (fun _ _ hs => hs.frame rfl rfl rfl rfl) (fun _ _ hs => hs.frame rfl rfl rfl rfl)
      (fun _ hs => hs.logged (fun _ => rfl) (fun _ ht => nomatch ht))

theorem ticks_settled (n : Nat) :
    Keeps (Settled K old base) (Counting K old base) (Cut.times tick n : Fw F Unit) :=
  ticks_keeps Settled.fsmStable FlowMeter.counting_of_metered kept_settled
    (tickPublish_keeps Settled.fsmStable FlowMeter.counting_of_metered Settled.reported
      persistNow_settled) n

end WaterboxFsm

/-! ### `begin()` -/

/-- The total a boot restores: 0 where `load()` fails. -/
def MeterStore.restoredTotal (eeprom : Nat → U8) : U32 :=
  match MeterStore.stored eeprom with
  | some (pulses, _) => pulses
  | none => 0

/-- Before `attachInterrupt` no pulse is counted. -/
structure Unattached (old : List (Event F × Board F)) (s : Sys F) : Prop where
  attached : s.board.attached = false
  taken : s.board.flow.taken = 0
  log : s.log = old

/-- Between `attachInterrupt` and `setTotalPulses` the counter holds every pulse. -/
structure Started (old : List (Event F × Board F)) (s : Sys F) : Prop where
  attached : s.board.attached = true
  total : s.board.flow.totalPulses = 0
  taken : s.board.flow.taken = 0
  fitted : s.board.flow.pulsesPerLiter = WaterboxFsm.pulsesPerLiter
  account : s.board.flow.Accounted 0 s.board.edges
  log : s.log = old

/-- Where a boot can be cut off. -/
def Booting (K : Event F × Board F → Prop) (old : List (Event F × Board F)) (base : U32)
    (s : Sys F) : Prop :=
  Unattached old s ∨ Started old s ∨ Counting K old base s

theorem Unattached.after {s : Sys F} (h : Unattached old s) (e : Env) (rest : List Env) :
    Unattached old (s.after e rest) ∧ (s.after e rest).board.flow = s.board.flow ∧
      (s.after e rest).board.eeprom = s.board.eeprom := by
  have hboard : (s.after e rest).board = { s.board with time := s.board.time + e.elapsed } := by
    simp [Sys.after, Board.after, h.attached]
  rw [hboard]
  exact ⟨⟨by rw [hboard]; exact h.attached, by rw [hboard]; exact h.taken, h.log⟩, rfl, rfl⟩

theorem Started.after {s : Sys F} (h : Started old s) (e : Env) (rest : List Env) :
    Started old (s.after e rest) := by
  have hboard := Sys.board_after_of_attached h.attached e rest
  have hflow := FlowMeter.onPulse_iterate s.board.flow e.pulses
  constructor
  · rw [hboard]
    exact h.attached
  · rw [hboard, hflow]
    exact h.total
  · rw [hboard, hflow]
    exact h.taken
  · rw [hboard, hflow]
    exact h.fitted
  · rw [hboard]
    exact h.account.onPulse e.pulses
  · exact h.log

/-- `setTotalPulses(base)` puts the restored total under what the counter already holds. -/
theorem Started.install {s : Sys F} (h : Started old s) (hold : Recorded K old base) {s' : Sys F}
    (hs' : s' = { s with board := { s.board with
      flow := { s.board.flow with totalPulses := base } } }) : Settled K old base s' := by
  subst hs'
  obtain ⟨hm, he⟩ := h.account
  refine ⟨h.attached, h.taken, h.fitted, ⟨?_, fun hb => ?_⟩, ⟨[], h.log, by simp⟩, fun _ => ?_⟩
  · simp only [FlowMeter.account, h.total, h.taken] at hm ⊢
    calc base + s.board.flow.pulseCount + 0
        = base + (0 + s.board.flow.pulseCount + 0) := by ring
      _ = base + BitVec.ofNat 32 s.board.edges := by rw [hm]; ring
  · have h0 : (0 : U32).toNat = 0 := rfl
    have hb : base.toNat + s.board.edges < 2 ^ 32 := hb
    have he := he (by omega)
    simp only [FlowMeter.accountNat, h.total, h.taken] at he ⊢
    omega
  · show Recorded K s.log base
    rw [h.log]
    exact hold

namespace WaterboxFsm

/-- The state before `attachInterrupt`, with the EEPROM the boot found. -/
def Early (old : List (Event F × Board F)) (eeprom : Nat → U8) (s : Sys F) : Prop :=
  Unattached old s ∧ s.board.eeprom = eeprom

variable {eeprom : Nat → U8}

theorem booting_of_early (s : Sys F) (h : Early old eeprom s) : Booting K old base s := .inl h.1

theorem after_early (s : Sys F) (e : Env) (rest : List Env) (_ : s.tape = e :: rest)
    (hs : Early old eeprom s) :
    Early old eeprom (s.after e rest) := by
  obtain ⟨h, -, heeprom⟩ := hs.1.after e rest
  exact ⟨h, heeprom.trans hs.2⟩

theorem load_early : Triple (Early old eeprom) (MeterStore.load : Fw F (Option (U32 × Bool)))
    (fun r s => Early old eeprom s ∧ r = MeterStore.stored eeprom) (Booting K old base) := by
  have hload : Triple (Early old eeprom) (MeterStore.load : Fw F (Option (U32 × Bool)))
      (fun r s => Early old eeprom s ∧ r = MeterStore.stored s.board.eeprom) (Booting K old base) :=
    load_triple booting_of_early after_early fun _ _ hs => ⟨⟨hs.1.1, hs.1.2, hs.1.3⟩, hs.2⟩
  refine hload.conseq (fun _ h => h) (fun r s hs => ⟨hs.1, ?_⟩) (fun _ h => h)
  rw [hs.2, hs.1.2]

theorem restoreValve_early (r : Option (U32 × Bool)) :
    Keeps (Early old eeprom) (Booting K old base) (restoreValve r : Fw F Unit) := by
  have hset : ∀ f : Board F → Board F, (∀ b, (f b).attached = b.attached ∧
      (f b).flow = b.flow ∧ (f b).eeprom = b.eeprom) →
      Keeps (Early old eeprom) (Booting K old base) (change f) := by
    intro f hf
    refine change_keeps fun s hs => ?_
    obtain ⟨ha, hfl, he⟩ := hf s.board
    exact ⟨⟨ha.trans hs.1.1, (congrArg FlowMeter.taken hfl).trans hs.1.2, hs.1.3⟩, he.trans hs.2⟩
  have hpulse : ∀ ia ib, Keeps (Early old eeprom) (Booting K old base)
      (LatchingValve.pulse ia ib : Fw F Unit) := by
    intro ia ib
    refine Keeps.bind (look_keeps _) fun _ => Keeps.bind ?_ fun _ => hset _ fun _ => ⟨rfl, rfl, rfl⟩
    exact Keeps.bind (next_keeps booting_of_early after_early) fun _ =>
      hset _ fun _ => ⟨rfl, rfl, rfl⟩
  match r with
  | none => exact Keeps.pure _
  | some (_, true) =>
    exact Keeps.bind (look_keeps _) fun _ => Keeps.bind (hpulse _ _) fun _ =>
      hset _ fun _ => ⟨rfl, rfl, rfl⟩
  | some (_, false) =>
    exact Keeps.bind (look_keeps _) fun _ => Keeps.bind (hpulse _ _) fun _ =>
      hset _ fun _ => ⟨rfl, rfl, rfl⟩

theorem preempt_started :
    Keeps (Started old) (Booting K old base) (preempt : Fw F Unit) :=
  preempt_keeps (fun _ h => .inr (.inl h)) fun _ e rest _ hs => hs.after e rest

variable [CFloat F]

/-- `FlowMeter::begin` starts from an empty account, and the interrupt strikes from there on. -/
theorem flowBegin_started (ms : U32) : Triple (Early old eeprom)
    (FlowMeter.begin pulsesPerLiter ms : Fw F Unit) (fun _ => Started old)
      (Booting K old base) := by
  -- from the first statement on total and counter are 0, and no interrupt can change that yet
  let Zero (s : Sys F) : Prop := Early old eeprom s ∧ s.board.flow.totalPulses = 0 ∧
    s.board.flow.pulseCount = 0 ∧ s.board.flow.pulsesPerLiter = pulsesPerLiter
  have hnext : Keeps Zero (Booting K old base) (next : Fw F Env) := by
    refine next_keeps (fun s hs => booting_of_early s hs.1) fun s e rest _ hs => ?_
    obtain ⟨⟨hs, heeprom⟩, hz⟩ := hs
    obtain ⟨h, hflow, heeprom'⟩ := hs.after e rest
    refine ⟨⟨h, heeprom'.trans heeprom⟩, ?_⟩
    rw [hflow]
    exact hz
  refine Triple.bind (Q := fun _ => Zero) ?_ fun _ => ?_
  · exact fun s hs => ⟨⟨⟨hs.1.1, hs.1.2, hs.1.3⟩, hs.2⟩, rfl, rfl, rfl⟩
  refine Triple.bind (Q := fun _ => Zero) (Keeps.bind hnext fun _ => look_keeps _) fun now => ?_
  refine Triple.bind (Q := fun _ => Zero) ?_ fun _ => ?_
  · exact fun s hs => ⟨⟨⟨hs.1.1.1, hs.1.1.2, hs.1.1.3⟩, hs.1.2⟩, hs.2⟩
  refine Triple.bind (Q := fun _ => Zero) (Keeps.bind hnext fun _ => Keeps.pure _) fun _ => ?_
  refine Triple.bind (Q := fun _ => Started old) ?_ fun _ => preempt_started
  rintro s ⟨⟨⟨-, htaken, hlog⟩, -⟩, htotal, hcount, hppl⟩
  refine ⟨rfl, htotal, htaken, hppl, ⟨?_, fun _ => ?_⟩, hlog⟩
  · show s.board.flow.account = _
    rw [FlowMeter.account, htotal, hcount, htaken]
    rfl
  · show s.board.flow.accountNat = _
    rw [FlowMeter.accountNat, htotal, hcount, htaken]
    rfl

/-- What `begin()` restores the meter counts on. -/
theorem restore_settled (hbase : MeterStore.restoredTotal eeprom = base)
    (hold : Recorded K old base) : Triple (Early old eeprom) (restore : Fw F Unit)
    (fun _ => Settled K old base) (Booting K old base) := by
  refine Triple.bind load_early fun r => ?_
  intro s ⟨hs, hr⟩
  subst hr
  have hcounting : ∀ s : Sys F, Settled K old base s → Booting K old base s := fun _ h =>
    .inr (.inr ⟨0, h⟩)
  refine Triple.bind (restoreValve_early _) (fun _ => ?_) s hs
  refine Triple.bind (flowBegin_started _) fun _ => ?_
  refine Triple.bind (Q := fun _ => Settled K old base) ?_ fun _ => ?_
  · -- the two outcomes of `load()`
    rw [← hbase] at hold ⊢
    cases hst : MeterStore.stored eeprom with
    | none =>
      intro s hs
      simp only [MeterStore.restoredTotal, hst] at hold ⊢
      refine hs.install hold ?_
      rw [← hs.total]
    | some r =>
      refine Triple.bind preempt_started fun _ s hs => ?_
      simp only [MeterStore.restoredTotal, hst] at hold ⊢
      exact hs.install hold rfl
  refine Keeps.bind (look_keeps _) fun fp => ?_
  cases fp with
  | none => exact Keeps.pure _
  | some params =>
    simp only [restoreSignature]
    exact change_keeps fun s hs => hs.frame rfl rfl rfl rfl

theorem begin_settled (hbase : MeterStore.restoredTotal eeprom = base)
    (hold : Recorded K old base) :
    Triple (Early old eeprom) (begin : Fw F Unit) (fun _ => Settled K old base)
      (Booting K old base) := by
  refine begin_triple Settled.fsmStable (fun s hs => .inr (.inr ⟨0, hs⟩)) ?_
  refine (restore_settled hbase hold).conseq ?_ (fun _ _ h => h) (fun _ h => h)
  rintro _ ⟨s₀, ⟨hs, heeprom⟩, rfl⟩
  exact ⟨⟨hs.1, hs.2, hs.3⟩, heeprom⟩

/-! ### Runs -/

/-- A boot keeps the account: after any number of rounds, and wherever it is cut off. -/
theorem firmware_settled (hbase : MeterStore.restoredTotal eeprom = base)
    (hold : Recorded K old base) (n : Nat) : Triple (Early old eeprom) (firmware n : Fw F Unit)
    (fun _ => Settled K old base) (Booting K old base) :=
  Triple.bind (begin_settled hbase hold) fun _ =>
    (ticks_settled n).weaken fun _ h => .inr (.inr h)

omit [CFloat F] in
/-- Right after power-up nothing is attached. -/
theorem early_powerUp [CFloat F] (latch : Bool) (start : Nat) (tape : List Env) :
    Early (F := F) [] eeprom (Sys.powerUp eeprom latch start tape) := ⟨⟨rfl, rfl, rfl⟩, rfl⟩

omit [CFloat F] in
theorem recorded_nil : Recorded K [] base := ⟨List.Pairwise.nil, by simp⟩

end WaterboxFsm

/-- Pulses that `update()` adds to the total leave `dirty_` set. -/
theorem FlowMeter.update_dirty [CFloat F] (total : U32) :
    Triple (fun s : Sys F => s.board.flow.totalPulses = total) (FlowMeter.update : Fw F Unit)
      (fun _ s => s.board.flow.totalPulses ≠ total → s.board.flow.dirty = true)
      (fun _ => True) := by
  let I (s : Sys F) : Prop := s.board.flow.totalPulses = total
  let J (s : Sys F) : Prop := s.board.flow.totalPulses ≠ total → s.board.flow.dirty = true
  have hI : Keeps I (fun _ => True) (next : Fw F Env) :=
    next_keeps (fun _ _ => trivial) fun s e rest _ hs => (Board.after_totalPulses _ _).trans hs
  have hJ : Keeps J (fun _ => True) (next : Fw F Env) := by
    refine next_keeps (fun _ _ => trivial) fun s e rest _ hs => ?_
    simpa only [J, Sys.after, Board.after_totalPulses, Board.after_dirty] using hs
  have hIJ : ∀ s, I s → J s := fun s hs h => absurd hs h
  refine Triple.bind (Q := fun _ => I) (Keeps.bind hI fun _ => look_keeps _) fun now => ?_
  refine Triple.bind (Q := fun _ => I) (look_keeps _) fun fm => ?_
  refine Triple.ite (fun _ => Triple.pure hIJ) fun _ => ?_
  refine Triple.bind (Q := fun _ => I) ?_ fun pulses => ?_
  · exact Keeps.bind (look_keeps _) fun _ => Keeps.bind (change_keeps fun _ hs => hs) fun _ =>
      Keeps.pure _
  refine Triple.bind (Q := fun _ => I) (emit_keeps fun _ hs => hs) fun _ => ?_
  refine Triple.bind (Q := fun _ => I) (Keeps.bind hI fun _ => Keeps.pure _) fun _ => ?_
  refine Triple.bind (Q := fun _ => I) (change_keeps fun _ hs => hs) fun _ => ?_
  refine Triple.bind (Q := fun _ => I) (Keeps.bind hI fun _ => Keeps.pure _) fun _ => ?_
  -- from the addition on, the total may be another one, and then the flag is set
  refine Triple.bind (Q := fun _ => J) ?_ fun _ => ?_
  · refine Triple.ite (fun _ => ?_) fun _ s hs => hIJ _ hs
    refine Triple.bind (Q := fun _ _ => True) (fun _ _ => trivial) fun _ => ?_
    refine Triple.bind (Q := fun _ _ => True) ?_ fun _ => fun _ _ _ => rfl
    exact preempt_keeps (fun _ _ => trivial) fun _ _ _ _ _ => trivial
  refine Triple.bind (Q := fun _ => J) (Keeps.bind hJ fun _ => Keeps.pure _) fun _ => ?_
  unfold FlowMeter.measure
  refine change_keeps fun s hs => ?_
  simp only [J] at hs ⊢
  split <;> exact hs

/-- Pulse conservation.  In every run of the firmware, wherever it stands, the pulses since
    `attachInterrupt` are in the counter, in the total, or in the hand of `update()`, once each;
    nothing is in hand outside the sampling, so that there the total and the counter alone make
    up the restored total plus the pulses.  An `update()` that adds to the total leaves the dirty
    flag set. -/
theorem WaterboxFsm.pulses_conserved [CFloat F] (eeprom : Nat → U8) (latch : Bool) (start : Nat)
    (tape : List Env) (n : Nat) :
    let base := MeterStore.restoredTotal eeprom
    let run := WaterboxFsm.firmware (F := F) n (Sys.powerUp eeprom latch start tape)
    let s := run.2
    (run.1 = some () →
      s.board.flow.totalPulses + s.board.flow.pulseCount =
        base + BitVec.ofNat 32 s.board.edges) ∧
    (s.board.attached = true →
      s.board.flow.totalPulses + s.board.flow.pulseCount + s.board.flow.taken =
          base + BitVec.ofNat 32 s.board.edges ∨
        -- `begin()` has not installed the restored total yet
        s.log = [] ∧ s.board.flow.totalPulses = 0 ∧ s.board.flow.taken = 0 ∧
          s.board.flow.pulseCount = BitVec.ofNat 32 s.board.edges) ∧
    (∀ x ∈ s.log,
      x.2.flow.totalPulses + x.2.flow.pulseCount + x.2.flow.taken =
          base + BitVec.ofNat 32 x.2.edges ∧
        (x.1 ≠ .sampled → x.2.flow.taken = 0)) ∧
    ∀ t t' : Sys F, FlowMeter.update t = (some (), t') →
      t'.board.flow.totalPulses ≠ t.board.flow.totalPulses → t'.board.flow.dirty = true := by
  intro base run s
  have hbase : MeterStore.restoredTotal eeprom = base := rfl
  have hwp := firmware_settled (F := F) (K := fun _ => True) hbase recorded_nil n
    (Sys.powerUp eeprom latch start tape) (early_powerUp latch start tape)
  have hboot : Booting (fun _ => True) [] base s := by
    refine wp_snd (wp_mono (fun _ _ h => .inr (.inr ⟨0, h⟩)) (fun _ h => h) hwp)
  refine ⟨fun hrun => ?_, fun hatt => ?_, fun x hx => ?_, fun t t' ht => ?_⟩
  · have hfin : firmware n (Sys.powerUp eeprom latch start tape) = (some (), s) :=
      Prod.ext hrun rfl
    have hs : Settled (fun _ => True) [] base s := wp_finished (m := firmware n) hwp hfin
    simpa only [FlowMeter.account, hs.taken, add_zero] using hs.account.modular
  · rcases hboot with h | h | ⟨k, h⟩
    · rw [h.attached] at hatt
      cases hatt
    · refine .inr ⟨h.log, h.total, h.taken, ?_⟩
      simpa only [FlowMeter.account, h.total, h.taken, add_zero, zero_add] using h.account.modular
    · exact .inl h.account.modular
  · rcases hboot with h | h | ⟨k, h⟩
    · rw [h.log] at hx
      cases hx
    · rw [h.log] at hx
      cases hx
    · obtain ⟨new, hlog, hnew⟩ := h.log
      have hsound := hnew x (by rw [hlog, List.append_nil] at hx; exact hx)
      exact ⟨hsound.accounted.modular, hsound.settled⟩
  · exact wp_finished (FlowMeter.update_dirty _ t rfl) ht

end Waterbox
