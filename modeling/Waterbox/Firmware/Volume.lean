import Waterbox.Firmware.Single
import Waterbox.Firmware.Pulses

namespace Waterbox

/-!
# The volume in millilitres

`totalMilliLitres()` multiplies by 1000 in 32 bits before it divides.

* `FlowMeter.totalMilliLitres_eq_iff` — the result is the true volume exactly where the
  product fits 32 bits.
* `WaterboxFsm.reportedVolumes_pairwise` — in a run whose reported totals stay below that bound the
  reported volumes never decrease.
-/

open Cut

variable {F : Type}

namespace FlowMeter

/-- The volume of `pulses`, rounded down to millilitres. -/
def trueMilliLitres (pulses : U32) (pulsesPerLiter : U16) : Nat :=
  pulses.toNat * 1000 / pulsesPerLiter.toNat

theorem toNat_milliLitres (pulses : U32) (ppl : U16) :
    (milliLitres pulses ppl).toNat = pulses.toNat * 1000 % 2 ^ 32 / ppl.toNat := by
  have hppl : (ppl.setWidth 32).toNat = ppl.toNat := by
    rw [BitVec.toNat_setWidth, Nat.mod_eq_of_lt]
    have := ppl.isLt
    omega
  rw [milliLitres, BitVec.toNat_udiv, BitVec.toNat_mul, hppl]
  rfl

theorem toNat_totalMilliLitres {fm : FlowMeter F} (h : 0 < fm.pulsesPerLiter) :
    fm.totalMilliLitres.toNat =
      fm.totalPulses.toNat * 1000 % 2 ^ 32 / fm.pulsesPerLiter.toNat := by
  have hne : fm.pulsesPerLiter ≠ 0 := by
    rintro h0
    rw [h0] at h
    exact absurd h (by decide)
  rw [totalMilliLitres, if_neg hne, toNat_milliLitres]

/-- Dropping a multiple of `2 ^ 32` from a dividend shows in any quotient by a 16-bit divisor. -/
theorem mod_div_eq_iff {m d : Nat} (hd : 0 < d) (hd16 : d < 2 ^ 16) :
    m % 2 ^ 32 / d = m / d ↔ m < 2 ^ 32 := by
  constructor
  · intro h
    by_contra hm
    -- the dropped multiple alone is worth at least one quotient
    have hstep : m % 2 ^ 32 + d ≤ m := by omega
    have hlt : m % 2 ^ 32 / d < m / d := by
      calc m % 2 ^ 32 / d < m % 2 ^ 32 / d + 1 := Nat.lt_succ_self _
        _ = (m % 2 ^ 32 + d) / d := (Nat.add_div_right _ hd).symm
        _ ≤ m / d := Nat.div_le_div_right hstep
    omega
  · intro h
    rw [Nat.mod_eq_of_lt h]

/-- `totalMilliLitres()` is exact where the product fits, and nowhere else. -/
theorem totalMilliLitres_eq_iff {fm : FlowMeter F} (h : 0 < fm.pulsesPerLiter) :
    fm.totalMilliLitres.toNat = trueMilliLitres fm.totalPulses fm.pulsesPerLiter ↔
      fm.totalPulses.toNat * 1000 < 2 ^ 32 := by
  rw [toNat_totalMilliLitres h, trueMilliLitres]
  exact mod_div_eq_iff h fm.pulsesPerLiter.isLt

end FlowMeter

namespace WaterboxFsm

variable [CFloat F]

/-- What is known of the log of a first boot, wherever the boot stands. -/
theorem firmware_log (eeprom : Nat → U8) (latch : Bool) (start : Nat) (tape : List Env) (n : Nat) :
    let s := (firmware (F := F) n (Sys.powerUp eeprom latch start tape)).2
    s.log = [] ∨ ((∀ x ∈ s.log, Event.Sound (MeterStore.restoredTotal eeprom) x) ∧
      ((MeterStore.restoredTotal eeprom).toNat + s.board.edges < 2 ^ 32 →
        Recorded (fun _ => True) s.log s.board.flow.totalPulses)) := by
  intro s
  have hboot : Booting (fun _ => True) [] (MeterStore.restoredTotal eeprom) s :=
    wp_snd (wp_mono (fun _ _ h => .inr (.inr ⟨0, h⟩)) (fun _ h => h)
      (firmware_settled rfl recorded_nil n _ (early_powerUp latch start tape)))
  rcases hboot with h | h | ⟨k, h⟩
  · exact .inl h.log
  · exact .inl h.log
  · obtain ⟨new, hlog, hnew⟩ := h.log
    rw [List.append_nil] at hlog
    exact .inr ⟨by rwa [hlog], h.ascending⟩

/-- The volumes reported in a log, newest first. -/
def reportedVolumes (log : List (Event F × Board F)) : List U32 :=
  log.filterMap fun x => x.1.totalMl?

omit [CFloat F] in
/-- Below the bound the reported volumes ascend with the totals behind them. -/
theorem reportedVolumes_pairwise {log : List (Event F × Board F)}
    (hasc : log.Pairwise fun x y => y.2.flow.totalPulses ≤ x.2.flow.totalPulses)
    (hsound : ∀ x ∈ log, ∀ t, x.1.totalMl? = some t → t = x.2.flow.totalMilliLitres)
    (hppl : ∀ x ∈ log, x.2.flow.pulsesPerLiter = pulsesPerLiter)
    (hfit : ∀ x ∈ log, x.1.totalMl?.isSome → x.2.flow.totalPulses.toNat * 1000 < 2 ^ 32) :
    (reportedVolumes log).Pairwise fun newer older => older ≤ newer := by
  rw [reportedVolumes, List.pairwise_filterMap]
  refine hasc.imp_of_mem ?_
  intro x y hx hy hle t ht t' ht'
  have hreports : ∀ z : Event F × Board F, ∀ t, z.1.totalMl? = some t → z.1.totalMl?.isSome :=
    fun z t ht => by rw [ht]; rfl
  have hvolume : ∀ z ∈ log, ∀ t, z.1.totalMl? = some t →
      t.toNat = z.2.flow.totalPulses.toNat * 1000 / 245 := by
    intro z hz t ht
    have h245 : z.2.flow.pulsesPerLiter = 245 := hppl z hz
    have hexact := (FlowMeter.totalMilliLitres_eq_iff (by rw [h245]; decide)).2
      (hfit z hz (hreports z t ht))
    rw [hsound z hz t ht, hexact, FlowMeter.trueMilliLitres, h245]
    rfl
  rw [BitVec.le_def, hvolume x hx t ht, hvolume y hy t' ht']
  rw [BitVec.le_def] at hle
  omega

/-- `totalMilliLitres()` gives a volume that fits 32 bits exactly if and only if the product with
    1000 fits as well; and in a run whose volume stays below `2 ^ 32` mL, with that product
    fitting wherever a total is reported, the reported volumes never decrease. -/
theorem volume_exact_iff :
    (∀ fm : FlowMeter F, 0 < fm.pulsesPerLiter →
      FlowMeter.trueMilliLitres fm.totalPulses fm.pulsesPerLiter < 2 ^ 32 →
      (fm.totalMilliLitres.toNat = FlowMeter.trueMilliLitres fm.totalPulses fm.pulsesPerLiter ↔
        fm.totalPulses.toNat * 1000 < 2 ^ 32)) ∧
    ∀ (eeprom : Nat → U8) (latch : Bool) (start : Nat) (tape : List Env) (n : Nat),
      let s := (firmware (F := F) n (Sys.powerUp eeprom latch start tape)).2
      ((MeterStore.restoredTotal eeprom).toNat + s.board.edges) * 1000 / pulsesPerLiter.toNat <
        2 ^ 32 →
      (∀ x ∈ s.log, x.1.totalMl?.isSome → x.2.flow.totalPulses.toNat * 1000 < 2 ^ 32) →
      (reportedVolumes s.log).Pairwise fun newer older => older ≤ newer := by
  refine ⟨fun fm hppl _ => FlowMeter.totalMilliLitres_eq_iff hppl, ?_⟩
  intro eeprom latch start tape n s hvolume hfit
  rcases firmware_log (F := F) eeprom latch start tape n with hlog | ⟨hsound, hasc⟩
  · -- cut off before the first record
    have hlog : s.log = [] := hlog
    rw [reportedVolumes, hlog]
    exact List.Pairwise.nil
  · have h245 : pulsesPerLiter.toNat = 245 := rfl
    rw [h245] at hvolume
    have hrec : Recorded (fun _ => True) s.log s.board.flow.totalPulses := hasc (by
      show (MeterStore.restoredTotal eeprom).toNat + s.board.edges < 2 ^ 32
      omega)
    exact reportedVolumes_pairwise (hrec.1.imp fun h => h trivial trivial)
      (fun x hx => (hsound x hx).reported) (fun x hx => (hsound x hx).fitted) hfit

/-- 4294967 pulses are the most that a flow meter with 245 pulses a litre reports right. -/
theorem volume_exact_max :
    let fm : FlowMeter Single :=
      { FlowMeter.reset with pulsesPerLiter := 245, totalPulses := 4294967 }
    fm.totalMilliLitres.toNat = 17530477 := by
  intro fm
  rw [(volume_exact_iff.1 fm (by decide) (by decide)).2 (by decide)]
  decide

/-- A counter that has run for years, and a household that draws water all the time. -/
def oldMeter : Nat → U8 := writeBytes blank 0 (MeterStore.image 4294700 false)

def drawing : List Env := List.replicate 400 { willing with elapsed := 1000, pulses := 1 }

/-- One pulse more and the volume starts from 0 again: the function is wrong there, and a run
    that passes the bound reports 84 mL after 17529816 mL. -/
theorem volume_not_exact :
    (∃ fm : FlowMeter Single, 0 < fm.pulsesPerLiter ∧
      FlowMeter.trueMilliLitres fm.totalPulses fm.pulsesPerLiter < 2 ^ 32 ∧
      fm.totalMilliLitres.toNat ≠
        FlowMeter.trueMilliLitres fm.totalPulses fm.pulsesPerLiter) ∧
    reportedVolumes (firmware (F := Single) 15 (Sys.powerUp oldMeter false 0 drawing)).2.log =
      [84, 17529816, 17529816] := by
  refine ⟨⟨{ FlowMeter.reset with pulsesPerLiter := 245, totalPulses := 4294968 }, ?_, ?_, ?_⟩, ?_⟩
  · decide
  · decide
  · decide
  · decide +kernel

end WaterboxFsm

end Waterbox
