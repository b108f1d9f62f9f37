import Waterbox.Firmware.Single
import Waterbox.Firmware.Synced
import Waterbox.Firmware.Volume

namespace Waterbox

/-!
# What was sent survives a power cut, if it was saved before

The Publish state saves the total after the packet that reports it has been written.  Between the
two the next boot would restore less, unless the total was saved already.

* `Durable` — the next boot restores no less than what was sent.
* `AllSaved` — no packet of an unsaved total has been written since the last save.
* `Lived` — what is true between two boots of a life that has been durable.
* `WaterboxFsm.boot_lived` — every boot without a torn write preserves it, if it ends durably.
* `WaterboxFsm.published_durable` — a life is durable if and only if the power never fails between
  such a packet and the next save.
-/

open Cut

variable {F : Type}

/-- Every total whose packet has been handed to the connection is restored by the next boot. -/
def Durable (s : Sys F) : Prop :=
  ∀ x ∈ sentRecords s.log, x.2.flow.totalPulses ≤ MeterStore.restoredTotal s.board.eeprom

/-- No packet has been written since the last save whose record was handed over while the store was
    dirty. -/
def AllSaved (s : Sys F) : Prop := ∀ x ∈ unsavedRecords s.log, x.2.store.dirty = false

instance (s : Sys F) : Decidable (AllSaved s) := inferInstanceAs (Decidable (∀ x ∈ _, _))

/-- Between two boots: what was sent is covered by the EEPROM. -/
structure Lived (s : Sys F) : Prop where
  history : WaterboxFsm.History s.log (MeterStore.restoredTotal s.board.eeprom)
  fitted : ∀ x ∈ s.log, x.2.flow.pulsesPerLiter = WaterboxFsm.pulsesPerLiter
  reported : ∀ x ∈ s.log, ∀ t, x.1.totalMl? = some t → t = x.2.flow.totalMilliLitres
  small : ∀ x ∈ sentRecords s.log, x.2.flow.totalPulses.toNat * 1000 < 2 ^ 32

/-- The volumes in the packets, newest first. -/
def sentVolumes (log : List (Event F × Board F)) : List U32 :=
  WaterboxFsm.reportedVolumes (sentRecords log)

theorem Lived.durable {s : Sys F} (h : Lived s) : Durable s := h.history.sent

/-- Where the image has covered all that was sent, a dirty record is not among the unsaved ones. -/
theorem Lived.allSaved {s : Sys F} (h : Lived s) : AllSaved s := by
  intro x hx
  cases hdirty : x.2.store.dirty with
  | false => rfl
  | true =>
    have hsent := sentRecords_of_unsaved hx
    have hrecord := sentRecords_mem hsent
    have hbehind := h.history.behind x hrecord.1 ⟨hrecord.2, hdirty⟩
    rw [h.history.kept x hx] at hbehind
    exact absurd (h.history.sent x hsent) (BitVec.not_le.2 hbehind)

theorem lived_nil {s : Sys F} (h : s.log = []) : Lived s := by
  refine ⟨?_, ?_, ?_, ?_⟩ <;> rw [h]
  · exact WaterboxFsm.history_nil _
  · exact fun x hx => nomatch hx
  · exact fun x hx => nomatch hx
  · exact fun x hx => nomatch hx

/-- The volumes that were sent do not decrease. -/
theorem Lived.ascending {s : Sys F} (h : Lived s) :
    (sentVolumes s.log).Pairwise fun newer older => older ≤ newer := by
  refine WaterboxFsm.reportedVolumes_pairwise h.history.ascending (fun x hx => ?_) (fun x hx => ?_)
    fun x hx _ => h.small x hx
  · exact h.reported x (sentRecords_mem hx).1
  · exact h.fitted x (sentRecords_mem hx).1

namespace WaterboxFsm

variable [CFloat F]

/-- No write of the boot is torn, and its volume stays below the bound of
    `totalMilliLitres()`. -/
structure RegularBoot (s : Sys F) (b : Boot) : Prop where
  whole : ∀ e ∈ b.tape, e.torn = none
  volume : ((MeterStore.restoredTotal s.board.eeprom).toNat + (s.boot b).2.board.edges) * 1000 <
    2 ^ 32

/-- A boot ends durably if and only if nothing is unsaved, and then the next one may follow. -/
theorem boot_lived (s : Sys F) (b : Boot) (hs : Lived s) (hb : RegularBoot s b) :
    (Durable (s.boot b).2 ↔ AllSaved (s.boot b).2) ∧
      (Durable (s.boot b).2 → Lived (s.boot b).2) := by
  have hcut : BootCut True s.log s.board.eeprom (MeterStore.restoredTotal s.board.eeprom)
      (s.boot b).2 :=
    wp_snd (wp_mono (fun _ _ h => .inr h.cutOff) (fun _ h => h)
      (firmware_inStep rfl hs.history b.rounds (s.powerOn b)
        ⟨powerOn_early s b, powerOn_found s b fun _ => hb.whole⟩))
  have hvolume := hb.volume
  generalize (s.boot b).2 = t at hcut hvolume ⊢
  generalize hbase : MeterStore.restoredTotal s.board.eeprom = base at hcut hvolume
  rcases hcut with ⟨hlog, heeprom⟩ | ⟨⟨k, hm⟩, hl⟩
  · -- cut off before anything was written or recorded
    have ht : Lived t := by
      refine ⟨?_, ?_, ?_, ?_⟩ <;> rw [hlog]
      · rw [heeprom]
        exact hs.history
      · exact hs.fitted
      · exact hs.reported
      · exact hs.small
    exact ⟨⟨fun _ => ht.allSaved, fun _ => ht.durable⟩, fun _ => ht⟩
  · -- the total has not wrapped, so the counts of the history and of the new records are comparable
    have hu : t.Unwrapped base := by
      rw [Sys.Unwrapped]
      omega
    refine ⟨⟨fun hdurable x hx => ?_, fun hsaved x hx => ?_⟩, fun hdurable => ?_⟩
    · cases hdirty : x.2.store.dirty with
      | false => rfl
      | true =>
        have hsent := sentRecords_of_unsaved hx
        have hrecord := sentRecords_mem hsent
        have hbehind := hl.behind hu x hrecord.1 ⟨hrecord.2, hdirty⟩
        rw [hl.kept trivial x hx] at hbehind
        exact absurd (hdurable x hsent) (BitVec.not_le.2 hbehind)
    · rcases hl.sent trivial hu x hx with hunsaved | hle
      · have hrecord := sentRecords_mem hx
        exact hl.clean trivial hu x hrecord.1 ⟨hrecord.2, hsaved x hunsaved⟩
      · exact hle
    · obtain ⟨hpair, hle⟩ := hm.ascending hu
      obtain ⟨new, hlog, hnew⟩ := hm.log
      refine ⟨⟨⟨hpair, hl.clean trivial hu⟩, hl.behind hu, hl.saved, hl.ascending hu, hdurable,
        hl.kept trivial⟩, ?_, ?_, fun x hx => ?_⟩
      · intro x hx
        rw [hlog] at hx
        rcases List.mem_append.1 hx with hx | hx
        · exact (hnew x hx).fitted
        · exact hs.fitted x hx
      · intro x hx
        rw [hlog] at hx
        rcases List.mem_append.1 hx with hx | hx
        · exact (hnew x hx).reported
        · exact hs.reported x hx
      · calc x.2.flow.totalPulses.toNat * 1000
            ≤ (base.toNat + t.board.edges) * 1000 := Nat.mul_le_mul_right _ (hl.bounded hu x hx)
          _ < 2 ^ 32 := hvolume

theorem life_take_succ (boots : List Boot) (s : Sys F) (k : Nat) (hk : k < boots.length) :
    life (boots.take (k + 1)) s = ((life (boots.take k) s).boot boots[k]).2 := by
  rw [life, life, List.take_succ_eq_append_getElem hk, List.foldl_append]
  rfl

/-- A life whose boots end durably, or end with nothing unsaved, does both. -/
theorem lived_take {boots : List Boot} {s₀ : Sys F} (hfirst : s₀.log = [])
    (hboots : ∀ k (hk : k < boots.length), RegularBoot (life (boots.take k) s₀) boots[k])
    (hends : ∀ k ≤ boots.length, Durable (life (boots.take k) s₀) ∨
      AllSaved (life (boots.take k) s₀)) :
    ∀ k ≤ boots.length, Lived (life (boots.take k) s₀) ∧ AllSaved (life (boots.take k) s₀) := by
  intro k
  induction k with
  | zero =>
    intro _
    have hlived : Lived (life (boots.take 0) s₀) := lived_nil hfirst
    exact ⟨hlived, hlived.allSaved⟩
  | succ k ih =>
    intro hk
    have hend := hends (k + 1) hk
    have hboot := boot_lived _ _ (ih (Nat.le_of_succ_le hk)).1 (hboots k hk)
    rw [← life_take_succ boots s₀ k hk] at hboot
    have hdurable : Durable (life (boots.take (k + 1)) s₀) := hend.elim id hboot.1.2
    exact ⟨hboot.2 hdurable, hboot.1.1 hdurable⟩

/-- A life without torn writes, and below the volume limit, is durable wherever the power fails in
    it if and only if it never fails between the packet of an unsaved total and the next save.
    Then the volumes that are sent never decrease, over all restarts. -/
theorem published_durable (boots : List Boot) (s₀ : Sys F) (hfirst : s₀.log = [])
    (hboots : ∀ k (hk : k < boots.length), RegularBoot (life (boots.take k) s₀) boots[k]) :
    ((∀ k ≤ boots.length, Durable (life (boots.take k) s₀)) ↔
      ∀ k ≤ boots.length, AllSaved (life (boots.take k) s₀)) ∧
    ((∀ k ≤ boots.length, AllSaved (life (boots.take k) s₀)) →
      (sentVolumes (life boots s₀).log).Pairwise fun newer older => older ≤ newer) := by
  refine ⟨⟨fun hdurable k hk => ?_, fun hsaved k hk => ?_⟩, fun hsaved => ?_⟩
  · exact (lived_take hfirst hboots (fun k hk => .inl (hdurable k hk)) k hk).2
  · exact (lived_take hfirst hboots (fun k hk => .inr (hsaved k hk)) k hk).1.durable
  · have hlived := (lived_take hfirst hboots (fun k hk => .inr (hsaved k hk)) boots.length le_rfl).1
    rw [List.take_length] at hlived
    exact hlived.ascending

/-- A household that draws water. -/
def drawingHome (steps rounds : Nat) : Boot where
  start := 0
  tape := List.replicate steps { willing with elapsed := 1000, pulses := 2 }
  rounds := rounds

theorem drawingHome_whole (steps rounds : Nat) :
    ∀ e ∈ (drawingHome steps rounds).tape, e.torn = none := by
  intro e he
  rw [List.eq_of_mem_replicate he]
  rfl

/-- It draws water, and its power fails twice, each time after the total was saved. -/
def drawnThenSaved : List Boot := [drawingHome 150 10, drawingHome 140 10]

theorem published_durable_drawn :
    (∀ k ≤ drawnThenSaved.length,
      Durable (life (drawnThenSaved.take k) (Sys.powerUp (F := Single) blank false 0 []))) ∧
    sentVolumes (life drawnThenSaved (Sys.powerUp (F := Single) blank false 0 [])).log =
      [1706, 1706, 848, 848] ∧
    (sentVolumes (life drawnThenSaved (Sys.powerUp (F := Single) blank false 0 [])).log).Pairwise
      fun newer older => older ≤ newer := by
  have hfirst : RegularBoot
      (life (drawnThenSaved.take 0) (Sys.powerUp (F := Single) blank false 0 []))
      (drawingHome 150 10) := ⟨drawingHome_whole 150 10, by decide +kernel⟩
  have hsecond : RegularBoot
      (life (drawnThenSaved.take 1) (Sys.powerUp (F := Single) blank false 0 []))
      (drawingHome 140 10) := ⟨drawingHome_whole 140 10, by decide +kernel⟩
  have hboots : ∀ k (hk : k < drawnThenSaved.length), RegularBoot
      (life (drawnThenSaved.take k) (Sys.powerUp (F := Single) blank false 0 []))
      drawnThenSaved[k] := by
    intro k hk
    match k, hk with
    | 0, _ => exact hfirst
    | 1, _ => exact hsecond
  have hsaved : ∀ k ≤ drawnThenSaved.length,
      AllSaved (life (drawnThenSaved.take k) (Sys.powerUp (F := Single) blank false 0 [])) := by
    decide +kernel
  have hlife := published_durable drawnThenSaved _ rfl hboots
  exact ⟨hlife.1.2 hsaved, by decide +kernel, hlife.2 hsaved⟩

/-- The power fails between the packet and the saving. -/
def drawnThenCut : List Boot :=
  [drawingHome 120 10, { start := 0, tape := List.replicate 200 willing, rounds := 5 }]

/-- A telemetry record reports 208 pulses to the broker, the next boot restores 102, and the
    volume reported next is smaller. -/
theorem published_not_durable :
    ¬Durable (life (drawnThenCut.take 1) (Sys.powerUp (F := Single) blank false 0 [])) ∧
    (∀ b ∈ drawnThenCut, ∀ e ∈ b.tape, e.torn = none) ∧
    sentVolumes (life drawnThenCut (Sys.powerUp (F := Single) blank false 0 [])).log =
      [416, 416, 848] := by
  refine ⟨?_, ?_, by decide +kernel⟩
  · intro hdurable
    have hsome : ∃ x ∈ sentRecords
        (life (drawnThenCut.take 1) (Sys.powerUp (F := Single) blank false 0 [])).log,
        x.2.flow.totalPulses = 208 := by decide +kernel
    have hrestored : MeterStore.restoredTotal
        (life (drawnThenCut.take 1) (Sys.powerUp (F := Single) blank false 0 [])).board.eeprom =
        102 := by decide +kernel
    obtain ⟨x, hx, htotal⟩ := hsome
    have hle := hdurable x hx
    rw [htotal, hrestored] at hle
    exact absurd hle (by decide)
  · intro b hb e he
    simp only [drawnThenCut, List.mem_cons, List.not_mem_nil, or_false] at hb
    rcases hb with rfl | rfl
    · exact drawingHome_whole 120 10 e he
    · rw [List.eq_of_mem_replicate he]
      rfl

end WaterboxFsm

end Waterbox
