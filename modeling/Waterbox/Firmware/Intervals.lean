import Waterbox.Firmware.Volume

namespace Waterbox

/-!
# The volume of an interval

`intervalMilliLitres()` is the volume of the flow meter's last sample, which is taken every second;
`totalMilliLitres()` is the volume of all of them.  A record is published about every minute, and
both go into it.

* `Metering` — what happens to the volumes: samples and published records.
* `Metering.Consistent` — over any stretch of records the two tell the same story.
* `Metering.Covered` — the samples between two records that are not reported by the second add up to
  at most the rounding.
* `Metering.consistent_iff` — one is the other.
* `FlowMeter.update_leveled`, `WaterboxFsm.firmware_booked` — what a run records.
* `WaterboxFsm.intervals_consistent_iff` — whole runs.
-/

open Cut

variable {F : Type}

/-- A sample of the flow meter with its pulses, or a telemetry record that is published. -/
inductive Metering
  | sample (pulses : U32)
  | record (mls tlMl : U32)
deriving DecidableEq

/-! ### Samples and records, newest first -/

namespace Metering

/-- The pulses of the samples. -/
def samples : List Metering → List U32
  | [] => []
  | .sample q :: ms => q :: samples ms
  | .record _ _ :: ms => samples ms

/-- The pulses of some samples together. -/
def pulses (qs : List U32) : Nat := (qs.map BitVec.toNat).sum

/-- All pulses since the meter was new. -/
def total (base : U32) (ms : List Metering) : Nat := base.toNat + pulses (samples ms)

/-- The pulses of the last sample, 0 where there is none. -/
def lastSample (ms : List Metering) : U32 := (samples ms).headD 0

/-- The volume of a number of pulses, in mL. -/
def volume (n : Nat) : Nat := n * 1000 / WaterboxFsm.pulsesPerLiter.toNat

/-- The sum of the published interval volumes. -/
def reported : List Metering → Nat
  | [] => 0
  | .sample _ :: ms => reported ms
  | .record mls _ :: ms => mls.toNat + reported ms

/-- The samples since the last record. -/
def sinceRecord : List Metering → List U32
  | .sample q :: ms => q :: sinceRecord ms
  | _ => []

/-- What was recorded up to the last record. -/
def upToRecord : List Metering → List Metering
  | .sample _ :: ms => upToRecord ms
  | ms => ms

/-- Every record holds the volume of the last sample and that of the total. -/
def Booked (base : U32) : List Metering → Prop
  | [] => True
  | .sample _ :: ms => Booked base ms
  | .record mls tlMl :: ms =>
    mls = FlowMeter.milliLitres (lastSample ms) WaterboxFsm.pulsesPerLiter ∧
    tlMl = FlowMeter.milliLitres (BitVec.ofNat 32 (total base ms)) WaterboxFsm.pulsesPerLiter ∧
    Booked base ms

/-- Over any stretch of records, the interval volumes after the first record add up to the
    difference of the totals, up to 1 mL for each sample in the stretch. -/
def Consistent (ms : List Metering) : Prop :=
  ∀ newer between older mls₁ tl₁ mls₀ tl₀,
    ms = newer ++ .record mls₁ tl₁ :: (between ++ .record mls₀ tl₀ :: older) →
    |((mls₁.toNat + reported between : Nat) : Int) - ((tl₁.toNat : Int) - tl₀.toNat)| ≤
      (samples between).length

/-- The pulses of all samples since the last record but the newest, the only one that the next
    record reports, are worth at most 1 mL for each sample, up to the rounding; where there is no
    sample, the one that is reported again was empty. -/
def Fits (base : U32) (ms : List Metering) : Prop :=
  match sinceRecord ms with
  | [] => lastSample ms = 0
  | q :: missed =>
    let before := total base (upToRecord ms)
    volume (before + pulses missed + q.toNat) ≤ volume before + volume q.toNat + (missed.length + 1)

/-- This is so for any two consecutive records. -/
def Covered (base : U32) : List Metering → Prop
  | [] => True
  | .sample _ :: ms => Covered base ms
  | .record _ _ :: ms => (upToRecord ms ≠ [] → Fits base ms) ∧ Covered base ms

instance (base : U32) (ms : List Metering) : Decidable (Fits base ms) := by
  unfold Fits
  cases sinceRecord ms <;> infer_instance

instance decidableCovered (base : U32) : (ms : List Metering) → Decidable (Covered base ms)
  | [] => isTrue trivial
  | .sample _ :: ms => decidableCovered base ms
  | .record _ _ :: ms =>
    have := decidableCovered base ms
    inferInstanceAs (Decidable ((upToRecord ms ≠ [] → Fits base ms) ∧ Covered base ms))

/-! #### One stretch after the other -/

section Gap

variable (gap : List U32) (base mls tl : U32) (older : List Metering)

@[simp] theorem samples_append (ms ms' : List Metering) :
    samples (ms ++ ms') = samples ms ++ samples ms' := by
  induction ms with
  | nil => rfl
  | cons m ms ih => cases m <;> simp [samples, ih]

@[simp] theorem samples_gap : samples (gap.map .sample) = gap := by
  induction gap with
  | nil => rfl
  | cons q gap ih => simp [samples, ih]

@[simp] theorem reported_gap : reported (gap.map .sample) = 0 := by
  induction gap with
  | nil => rfl
  | cons q gap ih => simp [reported, ih]

@[simp] theorem sinceRecord_gap :
    sinceRecord (gap.map .sample ++ .record mls tl :: older) = gap := by
  induction gap with
  | nil => rfl
  | cons q gap ih => simp [sinceRecord, ih]

@[simp] theorem upToRecord_gap :
    upToRecord (gap.map .sample ++ .record mls tl :: older) = .record mls tl :: older := by
  induction gap with
  | nil => rfl
  | cons q gap ih => simp [upToRecord, ih]

theorem pulses_append (qs qs' : List U32) : pulses (qs ++ qs') = pulses qs + pulses qs' := by
  simp [pulses]

theorem total_gap :
    total base (gap.map .sample ++ .record mls tl :: older) = total base older + pulses gap := by
  simp only [total, samples_append, samples_gap, samples, pulses_append]
  omega

theorem booked_gap :
    Booked base (gap.map .sample ++ .record mls tl :: older) ↔
      Booked base (.record mls tl :: older) := by
  induction gap with
  | nil => rfl
  | cons q gap ih => exact ih

theorem covered_gap :
    Covered base (gap.map .sample ++ .record mls tl :: older) ↔
      Covered base (.record mls tl :: older) := by
  induction gap with
  | nil => rfl
  | cons q gap ih => exact ih

end Gap

/-- The samples since the last record, and what was before. -/
theorem eq_gap (ms : List Metering) : ms = (sinceRecord ms).map .sample ++ upToRecord ms := by
  induction ms with
  | nil => rfl
  | cons m ms ih =>
    cases m with
    | sample q =>
      show Metering.sample q :: ms = .sample q :: ((sinceRecord ms).map .sample ++ upToRecord ms)
      rw [← ih]
    | record mls tl => rfl

/-- Up to the last record means that the list is empty or begins with it. -/
theorem upToRecord_cases (ms : List Metering) :
    upToRecord ms = [] ∨ ∃ mls tl older, upToRecord ms = .record mls tl :: older := by
  induction ms with
  | nil => exact .inl rfl
  | cons m ms ih =>
    cases m with
    | sample q => exact ih
    | record mls tl => exact .inr ⟨mls, tl, ms, rfl⟩

/-- Below the limit a volume is not truncated. -/
theorem toNat_milliLitres_volume {n : U32} (h : n.toNat * 1000 < 2 ^ 32) :
    (FlowMeter.milliLitres n WaterboxFsm.pulsesPerLiter).toNat = volume n.toNat := by
  rw [FlowMeter.toNat_milliLitres, Nat.mod_eq_of_lt h]
  rfl

/-- What is not above a number below the limit is below it too. -/
theorem below_limit {m n : Nat} (hle : m ≤ n) (h : n * 1000 < 2 ^ 32) : m * 1000 < 2 ^ 32 :=
  lt_of_le_of_lt (Nat.mul_le_mul_right 1000 hle) h

theorem lastSample_le_total (base : U32) (ms : List Metering) :
    (lastSample ms).toNat ≤ total base ms := by
  unfold lastSample total pulses
  cases samples ms with
  | nil => exact Nat.zero_le _
  | cons q qs =>
    rw [List.headD_cons, List.map_cons, List.sum_cons]
    omega

/-- The numbers in a record, below the limit. -/
theorem Booked.values {base mls tl : U32} {ms : List Metering}
    (h : Booked base (.record mls tl :: ms)) (hlimit : total base ms * 1000 < 2 ^ 32) :
    mls.toNat = volume (lastSample ms).toNat ∧ tl.toNat = volume (total base ms) := by
  have hlast := below_limit (lastSample_le_total base ms) hlimit
  have hmod : (BitVec.ofNat 32 (total base ms)).toNat = total base ms :=
    Nat.mod_eq_of_lt (by omega)
  refine ⟨?_, ?_⟩
  · rw [h.1]
    exact toNat_milliLitres_volume hlast
  · rw [h.2.1, toNat_milliLitres_volume (by rw [hmod]; exact hlimit), hmod]

/-- Two consecutive records. -/
theorem pair_iff {base mls₁ tl₁ mls₀ tl₀ : U32} {gap : List U32} {older : List Metering}
    (h : Booked base (.record mls₁ tl₁ :: (gap.map .sample ++ .record mls₀ tl₀ :: older)))
    (hlimit : total base (gap.map .sample ++ .record mls₀ tl₀ :: older) * 1000 < 2 ^ 32) :
    |(mls₁.toNat : Int) - ((tl₁.toNat : Int) - tl₀.toNat)| ≤ gap.length ↔
      Fits base (gap.map .sample ++ .record mls₀ tl₀ :: older) := by
  obtain ⟨hmls, htl⟩ := h.values hlimit
  have hbefore : Booked base (.record mls₀ tl₀ :: older) :=
    (booked_gap gap base mls₀ tl₀ older).1 h.2.2
  rw [total_gap] at hlimit htl
  obtain ⟨-, htl₀⟩ := hbefore.values (below_limit (Nat.le_add_right _ _) hlimit)
  unfold Fits
  rw [sinceRecord_gap, hmls, htl, htl₀]
  have h245 : WaterboxFsm.pulsesPerLiter.toNat = 245 := rfl
  cases gap with
  | nil =>
    -- the record reports the last sample again
    have hzero : ∀ q : U32, q = 0 ↔ q.toNat = 0 := by
      intro q
      constructor
      · rintro rfl
        rfl
      · exact fun hq => BitVec.eq_of_toNat_eq hq
    show _ ↔ lastSample _ = 0
    rw [hzero, abs_le]
    simp only [volume, h245, pulses, List.map_nil, List.nil_append, List.sum_nil, List.length_nil]
    omega
  | cons q missed =>
    have hlast : lastSample ((q :: missed).map .sample ++ .record mls₀ tl₀ :: older) = q := rfl
    rw [hlast, upToRecord_gap, abs_le]
    have hsum : pulses (q :: missed) = q.toNat + pulses missed := by
      simp [pulses]
    have htotal : total base (.record mls₀ tl₀ :: older) = total base older := rfl
    simp only [volume, h245, hsum, htotal, List.length_cons]
    omega

/-- If any two consecutive records fit, so does a whole stretch, by induction on it. -/
theorem consistent_of_covered {base : U32} : ∀ (between : List Metering) (gap : List U32)
    {mls₁ tl₁ mls₀ tl₀ : U32} {older : List Metering},
    let rest := gap.map .sample ++ (between ++ .record mls₀ tl₀ :: older)
    Booked base (.record mls₁ tl₁ :: rest) → Covered base (.record mls₁ tl₁ :: rest) →
    total base rest * 1000 < 2 ^ 32 →
    |((mls₁.toNat + reported between : Nat) : Int) - ((tl₁.toNat : Int) - tl₀.toNat)| ≤
      gap.length + (samples between).length
  | [], gap, mls₁, tl₁, mls₀, tl₀, older => by
    intro rest hbooked hcovered hlimit
    have hfits : Fits base rest := by
      refine hcovered.1 ?_
      show upToRecord (gap.map .sample ++ .record mls₀ tl₀ :: older) ≠ []
      rw [upToRecord_gap]
      exact List.cons_ne_nil _ _
    have hpair := (pair_iff hbooked hlimit).2 hfits
    simpa [reported, samples] using hpair
  | .sample q :: between, gap, mls₁, tl₁, mls₀, tl₀, older => by
    intro rest hbooked hcovered hlimit
    -- the sample joins the gap
    have hrest : rest = (gap ++ [q]).map .sample ++ (between ++ .record mls₀ tl₀ :: older) := by
      simp [rest]
    rw [hrest] at hbooked hcovered hlimit
    have ih := consistent_of_covered between (gap ++ [q]) hbooked hcovered hlimit
    rw [List.length_append, List.length_singleton] at ih
    simp only [reported, samples, List.length_cons]
    push_cast at ih ⊢
    linarith
  | .record mls tl :: between, gap, mls₁, tl₁, mls₀, tl₀, older => by
    intro rest hbooked hcovered hlimit
    have hrest :
        rest = gap.map .sample ++ .record mls tl :: (between ++ .record mls₀ tl₀ :: older) := by
      simp [rest]
    rw [hrest] at hbooked hcovered hlimit
    have hfits : Fits base (gap.map .sample ++ .record mls tl ::
        (between ++ .record mls₀ tl₀ :: older)) := by
      refine hcovered.1 ?_
      rw [upToRecord_gap]
      exact List.cons_ne_nil _ _
    have hpair := (pair_iff hbooked hlimit).2 hfits
    have hbooked' := (booked_gap _ _ _ _ _).1 hbooked.2.2
    have hcovered' := (covered_gap _ _ _ _ _).1 hcovered.2
    rw [total_gap] at hlimit
    have hlimit' : total base (between ++ .record mls₀ tl₀ :: older) * 1000 < 2 ^ 32 :=
      below_limit (Nat.le_add_right _ _) hlimit
    have ih := consistent_of_covered between [] hbooked' hcovered' hlimit'
    simp only [reported, samples, List.length_nil] at ih ⊢
    rw [abs_le] at hpair ih ⊢
    push_cast at hpair ih ⊢
    constructor <;> linarith

/-- What has been booked stays so. -/
theorem Booked.append {base : U32} {newer ms : List Metering} (h : Booked base (newer ++ ms)) :
    Booked base ms := by
  induction newer with
  | nil => exact h
  | cons m newer ih =>
    cases m with
    | sample q => exact ih h
    | record mls tl => exact ih h.2.2

theorem Covered.append {base : U32} {newer ms : List Metering} (h : Covered base (newer ++ ms)) :
    Covered base ms := by
  induction newer with
  | nil => exact h
  | cons m newer ih =>
    cases m with
    | sample q => exact ih h
    | record mls tl => exact ih h.2

/-- Totals only grow. -/
theorem total_append_le (base : U32) (newer ms : List Metering) :
    total base ms ≤ total base (newer ++ ms) := by
  simp only [total, samples_append, pulses_append]
  omega

/-- The converse needs the stretches of two consecutive records only. -/
theorem covered_of_consistent {base : U32} {ms : List Metering} (hbooked : Booked base ms)
    (hlimit : total base ms * 1000 < 2 ^ 32) (h : Consistent ms) : Covered base ms := by
  induction ms with
  | nil => trivial
  | cons m ms ih =>
    have hrest : Consistent ms := by
      intro newer between older mls₁ tl₁ mls₀ tl₀ heq
      exact h (m :: newer) between older mls₁ tl₁ mls₀ tl₀ (by rw [heq, List.cons_append])
    have hlimit' := below_limit (total_append_le base [m] ms) hlimit
    cases m with
    | sample q => exact ih hbooked hlimit' hrest
    | record mls₁ tl₁ =>
      refine ⟨fun hrecord => ?_, ih hbooked.2.2 hlimit' hrest⟩
      rcases upToRecord_cases ms with hnone | ⟨mls₀, tl₀, older, hup⟩
      · exact absurd hnone hrecord
      · -- the two records are a stretch of their own
        have heq := eq_gap ms
        rw [hup] at heq
        have hpair := h [] ((sinceRecord ms).map .sample) older mls₁ tl₁ mls₀ tl₀ (by
          rw [List.nil_append, ← heq])
        rw [reported_gap, samples_gap, Nat.add_zero] at hpair
        rw [heq] at hbooked ⊢
        rw [heq] at hlimit'
        exact (pair_iff hbooked hlimit').1 hpair

/-- Interval volumes and totals tell the same story, if and only if this is so for any two
    consecutive records. -/
theorem consistent_iff {base : U32} {ms : List Metering} (hbooked : Booked base ms)
    (hlimit : total base ms * 1000 < 2 ^ 32) : Consistent ms ↔ Covered base ms := by
  refine ⟨covered_of_consistent hbooked hlimit, fun hcovered => ?_⟩
  intro newer between older mls₁ tl₁ mls₀ tl₀ heq
  rw [heq] at hbooked hcovered hlimit
  have hlimit' := below_limit (total_append_le base newer _) hlimit
  have hrest := below_limit (total_append_le base [.record mls₁ tl₁] _) hlimit'
  have hstretch := consistent_of_covered between [] hbooked.append hcovered.append hrest
  simpa using hstretch

/-! ### The log of a run -/

/-- One more entry of the log.  The record of a call of `publishTelemetry` waits for its packet,
    which the next call of a function that publishes gives up. -/
def note (x : Event F × Board F) (acc : List Metering × Option (U32 × U32)) :
    List Metering × Option (U32 × U32) :=
  match x.1 with
  | .sampled => (.sample x.2.flow.taken :: acc.1, acc.2)
  | .telemetry r => (acc.1, some (r.intervalMl, r.totalMl))
  | .info _ => (acc.1, none)
  | .heartbeat _ => (acc.1, none)
  | .published _ _ =>
    match acc.2 with
    | some (mls, tlMl) => (.record mls tlMl :: acc.1, none)
    | none => acc
  | _ => acc

/-- The samples and the published records of a log, and the record that waits. -/
def ofLog (log : List (Event F × Board F)) : List Metering × Option (U32 × U32) :=
  log.foldr note ([], none)

end Metering

open Metering

/-- Total and records agree with the samples in the log, where `owed` pulses of the last one are
    still to be added to the total. -/
structure Tallied (base owed : U32) (s : Sys F) : Prop where
  total : s.board.flow.totalPulses + owed = BitVec.ofNat 32 (total base (ofLog s.log).1)
  fitted : s.board.flow.pulsesPerLiter = WaterboxFsm.pulsesPerLiter
  booked : Booked base (ofLog s.log).1

/-- Outside `update()`: also the volume of the interval is that of the last sample. -/
structure Leveled (base : U32) (s : Sys F) : Prop extends Tallied base 0 s where
  interval : s.board.flow.intervalMilliLitres =
    FlowMeter.milliLitres (lastSample (ofLog s.log).1) WaterboxFsm.pulsesPerLiter

/-- While records are published: the one that waits has the volumes of the moment. -/
structure Publishing (base : U32) (s : Sys F) : Prop extends Leveled base s where
  waiting : ∀ mls tlMl, (ofLog s.log).2 = some (mls, tlMl) →
    mls = s.board.flow.intervalMilliLitres ∧ tlMl = s.board.flow.totalMilliLitres

/-- Where a run can be cut off. -/
def BookedLog (base : U32) (s : Sys F) : Prop := Booked base (ofLog s.log).1

section Frame

variable {base owed : U32} {s s' : Sys F}

theorem Tallied.frame (h : Tallied base owed s)
    (ht : s'.board.flow.totalPulses = s.board.flow.totalPulses)
    (hp : s'.board.flow.pulsesPerLiter = s.board.flow.pulsesPerLiter)
    (hlog : (ofLog s'.log).1 = (ofLog s.log).1) : Tallied base owed s' := by
  constructor
  · rw [ht, hlog]
    exact h.total
  · rw [hp]
    exact h.fitted
  · rw [hlog]
    exact h.booked

theorem Leveled.frame (h : Leveled base s)
    (ht : s'.board.flow.totalPulses = s.board.flow.totalPulses)
    (hi : s'.board.flow.intervalMilliLitres = s.board.flow.intervalMilliLitres)
    (hp : s'.board.flow.pulsesPerLiter = s.board.flow.pulsesPerLiter)
    (hlog : (ofLog s'.log).1 = (ofLog s.log).1) : Leveled base s' := by
  refine ⟨h.toTallied.frame ht hp hlog, ?_⟩
  rw [hi, hlog]
  exact h.interval

theorem Publishing.frame (h : Publishing base s)
    (ht : s'.board.flow.totalPulses = s.board.flow.totalPulses)
    (hi : s'.board.flow.intervalMilliLitres = s.board.flow.intervalMilliLitres)
    (hp : s'.board.flow.pulsesPerLiter = s.board.flow.pulsesPerLiter)
    (hlog : ofLog s'.log = ofLog s.log) : Publishing base s' := by
  refine ⟨h.toLeveled.frame ht hi hp (by rw [hlog]), ?_⟩
  rw [hlog, hi, FlowMeter.totalMilliLitres, ht, hp]
  exact h.waiting

/-- One event more in the log. -/
theorem ofLog_logged (s : Sys F) (ev : Event F) :
    ofLog (s.logged ev).log = note (ev, s.board) (ofLog s.log) := rfl

/-- The events that matter are those of `update()` and of the functions that publish. -/
theorem ofLog_note {ev : Event F} (hev : ev.isNote = true) (s : Sys F) :
    ofLog (s.logged ev).log = ofLog s.log := by
  cases ev <;> first | rfl | cases hev

theorem bookedLog_of_leveled (s : Sys F) (h : Leveled base s) : BookedLog base s := h.booked

theorem bookedLog_of_publishing (s : Sys F) (h : Publishing base s) : BookedLog base s := h.booked

theorem Leveled.after (h : Leveled base s) (e : Env) (rest : List Env) :
    Leveled base (s.after e rest) :=
  h.frame (Board.after_totalPulses _ _) (Board.after_intervalMilliLitres _ _)
    (Board.after_pulsesPerLiter _ _) rfl

theorem Leveled.fsmStable : FsmStable (F := F) (Leveled base) := by
  refine .of_unseen (fun _ e rest _ h => h.after e rest) ?_ ?_ ?_ ?_ fun s ev hev h => ?_
  · exact fun _ _ h => h.frame rfl rfl rfl rfl
  · exact fun _ _ h => h.frame rfl rfl rfl rfl
  · exact fun _ _ h => h.frame rfl rfl rfl rfl
  · exact fun _ _ h => h.frame rfl rfl rfl rfl
  · exact h.frame rfl rfl rfl (by rw [ofLog_note hev])

theorem Publishing.fsmStable : FsmStable (F := F) (Publishing base) := by
  refine .of_unseen (fun s e rest _ h => ?_) ?_ ?_ ?_ ?_ fun s ev hev h => ?_
  · exact h.frame (Board.after_totalPulses _ _) (Board.after_intervalMilliLitres _ _)
      (Board.after_pulsesPerLiter _ _) rfl
  · exact fun _ _ h => h.frame rfl rfl rfl rfl
  · exact fun _ _ h => h.frame rfl rfl rfl rfl
  · exact fun _ _ h => h.frame rfl rfl rfl rfl
  · exact fun _ _ h => h.frame rfl rfl rfl rfl
  · exact h.frame rfl rfl rfl (ofLog_note hev s)

end Frame

/-! ### `update()` -/

namespace FlowMeter

variable {base : U32}

/-- The last sample has been noted; `owed` of its pulses are still to be added to the total. -/
structure Sampled (base owed pulses : U32) (s : Sys F) : Prop extends Tallied base owed s where
  last : lastSample (ofLog s.log).1 = pulses

theorem Sampled.frame {owed pulses : U32} {s s' : Sys F} (h : Sampled base owed pulses s)
    (ht : s'.board.flow.totalPulses = s.board.flow.totalPulses)
    (hp : s'.board.flow.pulsesPerLiter = s.board.flow.pulsesPerLiter) (hlog : s'.log = s.log) :
    Sampled base owed pulses s' := by
  refine ⟨h.toTallied.frame ht hp (by rw [hlog]), ?_⟩
  rw [hlog]
  exact h.last

theorem preempt_sampled {owed pulses : U32} :
    Keeps (Sampled base owed pulses) (BookedLog base) (preempt : Fw F Unit) :=
  preempt_keeps (fun _ h => h.booked) fun _ _ _ _ h =>
    h.frame (Board.after_totalPulses _ _) (Board.after_pulsesPerLiter _ _) rfl

theorem takePulses_leveled : Triple (Leveled base) (takePulses : Fw F U32)
    (fun n s => Leveled base s ∧ s.board.flow.taken = n) (BookedLog base) := by
  refine look_bind fun b => ?_
  refine Triple.bind (Q := fun _ s => Leveled base s ∧ s.board.flow.taken = b.flow.pulseCount) ?_
    fun _ _ h => h
  rintro s ⟨hs, rfl⟩
  exact ⟨hs.frame rfl rfl rfl rfl, rfl⟩

/-- The sample is noted with the pulses that were taken. -/
theorem Sampled.of_leveled {pulses : U32} {s : Sys F} (h : Leveled base s)
    (htaken : s.board.flow.taken = pulses) : Sampled base pulses pulses (s.logged .sampled) := by
  have hlog : (ofLog (s.logged .sampled).log).1 = .sample pulses :: (ofLog s.log).1 := by
    rw [← htaken]
    rfl
  refine ⟨⟨?_, h.fitted, ?_⟩, ?_⟩
  · -- the total is that of the older samples
    have hold : s.board.flow.totalPulses =
        BitVec.ofNat 32 (Metering.total base (ofLog s.log).1) := by
      rw [← h.total, add_zero]
    have hsum : Metering.total base (.sample pulses :: (ofLog s.log).1) =
        Metering.total base (ofLog s.log).1 + pulses.toNat := by
      simp only [Metering.total, samples, Metering.pulses, List.map_cons, List.sum_cons]
      omega
    show s.board.flow.totalPulses + pulses = _
    rw [hlog, hsum, BitVec.ofNat_add, ← hold, BitVec.ofNat_toNat, BitVec.setWidth_eq]
  · rw [hlog]
    exact h.booked
  · rw [hlog]
    rfl

/-- Adding the pulses in hand to the total. -/
theorem fold_sampled (pulses : U32) : Triple (Sampled base pulses pulses)
    (fold pulses : Fw F Unit) (fun _ => Sampled base 0 pulses) (BookedLog base) := by
  refine Triple.ite (fun _ => ?_) (fun hzero => ?_)
  · refine Triple.bind (Q := fun _ => Sampled base 0 pulses) (fun s hs => ?_) fun _ => ?_
    · refine ⟨⟨?_, hs.fitted, hs.booked⟩, hs.last⟩
      show s.board.flow.totalPulses + pulses + 0 = _
      rw [add_zero]
      exact hs.total
    · refine Keeps.bind preempt_sampled fun _ => change_keeps fun s hs => ?_
      exact hs.frame rfl rfl rfl
  · -- nothing was taken
    have hzero : pulses = 0 := not_not.1 hzero
    subst hzero
    exact fun s hs => hs.frame rfl rfl rfl

variable [CFloat F]

/-- The volume of the interval becomes that of the sample. -/
theorem measure_sampled (pulses elapsed : U32) : Triple (Sampled base 0 pulses)
    (measure pulses elapsed : Fw F Unit) (fun _ => Leveled base) (BookedLog base) := by
  intro s hs
  have hppl : s.board.flow.pulsesPerLiter ≠ 0 := by
    rw [hs.fitted]
    decide
  have hs' : Sampled base 0 pulses (measure pulses elapsed s).2 := by
    refine hs.frame ?_ ?_ rfl
    · show (if _ then _ else _ : FlowMeter F).totalPulses = _
      rw [if_neg hppl]
    · show (if _ then _ else _ : FlowMeter F).pulsesPerLiter = _
      rw [if_neg hppl]
  show Leveled base (measure pulses elapsed s).2
  refine ⟨hs'.toTallied, ?_⟩
  rw [hs'.last]
  show (if _ then _ else _ : FlowMeter F).intervalMilliLitres = _
  rw [if_neg hppl, ← hs.fitted]

/-- A sample writes its volume over that of the last one. -/
theorem sample_leveled (now elapsed : U32) :
    Keeps (Leveled base) (BookedLog base) (sample now elapsed : Fw F Unit) := by
  refine Triple.bind takePulses_leveled fun pulses => ?_
  refine Triple.bind (Q := fun _ => Sampled base pulses pulses) ?_ fun _ => ?_
  · exact fun s hs => Sampled.of_leveled hs.1 hs.2
  refine Triple.bind preempt_sampled fun _ => ?_
  refine Triple.bind (Q := fun _ => Sampled base pulses pulses) ?_ fun _ => ?_
  · exact fun s hs => hs.frame rfl rfl rfl
  refine Triple.bind preempt_sampled fun _ => ?_
  refine Triple.bind (fold_sampled pulses) fun _ => ?_
  exact Triple.bind preempt_sampled fun _ => measure_sampled pulses elapsed

/-- One call of `update()`. -/
theorem update_leveled : Keeps (Leveled base) (BookedLog base) (update : Fw F Unit) := by
  refine Keeps.bind (Leveled.fsmStable.millis bookedLog_of_leveled) fun now => ?_
  exact Keeps.bind (look_keeps _) fun fm => Keeps.ite (Keeps.pure _) (sample_leveled _ _)

omit [CFloat F] in
theorem consumeDirty_leveled :
    Keeps (Leveled base) (BookedLog base) (consumeDirty : Fw F Bool) := by
  refine Keeps.bind (look_keeps _) fun _ => Keeps.bind ?_ fun _ => ?_
  · exact preempt_keeps bookedLog_of_leveled fun _ e rest _ hs => hs.after e rest
  · exact Keeps.bind (change_keeps fun _ hs => hs.frame rfl rfl rfl rfl) fun _ => Keeps.pure _

end FlowMeter

/-! ### The FSM -/

namespace WaterboxFsm

variable [CFloat F] {base : U32}

omit [CFloat F] in
theorem save_leveled (pulses : U32) (v : Bool) :
    Keeps (Leveled base) (BookedLog base) (MeterStore.save pulses v : Fw F Unit) :=
  MeterStore.save_keeps Leveled.fsmStable.toPortStable bookedLog_of_leveled
    (fun _ _ hs => hs.frame rfl rfl rfl rfl) (fun _ _ hs => hs.frame rfl rfl rfl rfl)
    (fun _ hs => hs.frame rfl rfl rfl rfl) pulses v

omit [CFloat F] in
theorem persistNow_leveled :
    Keeps (Leveled base) (BookedLog base) (persistNow : Fw F Unit) :=
  Keeps.bind (look_keeps _) fun _ => save_leveled _ _

/-- Callbacks do not touch the meter. -/
theorem kept_leveled : Kept (F := F) (Leveled base) (BookedLog base) where
  service :=
    service_keeps Leveled.fsmStable.toServiceStable.verdictStable bookedLog_of_leveled
      FlowMeter.update_leveled
      FlowMeter.consumeDirty_leveled
      (MeterStore.markDirty_keeps fun _ _ hs => hs.frame rfl rfl rfl rfl) save_leveled
      (fun _ _ hs => hs.frame rfl rfl rfl rfl)
  command := by
    have hvalve : ∀ (s : Sys F) v l, Leveled base s → Leveled base (s.withValve v l) :=
      fun _ _ _ hs => hs.frame rfl rfl rfl rfl
    refine onCommand_keeps ?_ ?_ persistNow_leveled fun _ _ hs => hs.frame rfl rfl rfl rfl
    · exact LatchingValve.opens_keeps Leveled.fsmStable.toPortStable bookedLog_of_leveled hvalve
    · exact LatchingValve.close_keeps Leveled.fsmStable.toPortStable bookedLog_of_leveled hvalve
  fingerprint :=
    onFingerprint_keeps Leveled.fsmStable.toPortStable bookedLog_of_leveled
      (fun _ _ hs => hs.frame rfl rfl rfl rfl) (fun _ _ hs => hs.frame rfl rfl rfl rfl)
      (fun _ hs => hs.frame rfl rfl rfl rfl)

omit [CFloat F] in
/-- A record that waits is published with the volumes of the moment. -/
theorem publishing_published (s : Sys F) (topic payload : CString) (h : Publishing base s) :
    Publishing base (s.logged (.published topic payload)) := by
  cases hwaiting : (ofLog s.log).2 with
  | none =>
    have hlog : ofLog (s.logged (.published topic payload)).log = ofLog s.log := by
      simp only [ofLog_logged, note, hwaiting]
    exact h.frame rfl rfl rfl hlog
  -- a record was waiting, and its volume is booked
  | some record =>
    obtain ⟨mls, tlMl⟩ := record
    obtain ⟨hmls, htl⟩ := h.waiting mls tlMl hwaiting
    have hlog : ofLog (s.logged (.published topic payload)).log =
        (.record mls tlMl :: (ofLog s.log).1, none) := by
      simp only [ofLog_logged, note, hwaiting]
    have hppl : s.board.flow.pulsesPerLiter ≠ 0 := by
      rw [h.fitted]
      decide
    have htotal : s.board.flow.totalPulses =
        BitVec.ofNat 32 (Metering.total base (ofLog s.log).1) := by
      rw [← h.total, add_zero]
    refine ⟨⟨⟨?_, h.fitted, ?_⟩, ?_⟩, ?_⟩
    · rw [hlog]
      exact h.total
    · rw [hlog]
      refine ⟨hmls.trans h.interval, ?_, h.booked⟩
      rw [htl, FlowMeter.totalMilliLitres, if_neg hppl, htotal, h.fitted]
    · rw [hlog]
      exact h.interval
    · rw [hlog]
      intro _ _ hnone
      cases hnone

omit [CFloat F] in
/-- A heartbeat reports the total, but no volume of an interval. -/
theorem publishing_heartbeat (s : Sys F) (up : U32) (h : Publishing base s) :
    Publishing base (s.logged (.heartbeat (s.board.heartbeat up))) :=
  ⟨h.toLeveled.frame rfl rfl rfl rfl, fun _ _ hnone => nomatch hnone⟩

/-- Only in this state records are published. -/
theorem tickPublish_leveled (now : U32) :
    Keeps (Leveled base) (BookedLog base) (tickPublish now : Fw F Unit) := by
  have hI : FsmStable (F := F) (Publishing base) := Publishing.fsmStable
  have hC : ∀ s : Sys F, Publishing base s → BookedLog base s := bookedLog_of_publishing
  have hM := hI.toModemStable
  refine Triple.bind (Q := fun _ => Publishing base) ?_ fun _ => ?_
  · -- no record waits after `publishInfo`
    refine publishInfo_triple hM hC publishing_published fun s hs => ?_
    exact ⟨hs.frame rfl rfl rfl rfl, fun _ _ hnone => nomatch hnone⟩
  refine Triple.bind (Q := fun _ => Publishing base) ?_ fun _ => ?_
  · -- the record that is built is booked when it is published
    refine publishTelemetry_triple hM hC publishing_published fun s hs => ?_
    refine ⟨hs.toLeveled.frame rfl rfl rfl rfl, fun mls tlMl hrecord => ?_⟩
    cases hrecord
    exact ⟨rfl, rfl⟩
  refine Triple.bind (Q := fun _ => Publishing base) ?_ fun _ => ?_
  · refine Keeps.when (Keeps.bind (look_keeps _) fun _ => ?_)
    exact MeterStore.save_keeps hI.toPortStable hC (fun _ _ hs => hs.frame rfl rfl rfl rfl)
      (fun _ _ hs => hs.frame rfl rfl rfl rfl) (fun _ hs => hs.frame rfl rfl rfl rfl) _ _
  refine Triple.bind (Q := fun _ => Publishing base)
    (heartbeatIfDue_keeps hM hC publishing_published hI.toServiceStable publishing_heartbeat now)
    fun _ => ?_
  refine Triple.conseq (P := Publishing base) (Q := fun _ => Publishing base) ?_ (fun _ h => h)
    (fun _ _ h => h.toLeveled) fun _ h => h
  refine Keeps.bind (hI.millis hC) fun _ => ?_
  exact Keeps.bind (set_keeps hI.toServiceStable _ fun _ => rfl) fun _ => enter_keeps hI _

/-! ### `begin()` -/

/-- Nothing is logged yet, and the EEPROM is the one that the boot found. -/
structure Unlogged (eeprom : Nat → U8) (s : Sys F) : Prop where
  log : s.log = []
  eeprom : s.board.eeprom = eeprom

/-- From the first statement of `FlowMeter::begin` on. -/
structure Zeroed (eeprom : Nat → U8) (s : Sys F) : Prop extends Unlogged eeprom s where
  total : s.board.flow.totalPulses = 0
  interval : s.board.flow.intervalMilliLitres = 0
  fitted : s.board.flow.pulsesPerLiter = pulsesPerLiter

variable {eeprom : Nat → U8}

omit [CFloat F] in
theorem bookedLog_of_unlogged (s : Sys F) (h : Unlogged eeprom s) : BookedLog base s := by
  rw [BookedLog, h.log]
  trivial

omit [CFloat F] in
theorem after_unlogged (s : Sys F) (e : Env) (rest : List Env) (_ : s.tape = e :: rest)
    (h : Unlogged eeprom s) : Unlogged eeprom (s.after e rest) :=
  ⟨h.log, (Board.after_eeprom _ _).trans h.eeprom⟩

omit [CFloat F] in
theorem after_zeroed (s : Sys F) (e : Env) (rest : List Env) (htape : s.tape = e :: rest)
    (h : Zeroed eeprom s) : Zeroed eeprom (s.after e rest) :=
  ⟨after_unlogged s e rest htape h.toUnlogged, (Board.after_totalPulses _ _).trans h.total,
    (Board.after_intervalMilliLitres _ _).trans h.interval,
    (Board.after_pulsesPerLiter _ _).trans h.fitted⟩

/-- `begin()` clears the counters of the meter. -/
theorem flowBegin_zeroed (ms : U32) : Triple (Unlogged eeprom)
    (FlowMeter.begin pulsesPerLiter ms : Fw F Unit) (fun _ => Zeroed eeprom) (BookedLog base) := by
  have hC : ∀ s : Sys F, Zeroed eeprom s → BookedLog base s := fun s h =>
    bookedLog_of_unlogged s h.toUnlogged
  refine Triple.bind (Q := fun _ => Zeroed eeprom) ?_ fun _ => ?_
  · exact fun s hs => ⟨⟨hs.log, hs.eeprom⟩, rfl, rfl, rfl⟩
  refine Keeps.bind (millis_keeps hC after_zeroed) fun now => ?_
  refine Keeps.bind (change_keeps fun s hs => ?_) fun _ => ?_
  · exact ⟨⟨hs.log, hs.eeprom⟩, hs.total, hs.interval, hs.fitted⟩
  refine Keeps.bind (preempt_keeps hC after_zeroed) fun _ => ?_
  refine Keeps.bind (change_keeps fun s hs => ?_) fun _ => preempt_keeps hC after_zeroed
  exact ⟨⟨hs.log, hs.eeprom⟩, hs.total, hs.interval, hs.fitted⟩

omit [CFloat F] in
/-- With the restored total the samples are counted from the start. -/
theorem Zeroed.leveled {s s' : Sys F} (h : Zeroed eeprom s)
    (htotal : s'.board.flow.totalPulses = base)
    (hinterval : s'.board.flow.intervalMilliLitres = s.board.flow.intervalMilliLitres)
    (hfitted : s'.board.flow.pulsesPerLiter = s.board.flow.pulsesPerLiter) (hlog : s'.log = s.log) :
    Leveled base s' := by
  have hnone : s'.log = [] := hlog.trans h.log
  refine ⟨⟨?_, hfitted.trans h.fitted, ?_⟩, ?_⟩
  · rw [htotal, hnone, add_zero]
    show base = BitVec.ofNat 32 (base.toNat + 0)
    rw [Nat.add_zero, BitVec.ofNat_toNat, BitVec.setWidth_eq]
  · rw [hnone]
    trivial
  · rw [hinterval, h.interval, hnone]
    show (0 : U32) = FlowMeter.milliLitres 0 pulsesPerLiter
    decide

/-- With the restored total the books are level. -/
theorem restore_leveled (hbase : MeterStore.restoredTotal eeprom = base) :
    Triple (Unlogged eeprom) (restore : Fw F Unit) (fun _ => Leveled base) (BookedLog base) := by
  have hC : ∀ s : Sys F, Unlogged eeprom s → BookedLog base s := bookedLog_of_unlogged
  refine Triple.bind (load_triple hC after_unlogged fun _ _ hs => ⟨hs.log, hs.eeprom⟩) fun r => ?_
  intro s ⟨hs, hr⟩
  rw [hs.eeprom] at hr
  subst hr
  refine Triple.bind (restoreValve_keeps hC after_unlogged (fun _ _ hs => ⟨hs.log, hs.eeprom⟩)
    (fun _ _ _ hs => ⟨hs.log, hs.eeprom⟩) _) (fun _ => ?_) s hs
  refine Triple.bind (flowBegin_zeroed _) fun _ => ?_
  refine Triple.bind (Q := fun _ => Leveled base) ?_ fun _ => ?_
  · -- the two outcomes of `load()`
    rw [← hbase]
    cases hst : MeterStore.stored eeprom with
    | none =>
      intro s hs
      simp only [MeterStore.restoredTotal, hst]
      exact hs.leveled hs.total rfl rfl rfl
    | some r =>
      simp only [MeterStore.restoredTotal, hst]
      refine Triple.bind (Q := fun _ => Zeroed eeprom)
        (preempt_keeps (fun s hs => bookedLog_of_unlogged s hs.toUnlogged) after_zeroed) fun _ => ?_
      exact fun s hs => hs.leveled rfl rfl rfl rfl
  refine Keeps.bind (look_keeps _) fun fp => ?_
  exact restoreSignature_keeps (fun _ _ hs => hs.frame rfl rfl rfl rfl) fp

/-! ### Runs -/

/-- Wherever a first boot stands, its records agree with its samples. -/
theorem firmware_booked (eeprom : Nat → U8) (latch : Bool) (start : Nat)
    (tape : List Env) (n : Nat) :
    BookedLog (MeterStore.restoredTotal eeprom)
      (firmware (F := F) n (Sys.powerUp eeprom latch start tape)).2 := by
  have hrestore : Triple (fun s : Sys F => ∃ s₀, Unlogged eeprom s₀ ∧ s = cleared s₀) restore
      (fun _ => Leveled (MeterStore.restoredTotal eeprom))
      (BookedLog (MeterStore.restoredTotal eeprom)) := by
    refine (restore_leveled rfl).conseq ?_ (fun _ _ h => h) (fun _ h => h)
    rintro _ ⟨s₀, hs, rfl⟩
    exact ⟨hs.log, hs.eeprom⟩
  have hrun := firmware_triple Leveled.fsmStable bookedLog_of_leveled hrestore kept_leveled
    tickPublish_leveled n (Sys.powerUp eeprom latch start tape) ⟨rfl, rfl⟩
  exact wp_snd (wp_mono (fun _ _ h => h.booked) (fun _ h => h) hrun)

/-- In every run of one boot whose pulses stay below the limit of `totalMilliLitres()`: over every
    stretch of published records the sum of `mls` after the first is the difference of `tl_ml`, up
    to 1 mL for each sample, if and only if between any two of them the samples before the last add
    up to no more than that. -/
theorem intervals_consistent_iff (eeprom : Nat → U8) (latch : Bool) (start : Nat) (tape : List Env)
    (n : Nat) :
    let base := MeterStore.restoredTotal eeprom
    let ms := (ofLog (firmware (F := F) n (Sys.powerUp eeprom latch start tape)).2.log).1
    total base ms * 1000 < 2 ^ 32 → (Consistent ms ↔ Covered base ms) := by
  intro base ms hlimit
  exact consistent_iff (firmware_booked eeprom latch start tape n) hlimit

/-- A tap is opened for a second, just before the second record. -/
def sip : List Env :=
  List.replicate 266 { willing with elapsed := 1000 } ++
    { willing with elapsed := 1000, pulses := 5 } ::
      List.replicate 100 { willing with elapsed := 1000 }

theorem intervals_consistent_sip :
    Consistent (ofLog (firmware (F := Single) 20 (Sys.powerUp blank false 0 sip)).2.log).1 := by
  have h := intervals_consistent_iff (F := Single) blank false 0 sip 20 (by decide +kernel)
  exact h.2 (by decide +kernel)

/-- With the tap open all the time 739 mL pass between two records, the second of which
    reports 93. -/
theorem intervals_differ : ¬∀ tape : List Env,
    let ms := (ofLog (firmware (F := Single) 15 (Sys.powerUp blank false 0 tape)).2.log).1
    total (MeterStore.restoredTotal blank) ms * 1000 < 2 ^ 32 → Consistent ms := by
  intro h
  have hrun : (ofLog (firmware (F := Single) 15 (Sys.powerUp blank false 0 drawing)).2.log).1 =
      [] ++ .record 93 1163 ::
        (([23, 21, 9, 9, 9, 9, 9, 9, 11, 9, 28, 12, 23].map .sample) ++
          .record 93 424 :: [23, 19, 11, 9, 30, 9, 3].map .sample) := by
    decide +kernel
  have hpair := h drawing (by decide +kernel) _ _ _ _ _ _ _ hrun
  revert hpair
  decide

end WaterboxFsm

end Waterbox
