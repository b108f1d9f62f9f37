import Mathlib
import Waterbox.Cloud.Flows
import Waterbox.Cloud.Passes
import Waterbox.Cloud.Records
import Waterbox.Firmware.Intervals
import Waterbox.Portal.MonthToDate

namespace Waterbox

/-!
# From the flow sensor to the map

The device reports what its counter has counted since it was installed, not what flowed since the
last report.  So a report that is lost, doubled or late does no harm to the volume of a month, as
long as the first and the last one arrive.

* `WaterboxFsm.records_between` — the totals that a boot reports ascend, and each is the volume of
  the pulses counted.
* `Cloud.readings_run` — what the worker stores of them, whatever else it handles in between.
* `Portal.month_volume` — what the portal shows of the month.
-/

open Buckets

variable {F : Type}

/-! ### The device -/

namespace WaterboxFsm

/-- The telemetry records of a log, newest first, each with the board at its moment. -/
def records (log : List (Event F × Board F)) : List (Telemetry F × Board F) :=
  log.filterMap fun x =>
    match x.1 with
    | .telemetry r => some (r, x.2)
    | _ => none

/-- The volume behind a record. -/
def pulseVolume (b : Board F) : Nat := FlowMeter.trueMilliLitres b.flow.totalPulses pulsesPerLiter

theorem pulseVolume_mono {b b' : Board F}
    (h : b.flow.totalPulses.toNat ≤ b'.flow.totalPulses.toNat) :
    pulseVolume b ≤ pulseVolume b' := by
  rw [pulseVolume, pulseVolume, FlowMeter.trueMilliLitres, FlowMeter.trueMilliLitres]
  exact Nat.div_le_div_right (Nat.mul_le_mul_right 1000 h)

variable {log : List (Event F × Board F)} {x : Telemetry F × Board F}

theorem mem_records : x ∈ records log ↔ (.telemetry x.1, x.2) ∈ log := by
  simp only [records, List.mem_filterMap]
  constructor
  · rintro ⟨⟨ev, b⟩, hmem, h⟩
    cases ev <;> simp only [Option.some.injEq, reduceCtorEq] at h
    rw [← h]
    exact hmem
  · exact fun h => ⟨_, h, rfl⟩

theorem records_ascend {top : U32} (h : Recorded (fun _ => True) log top) :
    (records log).Pairwise fun x y => y.2.flow.totalPulses ≤ x.2.flow.totalPulses := by
  rw [records, List.pairwise_filterMap]
  apply h.1.imp
  rintro ⟨ev, b⟩ ⟨ev', b'⟩ hle x hx y hy
  cases ev <;> simp only [Option.some.injEq, reduceCtorEq] at hx
  cases ev' <;> simp only [Option.some.injEq, reduceCtorEq] at hy
  subst hx hy
  exact hle trivial trivial

/-- Below the limit of `totalMilliLitres()` a record reports the volume of its pulses. -/
theorem totalMl_eq {base : U32} (h : Event.Sound base (.telemetry x.1, x.2))
    (hlimit : x.2.flow.totalPulses.toNat * 1000 < 2 ^ 32) :
    x.1.totalMl.toNat = pulseVolume x.2 := by
  have hppl : x.2.flow.pulsesPerLiter = pulsesPerLiter := h.fitted
  rw [h.reported _ rfl, (FlowMeter.totalMilliLitres_eq_iff (by rw [hppl]; decide)).2 hlimit, hppl]
  rfl

/-- The records of a boot between two of them report totals between theirs. -/
theorem records_between [CFloat F] (eeprom : Nat → U8) (latch : Bool) (start : Nat)
    (tape : List Env) (n : Nat)
    {later between earlier : List (Telemetry F × Board F)} {newest oldest : Telemetry F × Board F}
    (hcounter : (MeterStore.restoredTotal eeprom).toNat +
      (firmware (F := F) n (Sys.powerUp eeprom latch start tape)).2.board.edges < 2 ^ 32)
    (hlimit : newest.2.flow.totalPulses.toNat * 1000 < 2 ^ 32)
    (hlog : records (firmware n (Sys.powerUp eeprom latch start tape)).2.log =
      later ++ newest :: (between ++ oldest :: earlier)) :
    newest.1.totalMl.toNat = pulseVolume newest.2 ∧ oldest.1.totalMl.toNat = pulseVolume oldest.2 ∧
      ∀ x ∈ newest :: (between ++ [oldest]),
        pulseVolume oldest.2 ≤ x.1.totalMl.toNat ∧ x.1.totalMl.toNat ≤ pulseVolume newest.2 := by
  rcases firmware_log (F := F) eeprom latch start tape n with hnil | ⟨hsound, hasc⟩
  · rw [hnil] at hlog
    exact absurd hlog.symm (by simp [records])
  have hpairs := records_ascend (hasc hcounter)
  rw [hlog] at hpairs
  have htail := (List.pairwise_append.1 hpairs).2.1
  have hnewest := List.pairwise_cons.1 htail
  have hbetween := List.pairwise_append.1 hnewest.2
  have hmem : ∀ x ∈ newest :: (between ++ [oldest]),
      (.telemetry x.1, x.2) ∈ (firmware n (Sys.powerUp eeprom latch start tape)).2.log := by
    intro x hx
    rw [← mem_records, hlog]
    simp only [List.mem_cons, List.mem_append, List.not_mem_nil, or_false] at hx ⊢
    tauto
  -- the counters are between those of the first and the last record
  have hle : ∀ x ∈ newest :: (between ++ [oldest]),
      oldest.2.flow.totalPulses.toNat ≤ x.2.flow.totalPulses.toNat ∧
        x.2.flow.totalPulses.toNat ≤ newest.2.flow.totalPulses.toNat := by
    intro x hx
    have hfirst := hnewest.1 oldest (by simp)
    simp only [List.mem_cons, List.mem_append, List.not_mem_nil, or_false] at hx
    rcases hx with rfl | hx | rfl
    · exact ⟨hfirst, le_refl _⟩
    · exact ⟨hbetween.2.2 x hx oldest List.mem_cons_self,
        hnewest.1 x (List.mem_append_left _ hx)⟩
    · exact ⟨le_refl _, hfirst⟩
  have hexact : ∀ x ∈ newest :: (between ++ [oldest]), x.1.totalMl.toNat = pulseVolume x.2 := by
    intro x hx
    have hfits := (Nat.mul_le_mul_right 1000 (hle x hx).2).trans_lt hlimit
    exact totalMl_eq (hsound _ (hmem x hx)) hfits
  refine ⟨hexact _ List.mem_cons_self, hexact _ (by simp), fun x hx => ?_⟩
  rw [hexact x hx]
  exact ⟨pulseVolume_mono (hle x hx).1, pulseVolume_mono (hle x hx).2⟩

end WaterboxFsm

/-! ### The worker -/

namespace Cloud

open GsmMqttClient

/-- A telemetry record on its way, with what the modem's clock gave for it and the moment at which
    it is handled. -/
structure Arrival (F : Type) where
  record : Telemetry F
  clock : Option DateTime
  moment : Moment

/-- The time it is stored under. -/
def Arrival.stamp (a : Arrival F) : ZonedTime := stampOf a.moment a.clock

/-- What happens at the worker: a record of the meter comes in, or something else. -/
inductive Input (F : Type)
  | record (a : Arrival F)
  | other (action : Action)

/-- The records among what happens. -/
def Input.arrival? : Input F → Option (Arrival F)
  | .record a => some a
  | .other _ => none

/-- A record of the meter whose numbers fit their texts. -/
structure Arrival.Legible [CFloat F] (imei : Str) (a : Arrival F) : Prop where
  imei_eq : a.record.imei = imei
  flow : ∃ neg n, TwoDecimals (CFloat.dtostrf a.record.litresPerMinute) neg n
  model : ∃ neg n, TwoDecimals (CFloat.dtostrf a.record.modelLm) neg n
  leak : a.record.leak ≤ 1
  overuse : a.record.overuse ≤ 1

def Input.action [CFloat F] : Input F → Action
  | .record a =>
    .message a.moment (topic a.record.imei "data".toList)
      (telemetryText a.record (timestamp a.clock))
  | .other action => action

section Inputs

variable {D : Type} [Python D]

variable (D) in
/-- No message that stores a reading of the meter. -/
def Foreign (imei : Str) : Action → Prop
  | .message _ topic text => ∀ payload : Dict D, Json.loads text = some (.obj payload) →
      imeiOf topic payload ≠ imei ∨ "/data".toList.isSuffixOf topic = false
  | _ => True

/-- A record that is handled without an exception, or something that is no message of it. -/
def Admitted [CFloat F] (imei : Str) (w : World D) : Input F → Prop
  | .record a => a.Legible imei ∧ wmCloud imei a.stamp w.db ≠ none
  | .other action => Foreign D imei action

variable [Server D]

/-- What happens, one thing after the other. -/
def World.happen [CFloat F] (w : World D) (i : Input F) : World D := w.step i.action

/-- Time and total of a reading. -/
def Reading.seen (r : Reading D) : ZonedTime × Option Int := (r.ts, r.tlMl)

def Arrival.seen (a : Arrival F) : ZonedTime × Option Int := (a.stamp, some a.record.totalMl.toNat)

/-- Time and total of the readings of a meter, new ones first. -/
def seen (db : Db D) (imei : Str) : List (ZonedTime × Option Int) :=
  (db.readings.filter fun r => r.imei = imei).map Reading.seen

omit [Server D] in
theorem reading_imei {now : Nat} {imei : Str} {ts : ZonedTime} {payload : Dict D}
    {wmCloud : Option D} {row : Reading D} (h : reading now imei ts payload wmCloud = some row) :
    row.imei = imei := by
  simp only [reading, Option.bind_eq_bind, Option.bind_eq_some_iff, Option.ite_none_right_eq_some,
    Option.some.injEq] at h
  obtain ⟨_, -, _, -, _, -, _, -, _, -, _, -, _, -, _, himei, _, -, _, -, _, -, _, -, -, rfl⟩ := h
  exact textColumn_eq himei

/-- The row that a message stores belongs to its meter, and the message is a record. -/
theorem storedReading_spec {m : Moment} {topic : Str} {payload : Dict D} {db : Db D}
    {row : Reading D} (h : storedReading m topic payload db = some row) :
    row.imei = imeiOf topic payload ∧ "/data".toList.isSuffixOf topic = true := by
  rw [storedReading] at h
  split_ifs at h with _ _ _ hdata
  simp only [Option.bind_eq_bind, Option.bind_eq_some_iff] at h
  obtain ⟨_, -, _, -, hrow⟩ := h
  exact ⟨reading_imei hrow, hdata⟩

/-- What happens else leaves the readings of the meter alone. -/
theorem seen_foreign (w : World D) {imei : Str} {action : Action} (h : Foreign D imei action) :
    seen (w.step action).db imei = seen w.db imei := by
  have hsame : ∀ w' : World D, w'.db.readings = w.db.readings →
      seen w'.db imei = seen w.db imei := fun w' hw' => by rw [seen, hw', seen]
  cases action with
  | start kind window => exact hsame _ rfl
  | advance i now outcome =>
    apply hsame
    simp only [World.step]
    split
    · rfl
    · exact World.advance_readings _ _ _ _ _
  | stop i =>
    apply hsame
    simp only [World.step]
    split <;> rfl
  | message m topic text =>
    show seen (onMessage m topic text w.db).2 imei = _
    have hpayload := h
    rw [Foreign] at hpayload
    unfold onMessage
    cases hloads : (Json.loads text : Option (Json D)) with
    | none => rfl
    | some v =>
      cases v with
      | obj payload =>
        show seen (handlePayload m topic payload w.db).2 imei = _
        -- the row that is stored, if there is one, belongs to another meter
        have hnone : (storedReading m topic payload w.db).toList.filter
            (fun r => r.imei = imei) = [] := by
          rw [List.filter_eq_nil_iff]
          intro row hrow himei
          obtain ⟨hmeter, hdata⟩ := storedReading_spec (Option.mem_toList.1 hrow)
          rcases hpayload payload hloads with hother | hother
          · exact hother (hmeter.symm.trans (of_decide_eq_true himei))
          · rw [hdata] at hother
            exact absurd hother (by decide)
        rw [seen, handlePayload_readings, List.filter_append, hnone, List.nil_append, seen]
      | _ => rfl

omit [Python D] [Server D] in
theorem seen_cons {db db' : Db D} {row : Reading D} (h : db'.readings = row :: db.readings) :
    seen db' row.imei = row.seen :: seen db row.imei := by
  have hfilter : (row :: db.readings).filter (fun r => r.imei = row.imei) =
      row :: db.readings.filter fun r => r.imei = row.imei :=
    List.filter_cons_of_pos (decide_eq_true rfl)
  rw [seen, h, hfilter, List.map_cons, seen]

/-- A record of the meter is a reading more. -/
theorem seen_record [CFloat F] [LawfulPython D] (w : World D) {imei : Str} (hne : imei ≠ [])
    (hlen : imei.length ≤ 15) (hdigits : ∀ c ∈ imei, c.isDigit = true) {a : Arrival F}
    (h : a.Legible imei) (hpredict : wmCloud imei a.stamp w.db ≠ none) :
    seen (w.step (Input.record a).action).db imei = a.seen :: seen w.db imei := by
  obtain ⟨himei, ⟨lmNeg, lm, hlm⟩, ⟨wmNeg, wm, hwm⟩, hlk, hoc⟩ := h
  obtain ⟨predicted, hpredicted⟩ := Option.ne_none_iff_exists'.1 hpredict
  subst himei
  have hmessage := onMessage_telemetry (D := D) (t := a.clock) hne hdigits hlm hwm hlk hoc a.moment
    w.db
  rw [← Arrival.stamp, hpredicted, ← topic_eq hlen (by decide)] at hmessage
  have hreadings : (w.step (Input.record a).action).db.readings =
      telemetryReading a.moment a.record a.clock lmNeg wmNeg lm wm predicted :: w.db.readings := by
    simp only [Input.action, World.step, hmessage]
  have hcons := seen_cons hreadings
  exact hcons

/-- After all that happened, the meter has its records as new readings, one for each time that one
    of them came in. -/
theorem seen_run [CFloat F] [LawfulPython D] {imei : Str} (hne : imei ≠ [])
    (hlen : imei.length ≤ 15) (hdigits : ∀ c ∈ imei, c.isDigit = true) (inputs : List (Input F))
    (w : World D) (h : Runs.Meets World.happen (Admitted imei) w inputs) :
    seen (inputs.foldl World.happen w).db imei =
      ((inputs.filterMap Input.arrival?).map Arrival.seen).reverse ++ seen w.db imei := by
  induction inputs generalizing w with
  | nil => rfl
  | cons i inputs ih =>
    obtain ⟨hfirst, hrest⟩ := h
    rw [List.foldl_cons, ih _ hrest]
    cases i with
    | record a =>
      have hrecords : (Input.record a :: inputs).filterMap Input.arrival? =
          a :: inputs.filterMap Input.arrival? := rfl
      rw [World.happen, seen_record w hne hlen hdigits hfirst.1 hfirst.2, hrecords, List.map_cons,
        List.reverse_cons, List.append_assoc, List.singleton_append]
    | other action =>
      have hrecords : (Input.other action :: inputs).filterMap Input.arrival? =
          inputs.filterMap (Input.arrival? (F := F)) := rfl
      rw [World.happen, Input.action, seen_foreign w hfirst, hrecords]

end Inputs

end Cloud

/-! ### The portal -/

namespace Portal

open Cloud WaterboxFsm

variable {N T : Type}

/-- The totals of the readings of some times. -/
theorem totals_eq (db : Db N) (imei : Str) (p : ZonedTime → Prop) [DecidablePred p] :
    totals (db.readings.filter fun r => r.imei = imei ∧ p r.ts) =
      ((seen db imei).filter fun x => p x.1).filterMap Prod.snd := by
  have hsplit : (db.readings.filter fun r => r.imei = imei ∧ p r.ts) =
      (db.readings.filter fun r => r.imei = imei).filter fun r => p r.ts :=
    (filter_and fun _ => Iff.rfl).symm
  rw [hsplit, totals, seen, List.filter_map, List.filterMap_map]
  rfl

/-- With the records of a stretch as its only readings of some times, the formula of a meter is the
    volume between the oldest record and the newest. -/
theorem formula_eq {db : Db N} {imei : Str} {p : ZonedTime → Prop} [DecidablePred p]
    {arrivals : List (Arrival F)} {before : List (ZonedTime × Option Int)} {newest oldest : Nat}
    (hseen : seen db imei = (arrivals.map Arrival.seen).reverse ++ before)
    (hbefore : ∀ x ∈ before, ¬ p x.1) (hp : ∀ a ∈ arrivals, p a.stamp)
    (hbetween : ∀ a ∈ arrivals, oldest ≤ a.record.totalMl.toNat ∧ a.record.totalMl.toNat ≤ newest)
    (hnewest : ∃ a ∈ arrivals, a.record.totalMl.toNat = newest)
    (holdest : ∃ a ∈ arrivals, a.record.totalMl.toNat = oldest) (hne : oldest ≠ newest) :
    formula (db.readings.filter fun r => r.imei = imei ∧ p r.ts) = newest - oldest := by
  have htotals : totals (db.readings.filter fun r => r.imei = imei ∧ p r.ts) =
      (arrivals.reverse.map fun a => (a.record.totalMl.toNat : Int)) := by
    have hin : ((arrivals.map Arrival.seen).reverse.filter fun x => p x.1) =
        arrivals.reverse.map Arrival.seen := by
      rw [← List.map_reverse, List.filter_eq_self]
      intro x hx
      obtain ⟨a, ha, rfl⟩ := List.mem_map.1 hx
      exact decide_eq_true (hp a (List.mem_reverse.1 ha))
    have hout : (before.filter fun x => p x.1) = [] :=
      List.filter_eq_nil_iff.2 fun x hx h => hbefore x hx (of_decide_eq_true h)
    rw [totals_eq, hseen, List.filter_append, hin, hout, List.append_nil, List.filterMap_map]
    rw [← List.filterMap_eq_map]
    rfl
  have hspread : spread (totals (db.readings.filter fun r => r.imei = imei ∧ p r.ts)) =
      newest - oldest := by
    obtain ⟨a, ha, hnewest⟩ := hnewest
    obtain ⟨b, hb, holdest⟩ := holdest
    rw [htotals]
    apply spread_eq
    · exact List.mem_map.2 ⟨b, List.mem_reverse.2 hb, by rw [holdest]⟩
    · exact List.mem_map.2 ⟨a, List.mem_reverse.2 ha, by rw [hnewest]⟩
    · intro k hk
      obtain ⟨c, hc, rfl⟩ := List.mem_map.1 hk
      have := hbetween c (List.mem_reverse.1 hc)
      omega
  rw [formula, hspread, if_neg (by omega)]

variable [Python N] [Server N] [LawfulPython N] [DecidableEq N] [JsMath N] [LinearOrder T]

/-- The volume of a month is that between the first and the last record of it that the device has
    made, if these two arrive: in every report it is that of the pulses counted between them,
    whatever becomes of the records between them (they may be lost, doubled or late), whatever else
    the worker handles, and whatever fits run. -/
theorem month_volume [CFloat F] (eeprom : Nat → U8) (latch : Bool) (start : Nat) (tape : List Env)
    (n : Nat) {later between earlier : List (Telemetry F × Board F)}
    {newest oldest : Telemetry F × Board F}
    (hcounter : (MeterStore.restoredTotal eeprom).toNat +
      (firmware (F := F) n (Sys.powerUp eeprom latch start tape)).2.board.edges < 2 ^ 32)
    (hlimit : newest.2.flow.totalPulses.toNat * 1000 < 2 ^ 32)
    (hlog : records (firmware n (Sys.powerUp eeprom latch start tape)).2.log =
      later ++ newest :: (between ++ oldest :: earlier))
    {clock : Clock T} (hmonths : Months clock.toPostgres) {db : PortalDb N} {u : PortalUser}
    {pm : PortalMeter N} {place : Place N} (hone : OneAccount db u pm place) (hne : pm.imei ≠ [])
    (hlen : pm.imei.length ≤ 15) (hdigits : ∀ c ∈ pm.imei, c.isDigit = true) {w : World N}
    (hbefore : ∀ r ∈ w.db.readings, r.imei = pm.imei →
      readingMonth clock.toPostgres r < thisMonth clock)
    {inputs : List (Input F)}
    (hinputs : Runs.Meets World.happen (Admitted pm.imei) w inputs)
    (harrivals : ∀ a ∈ inputs.filterMap Input.arrival?,
      (∃ b, (a.record, b) ∈ newest :: (between ++ [oldest])) ∧
        clock.dateTrunc "month".toList (clock.instant a.stamp) = thisMonth clock)
    (hnewest : ∃ a ∈ inputs.filterMap Input.arrival?, a.record = newest.1)
    (holdest : ∃ a ∈ inputs.filterMap Input.arrival?, a.record = oldest.1)
    (hflow : pulseVolume oldest.2 ≠ pulseVolume newest.2) :
    let db' : PortalDb N := { db with cloud := (inputs.foldl World.happen w).db }
    let ml : Int := pulseVolume newest.2 - pulseVolume oldest.2
    (∀ order points, heatmapPoints clock order db' = some points →
      (∃ p ∈ points, p.imei = pm.imei) ∧ ∀ p ∈ points, p.imei = pm.imei → p.liters = litersOf ml) ∧
    (∀ out, consumption clock.toPostgres clock.now db'.cloud pm.imei .monthly = some out →
      mlWhere (fun b => decide (b = thisMonth clock)) out = ml) ∧
    ∀ rows, householdMonthly clock.toPostgres db' = some rows →
      mlWhere (fun key => decide (key.imei = pm.imei ∧ key.month = some (thisMonth clock))) rows =
        ml := by
  intro db' ml
  obtain ⟨hnewestMl, holdestMl, hbetween⟩ :=
    records_between eeprom latch start tape n hcounter hlimit hlog
  have hseen := seen_run hne hlen hdigits inputs w hinputs
  have hold : ∀ x ∈ seen w.db pm.imei,
      clock.dateTrunc "month".toList (clock.instant x.1) < thisMonth clock := by
    intro x hx
    obtain ⟨r, hr, rfl⟩ := List.mem_map.1 hx
    obtain ⟨hr, himei⟩ := List.mem_filter.1 hr
    exact hbefore r hr (of_decide_eq_true himei)
  have htotals : ∀ a ∈ inputs.filterMap Input.arrival?,
      pulseVolume oldest.2 ≤ a.record.totalMl.toNat ∧
        a.record.totalMl.toNat ≤ pulseVolume newest.2 := by
    intro a ha
    obtain ⟨⟨b, hb⟩, -⟩ := harrivals a ha
    exact hbetween _ hb
  have hlast : ∃ a ∈ inputs.filterMap Input.arrival?,
      a.record.totalMl.toNat = pulseVolume newest.2 := by
    obtain ⟨a, ha, hrecord⟩ := hnewest
    exact ⟨a, ha, by rw [hrecord, hnewestMl]⟩
  have hfirst : ∃ a ∈ inputs.filterMap Input.arrival?,
      a.record.totalMl.toNat = pulseVolume oldest.2 := by
    obtain ⟨a, ha, hrecord⟩ := holdest
    exact ⟨a, ha, by rw [hrecord, holdestMl]⟩
  have hone' : OneAccount db' u pm place := ⟨hone.meter, hone.user, hone.located⟩
  have hmonth : formula (inMonth clock.toPostgres db' pm.imei (thisMonth clock)) = ml :=
    formula_eq (p := fun z => clock.dateTrunc "month".toList (clock.instant z) = thisMonth clock)
      hseen (fun x hx => (hold x hx).ne) (fun a ha => (harrivals a ha).2) htotals hlast hfirst hflow
  have htoDate : formula (monthToDate clock db' pm.imei) = ml := by
    apply formula_eq (p := fun z => thisMonth clock ≤ clock.instant z) hseen
      (fun x hx hle => ?_) (fun a ha => ?_) htotals hlast hfirst hflow
    · have htrunc := hmonths.mono hle
      rw [thisMonth, hmonths.trunc_trunc, ← thisMonth] at htrunc
      exact absurd (hold x hx) (not_lt.2 htrunc)
    · show thisMonth clock ≤ _
      rw [← (harrivals a ha).2]
      exact hmonths.trunc_le _
  refine ⟨fun order points hpoints => ?_, fun out hout => ?_, fun rows hrows => ?_⟩
  · rw [← htoDate]
    exact heatmap_month hone' hpoints
  · rw [← hmonth]
    exact consumption_month hmonths hout
  · rw [← hmonth]
    exact household_month hone' hrows

/-! ### A sip -/

/-- What the reports depend on of a record. -/
def summary (x : Telemetry Single × Board Single) : Str × Str × Str × U8 × U8 × Nat :=
  (x.1.imei, CFloat.dtostrf x.1.litresPerMinute, CFloat.dtostrf x.1.modelLm, x.1.leak, x.1.overuse,
    pulseVolume x.2)

/-- The records of a boot in which a tap is opened for a second. -/
theorem records_sip : ∃ newest oldest : Telemetry Single × Board Single,
    records (firmware 20 (Sys.powerUp blank false 0 sip)).2.log = [newest, oldest] ∧
      summary newest = (anaMeter.imei, "0.06".toList, "0.00".toList, 0, 0, 20) ∧
      summary oldest = (anaMeter.imei, "0.00".toList, "0.00".toList, 0, 0, 0) := by
  have hrecords : (records (firmware 20 (Sys.powerUp blank false 0 sip)).2.log).map summary =
      [(anaMeter.imei, "0.06".toList, "0.00".toList, 0, 0, 20),
        (anaMeter.imei, "0.00".toList, "0.00".toList, 0, 0, 0)] := by
    decide +kernel
  obtain ⟨newest, rest, hlog, hnewest, hrest⟩ := List.map_eq_cons_iff.1 hrecords
  obtain ⟨oldest, rfl, holdest⟩ := List.map_eq_singleton_iff.1 hrest
  exact ⟨newest, oldest, hlog, hnewest, holdest⟩

/-- A record whose numbers fit their texts. -/
theorem legible_of_summary {x : Telemetry Single × Board Single} {k ml : Nat}
    (h : summary x = (anaMeter.imei, Text.fixed 2 k, Text.fixed 2 0, 0, 0, ml))
    (hk : (Text.fixed 2 k).length ≤ 9) (t : Option DateTime) (m : Moment) :
    Arrival.Legible anaMeter.imei ⟨x.1, t, m⟩ := by
  simp only [summary, Prod.mk.injEq] at h
  obtain ⟨himei, hflow, hmodel, hleak, hoveruse, -⟩ := h
  refine ⟨himei, ⟨false, k, hflow, by rw [hflow]; exact hk⟩, ⟨false, 0, hmodel, ?_⟩, ?_, ?_⟩
  · rw [hmodel]
    decide
  · rw [hleak]
    decide
  · rw [hoveruse]
    decide

/-- No fingerprint is stored. -/
theorem admitted_record {w : World Exact} (hw : w.db.fingerprints = []) {a : Arrival Single}
    (h : a.Legible anaMeter.imei) : Admitted anaMeter.imei w (.record a) := by
  refine ⟨h, ?_⟩
  rw [wmCloud, latestFingerprint, hw]
  exact Option.some_ne_none _

theorem happen_fingerprints (w : World Exact) (a : Arrival Single) :
    (w.happen (.record a)).db.fingerprints = w.db.fingerprints := by
  simp only [World.happen, Input.action, World.step, onMessage_fingerprints]

/-- The newer record comes in first, and once more after the older one: the reports show 20 mL. -/
theorem month_volume_sip : ∃ newest oldest : Telemetry Single × Board Single,
    pulseVolume newest.2 = 20 ∧ pulseVolume oldest.2 = 0 ∧
    let inputs : List (Input Single) := [.record ⟨newest.1, none, noon⟩,
      .record ⟨oldest.1, none, noon⟩, .record ⟨newest.1, none, noon⟩]
    let db : PortalDb Exact :=
      { located [] with cloud := (inputs.foldl World.happen (World.init noMeters)).db }
    let ml : Int := pulseVolume newest.2 - pulseVolume oldest.2
    (∀ order points, heatmapPoints winter order db = some points →
      (∃ p ∈ points, p.imei = anaMeter.imei) ∧
        ∀ p ∈ points, p.imei = anaMeter.imei → p.liters = litersOf ml) ∧
    (∀ out, consumption winter.toPostgres winter.now db.cloud anaMeter.imei .monthly = some out →
      mlWhere (fun b => decide (b = thisMonth winter)) out = ml) ∧
    ∀ rows, householdMonthly winter.toPostgres db = some rows →
      mlWhere (fun key => decide (key.imei = anaMeter.imei ∧ key.month = some (thisMonth winter)))
        rows = ml := by
  obtain ⟨newest, oldest, hlog, hnewest, holdest⟩ := records_sip
  obtain ⟨u, hone⟩ := oneAccount_ana [] (by decide +kernel) (by decide +kernel)
  have hmlNewest : pulseVolume newest.2 = 20 := congrArg (·.2.2.2.2.2) hnewest
  have hmlOldest : pulseVolume oldest.2 = 0 := congrArg (·.2.2.2.2.2) holdest
  have hlegible := legible_of_summary (k := 6) hnewest (by decide) none noon
  have hlegible' := legible_of_summary (k := 0) holdest (by decide) none noon
  have hlimit : newest.2.flow.totalPulses.toNat * 1000 < 2 ^ 32 := by
    have hlt : pulseVolume newest.2 < 21 := by rw [hmlNewest]; decide
    rw [pulseVolume, FlowMeter.trueMilliLitres, Nat.div_lt_iff_lt_mul (by decide)] at hlt
    exact hlt.trans (by decide)
  have hlog' : records (firmware 20 (Sys.powerUp blank false 0 sip)).2.log =
      [] ++ newest :: ([] ++ oldest :: []) := hlog
  have hone' : OneAccount (located []) u anaMeter anaPlace := ⟨hone.meter, hone.user, hone.located⟩
  refine ⟨newest, oldest, hmlNewest, hmlOldest, ?_⟩
  apply month_volume blank false 0 sip 20 _ hlimit hlog' months_winter hone'
  · decide
  · decide
  · exact List.all_eq_true.1 (by decide)
  · intro r hr
    exact absurd hr List.not_mem_nil
  · refine ⟨admitted_record rfl hlegible, admitted_record ?_ hlegible',
      admitted_record ?_ hlegible, trivial⟩
    · rw [happen_fingerprints]
      rfl
    · rw [happen_fingerprints, happen_fingerprints]
      rfl
  · intro a ha
    have hnoon : winter.dateTrunc "month".toList (winter.instant (stampOf noon none)) =
        thisMonth winter := by decide +kernel
    have hcases : a = ⟨newest.1, none, noon⟩ ∨ a = ⟨oldest.1, none, noon⟩ ∨
        a = ⟨newest.1, none, noon⟩ := by
      have hmem : a ∈ [⟨newest.1, none, noon⟩, ⟨oldest.1, none, noon⟩, ⟨newest.1, none, noon⟩] :=
        ha
      simpa only [List.mem_cons, List.not_mem_nil, or_false] using hmem
    rcases hcases with rfl | rfl | rfl
    · exact ⟨⟨newest.2, List.mem_cons_self⟩, hnoon⟩
    · exact ⟨⟨oldest.2, by simp⟩, hnoon⟩
    · exact ⟨⟨newest.2, List.mem_cons_self⟩, hnoon⟩
  · exact ⟨_, List.mem_cons_self, rfl⟩
  · exact ⟨_, List.mem_cons_of_mem _ List.mem_cons_self, rfl⟩
  · rw [hmlNewest, hmlOldest]
    decide
  · decide +kernel

end Portal

end Waterbox
