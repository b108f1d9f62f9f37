import Mathlib
import Waterbox.Lib.Restarts
import Waterbox.Portal.Households

namespace Waterbox

namespace Portal

/-!
# Three reports of one volume

The litres of a meter are in the buckets of `consumption`, in the month-to-date of `heatmapPoints`,
and in the months of the view `v_household_monthly`.  Each takes the largest total minus the
smallest.

* `householdMonthly` — the view.
* `InTime` — readings in the order of time.
* `groupMl_eq_spread` — the formula where the totals of a bucket differ.
* `inflated_iff` — when a counter that restarts shows more than it has counted.
-/

open Buckets Cloud Restarts

/-! ### `v_household_monthly` -/

section View

variable {N T : Type} [DecidableEq N] [LinearOrder T]

/-- The columns by which the view groups. -/
structure MonthlyKey (N T : Type) where
  email : Str
  imei : Str
  address : Option Str
  lat : Option N
  lon : Option N
  month : Option T
deriving DecidableEq

/-- The month of a reading. -/
def readingMonth (pg : Postgres T) (r : Reading N) : T :=
  pg.dateTrunc "month".toList (pg.instant r.ts)

/-- The columns of a joined row. -/
def monthlyKey (u : PortalUser) (pm : PortalMeter N) (month : Option T) : MonthlyKey N T :=
  ⟨u.email, pm.imei, pm.address, pm.lat, pm.lon, month⟩

/-- The readings that are joined to a meter of an account. -/
def meterRows (pg : Postgres T) (db : PortalDb N) (u : PortalUser) (pm : PortalMeter N) :
    List (MonthlyKey N T × Option (Reading N)) :=
  match db.cloud.readings.filter (·.imei = pm.imei) with
  -- a row without a reading, as the join is a left one
  | [] => [(monthlyKey u pm none, none)]
  | rows => rows.map fun r => (monthlyKey u pm (some (readingMonth pg r)), some r)

/-- The rows of the joins, with the columns by which they are grouped. -/
def monthlyRows (pg : Postgres T) (db : PortalDb N) :
    List (MonthlyKey N T × Option (Reading N)) :=
  db.users.flatMap fun u => (metersOf db u.id).flatMap (meterRows pg db u)

/-- The readings of a group. -/
def monthlyGroup (pg : Postgres T) (db : PortalDb N) (key : MonthlyKey N T) : List (Reading N) :=
  ((monthlyRows pg db).filter fun row => row.1 = key).filterMap (·.2)

/-- `v_household_monthly`; `none` where the query fails. -/
def householdMonthly (pg : Postgres T) (db : PortalDb N) : Option (List (MonthlyKey N T × Int)) :=
  ((monthlyRows pg db).map (·.1)).dedup.mapM fun key =>
    (volume (monthlyGroup pg db key)).map fun ml => (key, ml)

/-- The readings of a meter in a month. -/
def inMonth (pg : Postgres T) (db : PortalDb N) (imei : Str) (month : T) : List (Reading N) :=
  db.cloud.readings.filter fun r => r.imei = imei ∧ readingMonth pg r = month

variable {pg : Postgres T} {db : PortalDb N}

omit [DecidableEq N] [LinearOrder T] in
theorem some_mem_meterRows {u : PortalUser} {pm : PortalMeter N} {key : MonthlyKey N T}
    {r : Reading N} :
    (key, some r) ∈ meterRows pg db u pm ↔
      (r ∈ db.cloud.readings ∧ r.imei = pm.imei) ∧
        key = monthlyKey u pm (some (readingMonth pg r)) := by
  have hfilter : r ∈ db.cloud.readings.filter (·.imei = pm.imei) ↔
      r ∈ db.cloud.readings ∧ r.imei = pm.imei := by
    rw [List.mem_filter, decide_eq_true_iff]
  rw [← hfilter, meterRows]
  split
  · rename_i hnone
    rw [hnone]
    simp
  · rw [List.mem_map]
    constructor
    · rintro ⟨r', hr', heq⟩
      cases heq
      exact ⟨hr', rfl⟩
    · rintro ⟨hr, rfl⟩
      exact ⟨r, hr, rfl⟩

omit [DecidableEq N] [LinearOrder T] in
/-- A row of a month has a reading. -/
theorem exists_of_mem_meterRows {u : PortalUser} {pm : PortalMeter N}
    {row : MonthlyKey N T × Option (Reading N)} (h : row ∈ meterRows pg db u pm) {month : T}
    (hmonth : row.1.month = some month) : row.1 = monthlyKey u pm (some month) := by
  rw [meterRows] at h
  split at h
  · rw [List.mem_singleton] at h
    subst h
    cases hmonth
  · obtain ⟨r, -, rfl⟩ := List.mem_map.1 h
    rw [← hmonth]
    rfl

/-- The readings of a group are those of its meter and month, each as often as the meter
    is joined. -/
theorem mem_monthlyGroup {key : MonthlyKey N T} {month : T} (hmonth : key.month = some month)
    (hkey : key ∈ (monthlyRows pg db).map (·.1)) (r : Reading N) :
    r ∈ monthlyGroup pg db key ↔ r ∈ inMonth pg db key.imei month := by
  have hgroup : r ∈ monthlyGroup pg db key ↔ (key, some r) ∈ monthlyRows pg db := by
    simp [monthlyGroup, List.mem_filterMap, List.mem_filter]
  rw [hgroup, inMonth, List.mem_filter, decide_eq_true_iff, monthlyRows]
  simp only [List.mem_flatMap, some_mem_meterRows]
  constructor
  · rintro ⟨u, hu, pm, hpm, ⟨hr, himei⟩, rfl⟩
    exact ⟨hr, himei, Option.some.inj hmonth⟩
  · rintro ⟨hr, himei, hin⟩
    -- the meter of the group is joined with all its readings
    obtain ⟨row, hrow, rfl⟩ := List.mem_map.1 hkey
    obtain ⟨u, hu, hrow⟩ := List.mem_flatMap.1 hrow
    obtain ⟨pm, hpm, hrow⟩ := List.mem_flatMap.1 hrow
    have hcolumns := exists_of_mem_meterRows hrow hmonth
    refine ⟨u, hu, pm, hpm, ⟨hr, ?_⟩, by rw [hcolumns, hin]⟩
    rw [himei, hcolumns]
    rfl

end View

/-! ### The formula -/

section Formula

variable {T D : Type} [LinearOrder T]

/-- Readings in the order of time. -/
def InTime (pg : Postgres T) (rows ws : List (Reading D)) : Prop :=
  rows.Perm ws ∧ ws.Pairwise fun a b => pg.instant a.ts ≤ pg.instant b.ts

/-- There are two different totals. -/
def Differ (ns : List Int) : Prop := ∃ a ∈ ns, ∃ b ∈ ns, a ≠ b

omit [LinearOrder T] in
theorem mem_totals_congr {rows rows' : List (Reading D)} (h : ∀ r, r ∈ rows ↔ r ∈ rows') (n : Int) :
    n ∈ totals rows ↔ n ∈ totals rows' := by
  simp only [totals, List.mem_filterMap, h]

theorem spread_ne_zero {ns : List Int} (h : Differ ns) : spread ns ≠ 0 := by
  obtain ⟨a, ha, b, hb, hne⟩ := h
  obtain ⟨lo, hi, -, hall, hspread⟩ := exists_bounds (List.ne_nil_of_mem ha)
  have hafirst := hall a ha
  have hbfirst := hall b hb
  omega

omit [LinearOrder T] in
/-- The query fails where the difference is too large, and gives the formula otherwise. -/
theorem groupMl_eq (rows : List (Reading D)) :
    groupMl rows = if Narrow rows then some (formula rows) else none := by
  have hbind : groupMl rows = (nullableInt 64 (difference (totals rows))).bind fun diff =>
      some (((diff.filter (· ≠ 0)).or (sum (flows rows))).getD 0) := rfl
  rw [hbind, difference_column]
  split_ifs
  · rw [Option.bind_some, coalesce_eq]
  · rfl

omit [LinearOrder T] in
theorem groupMl_of_volume {rows : List (Reading D)} {ml : Int} (h : volume rows = some ml) :
    groupMl rows = some ml := by
  rw [volume_eq_ite] at h
  split_ifs at h with hfits
  rw [groupMl_eq, if_pos hfits.1]
  exact h

omit [LinearOrder T] in
/-- Where the totals of a bucket differ, its volume is their spread. -/
theorem groupMl_eq_spread {rows : List (Reading D)} {ml : Int} (hdiffer : Differ (totals rows))
    (h : groupMl rows = some ml) : ml = spread (totals rows) := by
  rw [groupMl_eq] at h
  split_ifs at h
  rw [formula, if_neg (spread_ne_zero hdiffer)] at h
  exact (Option.some.inj h).symm

/-- The volume of a bucket is not more than what the counter has counted if and only if the first of
    its totals is covered. -/
theorem groupMl_le_iff {pg : Postgres T} {rows own ws : List (Reading D)} {ml : Int}
    (hown : ∀ r, r ∈ rows ↔ r ∈ own) (h : groupMl rows = some ml) (htime : InTime pg own ws)
    (hdiffer : Differ (totals ws)) : ml ≤ counted (totals ws) ↔ Covered (totals ws) := by
  have hsame : ∀ n, n ∈ totals rows ↔ n ∈ totals ws :=
    mem_totals_congr fun r => (hown r).trans htime.1.mem_iff
  have hdiffer' : Differ (totals rows) := by
    obtain ⟨a, ha, b, hb, hne⟩ := hdiffer
    exact ⟨a, (hsame a).2 ha, b, (hsame b).2 hb, hne⟩
  have hne : totals ws ≠ [] := by
    obtain ⟨a, ha, -⟩ := hdiffer
    exact List.ne_nil_of_mem ha
  rw [groupMl_eq_spread hdiffer' h, spread_congr hsame]
  exact spread_le_counted_iff hne

end Formula

/-! ### The reports -/

section Reports

variable {N T : Type} [DecidableEq N] [LinearOrder T]

/-- The readings of a group of the map are those of its meter, each as often as the meter
    is joined. -/
theorem mem_joined {clock : Clock T} {db : PortalDb N} {place : Place N} (h : place ∈ places db)
    (r : Reading N) : r ∈ joined clock db place ↔ r ∈ monthToDate clock db place.imei := by
  rw [joined, List.mem_flatMap]
  constructor
  · rintro ⟨m, hm, hr⟩
    rw [placeOf_imei (of_decide_eq_true (List.mem_filter.1 hm).2)]
    exact hr
  · intro hr
    obtain ⟨m, hm, hplace⟩ := List.mem_filterMap.1 (List.mem_dedup.1 h)
    rw [placeOf_imei hplace] at hr
    exact ⟨m, List.mem_filter.2 ⟨hm, decide_eq_true hplace⟩, hr⟩

/-- The volume of a group of the map is a number where the difference of its totals is
    a `bigint`. -/
theorem volumeAt_isSome_iff {clock : Clock T} {db : PortalDb N} {place : Place N} :
    (volumeAt clock db place).isSome ↔ Narrow (joined clock db place) := by
  rw [volumeAt, groupMl_eq]
  split_ifs with hnarrow
  · exact iff_of_true rfl hnarrow
  · exact iff_of_false Bool.false_ne_true hnarrow

/-- In each report, the volume of a bucket in which the total is not always the same is not more
    than what the counter has counted if and only if the first total of the bucket is covered: in
    the order of time, it is not above the smallest by more than the totals before the restarts and
    the last one, without the largest of these. -/
theorem inflated_iff [JsMath N] (clock : Clock T) (db : PortalDb N) :
    (∀ (imei : Str) (range : RangeKey) (out : List (T × Int)),
      consumption clock.toPostgres clock.now db.cloud imei range = some out →
      ∀ b ml, (b, ml) ∈ out → ∀ ws,
        InTime clock.toPostgres (bucket (bucketOf clock.toPostgres range) b
          (window clock.toPostgres clock.now db.cloud imei range)) ws →
        Differ (totals ws) → (ml ≤ counted (totals ws) ↔ Covered (totals ws))) ∧
    (∀ (order : Order (Vol N)) (points : List (HeatPoint N)),
      heatmapPoints clock order db = some points →
      ∀ p ∈ points, ∃ ml : Int, p.liters = litersOf ml ∧ ∀ ws,
        InTime clock.toPostgres (monthToDate clock db p.imei) ws →
        Differ (totals ws) → (ml ≤ counted (totals ws) ↔ Covered (totals ws))) ∧
    ∀ out : List (MonthlyKey N T × Int), householdMonthly clock.toPostgres db = some out →
      ∀ key ml, (key, ml) ∈ out → ∀ month, key.month = some month → ∀ ws,
        InTime clock.toPostgres (inMonth clock.toPostgres db key.imei month) ws →
        Differ (totals ws) → (ml ≤ counted (totals ws) ↔ Covered (totals ws)) := by
  refine ⟨?_, ?_, ?_⟩
  · -- the chart
    intro imei range out hout b ml hml ws htime hdiffer
    obtain ⟨_, -, hrow⟩ := Cut.mem_of_mapM hout hml
    obtain ⟨_, hvolume, heq⟩ := Option.map_eq_some_iff.1 hrow
    cases heq
    exact groupMl_le_iff (fun _ => Iff.rfl) (groupMl_of_volume hvolume) htime hdiffer
  · -- the map
    intro order points hpoints p hp
    obtain ⟨rows, hrows, rfl⟩ := Option.map_eq_some_iff.1 hpoints
    obtain ⟨v, hv, rfl⟩ := List.mem_map.1 hp
    have hmem : v ∈ rows := (order.perm rows).mem_iff.1 hv
    obtain ⟨place, hplace, hrow⟩ := Cut.mem_of_mapM hrows hmem
    obtain ⟨ml, hml, rfl⟩ := Option.map_eq_some_iff.1 hrow
    exact ⟨ml, rfl, fun ws htime hdiffer => groupMl_le_iff (mem_joined hplace) hml htime hdiffer⟩
  · -- the view
    intro out hout key ml hml month hmonth ws htime hdiffer
    obtain ⟨_, hkey, hrow⟩ := Cut.mem_of_mapM hout hml
    obtain ⟨_, hvolume, heq⟩ := Option.map_eq_some_iff.1 hrow
    cases heq
    exact groupMl_le_iff (mem_monthlyGroup hmonth (List.mem_dedup.1 hkey))
      (groupMl_of_volume hvolume) htime hdiffer

end Reports

/-! ### A meter that restarts -/

/-- A household with a location, and the reports of its meter. -/
def located (reports : List (Reading Exact)) : PortalDb Exact :=
  updateAddress (registered (noAccounts { noMeters with readings := reports.reverse }) [first]) 1
    "861234567890123".toList (some "3a Calle 5".toList) (some (.finite (73 / 5)))
    (some (.finite (-181 / 2))) (.finite 500)

/-- Five litres since the meter was installed, a blank EEPROM, and ten millilitres. -/
def restarted : List (Reading Exact) :=
  List.zipWith (fun r ml => { r with tlMl := some ml }) reports [5000, 10]

/-- The columns of the household in the month. -/
def anaJanuary : MonthlyKey Exact Int :=
  ⟨"ana@home.gt".toList, "861234567890123".toList, some "3a Calle 5".toList,
    some (.finite (73 / 5)), some (.finite (-181 / 2)), some 0⟩

theorem inTime_of_eq {rows ws : List (Reading Exact)} (h : rows = ws.reverse)
    (hordered : ws.Pairwise fun a b => january.instant a.ts ≤ january.instant b.ts) :
    InTime clock.toPostgres rows ws :=
  ⟨h ▸ ws.reverse_perm, hordered⟩

/-- Where nothing restarts, the three reports show what has been counted. -/
theorem inflated_iff_reports :
    consumption clock.toPostgres clock.now (located reports).cloud "861234567890123".toList .daily =
        some [(1209600, 1500)] ∧
      (1500 ≤ counted (totals reports) ↔ Covered (totals reports)) ∧
    (∃ points, heatmapPoints clock .id (located reports) = some points ∧
      ∀ p ∈ points, ∃ ml : Int, p.liters = litersOf ml ∧
        (p.imei = "861234567890123".toList →
          (ml ≤ counted (totals reports) ↔ Covered (totals reports)))) ∧
    householdMonthly clock.toPostgres (located reports) = some [(anaJanuary, 1500)] ∧
      (1500 ≤ counted (totals reports) ↔ Covered (totals reports)) := by
  have hordered : reports.Pairwise fun a b => january.instant a.ts ≤ january.instant b.ts := by
    decide +kernel
  have hdiffer : Differ (totals reports) := ⟨1000, by decide, 1500, by decide, by decide⟩
  have hdaily : consumption clock.toPostgres clock.now (located reports).cloud
      "861234567890123".toList .daily = some [(1209600, 1500)] := by decide +kernel
  have hmonthly : householdMonthly clock.toPostgres (located reports) =
      some [(anaJanuary, 1500)] := by
    decide +kernel
  obtain ⟨points, hpoints⟩ := Option.isSome_iff_exists.1
    (by decide +kernel : (heatmapPoints clock .id (located reports)).isSome)
  refine ⟨hdaily, ?_, ⟨points, hpoints, fun p hp => ?_⟩, hmonthly, ?_⟩
  · exact (inflated_iff clock (located reports)).1 _ _ _ hdaily _ _ List.mem_cons_self reports
      (inTime_of_eq rfl hordered) hdiffer
  · obtain ⟨ml, hml, hiff⟩ := (inflated_iff clock (located reports)).2.1 .id points hpoints p hp
    refine ⟨ml, hml, fun himei => hiff reports (inTime_of_eq ?_ hordered) hdiffer⟩
    rw [himei]
    rfl
  · exact (inflated_iff clock (located reports)).2.2 _ hmonthly _ _ List.mem_cons_self 0 rfl reports
      (inTime_of_eq rfl hordered) hdiffer

/-- After the restart ten millilitres were counted, and the three reports show what the counter had
    before it. -/
theorem inflated_restarted :
    let db := located restarted
    db.cloud.readings = restarted.reverse ∧ totals restarted = [5000, 10] ∧
    counted (totals restarted) = 10 ∧
    consumption clock.toPostgres clock.now db.cloud "861234567890123".toList .daily =
      some [(1209600, 4990)] ∧
    (heatmapPoints clock .id db).map (fun points => points.map (·.liters)) =
      some [litersOf 4990] ∧
    householdMonthly clock.toPostgres db = some [(anaJanuary, 4990)] := by
  refine ⟨rfl, by decide, by decide, by decide +kernel, by decide +kernel, by decide +kernel⟩

end Portal

end Waterbox
