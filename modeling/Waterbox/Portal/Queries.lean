import Mathlib
import Waterbox.Cloud.Exact
import Waterbox.Lib.Buckets

namespace Waterbox

namespace Portal

/-!
# `queries.ts`: the consumption of a meter

The portal adds up, for each hour, day, week or month, the largest total of its readings minus
the smallest; a bucket in which the total stands still shows `SUM(mls)` instead.  What flows
between the last reading of one bucket and the first of the next is in neither of them.

* `consumption` — the query.
* `History` — readings with totals that do not decrease.
* `sum_consumption` — what the buckets add up to.
* `volume_additive_iff` — when that is the volume of the window.
-/

open Buckets Cloud

/-- What the query leaves to the database: times with zone as instants, `date_trunc`, and the
    difference of a time and an interval. -/
structure Postgres (T : Type) where
  instant : ZonedTime → T
  dateTrunc : Str → T → T
  minus : T → Str → T

inductive RangeKey
  | hourly | daily | weekly | monthly
deriving DecidableEq

namespace RangeKey

/-- The table `RANGE`. -/
def trunc : RangeKey → Str
  | hourly => "hour".toList
  | daily => "day".toList
  | weekly => "week".toList
  | monthly => "month".toList

def interval : RangeKey → Str
  | hourly => "48 hours".toList
  | daily => "30 days".toList
  | weekly => "12 weeks".toList
  | monthly => "12 months".toList

end RangeKey

/-- `SUM`, which is NULL for no values. -/
def sum (ns : List Int) : Option Int := if ns.isEmpty then none else some ns.sum

/-- `MAX` minus `MIN`. -/
def difference (ns : List Int) : Option Int := do
  let hi ← ns.max?
  let lo ← ns.min?
  some (hi - lo)

variable {T D : Type} [LinearOrder T]

/-- `COALESCE(NULLIF(MAX(tl_ml) - MIN(tl_ml), 0), SUM(mls), 0)::bigint` of the readings of a
    bucket; `none` where a `bigint` overflows. -/
def volume (rows : List (Reading D)) : Option Int := do
  let diff ← nullableInt 64 (difference (rows.filterMap (·.tlMl)))
  intColumn 64 (((diff.filter (· ≠ 0)).or (sum (rows.filterMap (·.mls)))).getD 0)

/-- `WHERE imei = $2 AND ts >= now() - $3::interval`. -/
def window (pg : Postgres T) (now : T) (db : Db D) (imei : Str) (range : RangeKey) :
    List (Reading D) :=
  db.readings.filter fun r => r.imei = imei ∧ pg.minus now range.interval ≤ pg.instant r.ts

/-- `date_trunc($1, ts)`. -/
def bucketOf (pg : Postgres T) (range : RangeKey) (r : Reading D) : T :=
  pg.dateTrunc range.trunc (pg.instant r.ts)

/-- `consumption(imei, range)`, in millilitres. -/
def consumption (pg : Postgres T) (now : T) (db : Db D) (imei : Str) (range : RangeKey) :
    Option (List (T × Int)) :=
  let rows := window pg now db imei range
  ((rows.map (bucketOf pg range)).dedup.insertionSort (· ≤ ·)).mapM fun b =>
    (volume (bucket (bucketOf pg range) b rows)).map fun ml => (b, ml)

/-! ### The formula -/

/-- The totals that the readings carry. -/
def totals (rows : List (Reading D)) : List Int := rows.filterMap (·.tlMl)

/-- The values of `mls` that the readings carry. -/
def flows (rows : List (Reading D)) : List Int := rows.filterMap (·.mls)

/-- The formula, without the bounds of a `bigint`. -/
def formula (rows : List (Reading D)) : Int :=
  if spread (totals rows) = 0 then (flows rows).sum else spread (totals rows)

/-- The difference of the totals is a `bigint`. -/
def Narrow (rows : List (Reading D)) : Prop := spread (totals rows) < 2 ^ 63

instance (rows : List (Reading D)) : Decidable (Narrow rows) := inferInstanceAs (Decidable (_ < _))

/-- Difference and volume are each a `bigint`. -/
def Fits (rows : List (Reading D)) : Prop :=
  Narrow rows ∧ -2 ^ 63 ≤ formula rows ∧ formula rows < 2 ^ 63

instance (rows : List (Reading D)) : Decidable (Fits rows) := inferInstanceAs (Decidable (_ ∧ _))

theorem sum_getD (ns : List Int) : (sum ns).getD 0 = ns.sum := by
  cases ns <;> rfl

/-- `MAX(tl_ml) - MIN(tl_ml)` is NULL or the spread. -/
theorem difference_eq (ns : List Int) :
    difference ns = if ns = [] then none else some (spread ns) := by
  by_cases h : ns = []
  · rw [if_pos h, h]
    rfl
  · obtain ⟨hi, hmax⟩ := Option.ne_none_iff_exists'.1 (mt List.max?_eq_none_iff.1 h)
    obtain ⟨lo, hmin⟩ := Option.ne_none_iff_exists'.1 (mt List.min?_eq_none_iff.1 h)
    rw [if_neg h, difference, spread, hmax, hmin]
    rfl

/-- The query fails where the difference is too large. -/
theorem difference_column (rows : List (Reading D)) :
    nullableInt 64 (difference (totals rows)) =
      if Narrow rows then some (difference (totals rows)) else none := by
  have hnonneg := spread_nonneg (totals rows)
  rw [difference_eq]
  by_cases hnil : totals rows = []
  · have hnarrow : Narrow rows := by
      rw [Narrow, hnil]
      decide
    rw [if_pos hnil, if_pos hnarrow]
    rfl
  · rw [if_neg hnil, nullableInt, intColumn]
    by_cases hnarrow : Narrow rows
    · rw [if_pos ⟨by omega, hnarrow⟩, if_pos hnarrow]
      rfl
    · rw [if_neg fun h => hnarrow h.2, if_neg hnarrow]
      rfl

/-- `COALESCE(NULLIF(MAX(tl_ml) - MIN(tl_ml), 0), SUM(mls), 0)`. -/
theorem coalesce_eq (rows : List (Reading D)) :
    (((difference (totals rows)).filter (· ≠ 0)).or (sum (flows rows))).getD 0 = formula rows := by
  rw [difference_eq, formula]
  by_cases hnil : totals rows = []
  · -- no reading carries a total
    have hzero : spread (totals rows) = 0 := by rw [hnil]; rfl
    rw [if_pos hnil, if_pos hzero]
    exact sum_getD (flows rows)
  · rw [if_neg hnil]
    by_cases hzero : spread (totals rows) = 0
    · rw [if_pos hzero, hzero]
      exact sum_getD (flows rows)
    · rw [if_neg hzero, Option.filter, if_pos (by simpa using hzero)]
      rfl

theorem volume_eq_ite (rows : List (Reading D)) :
    volume rows = if Fits rows then some (formula rows) else none := by
  have hbind : volume rows = (nullableInt 64 (difference (totals rows))).bind fun diff =>
      intColumn 64 (((diff.filter (· ≠ 0)).or (sum (flows rows))).getD 0) := rfl
  rw [hbind, difference_column]
  by_cases hnarrow : Narrow rows
  · rw [if_pos hnarrow, Option.bind_some, coalesce_eq, intColumn]
    by_cases hrange : -2 ^ 63 ≤ formula rows ∧ formula rows < 2 ^ 63
    · rw [if_pos hrange, if_pos ⟨hnarrow, hrange⟩]
    · rw [if_neg hrange, if_neg fun h => hrange h.2]
  · rw [if_neg hnarrow, if_neg fun h => hnarrow h.1]
    rfl

theorem formula_of_volume {rows : List (Reading D)} {ml : Int} (h : volume rows = some ml) :
    ml = formula rows := by
  rw [volume_eq_ite] at h
  split_ifs at h
  exact (Option.some.inj h).symm

theorem spread_totals_perm {rows rows' : List (Reading D)} (h : rows.Perm rows') :
    spread (totals rows) = spread (totals rows') :=
  spread_congr fun _ => (h.filterMap _).mem_iff

/-- The formula does not depend on the order of the readings. -/
theorem formula_perm {rows rows' : List (Reading D)} (h : rows.Perm rows') :
    formula rows = formula rows' := by
  have hflows : (flows rows).Perm (flows rows') := h.filterMap _
  rw [formula, formula, spread_totals_perm h, hflows.sum_eq]

theorem volume_perm {rows rows' : List (Reading D)} (h : rows.Perm rows') :
    volume rows = volume rows' := by
  have hfits : Fits rows ↔ Fits rows' := by
    rw [Fits, Fits, Narrow, Narrow, spread_totals_perm h, formula_perm h]
  rw [volume_eq_ite, volume_eq_ite, formula_perm h]
  exact if_congr hfits rfl rfl

/-! ### What the buckets add up to -/

/-- The total of a reading that has one. -/
def total (r : Reading D) : Int := r.tlMl.getD 0

/-- Rows in the order of their times, with totals that do not decrease. -/
structure History (pg : Postgres T) (rows ws : List (Reading D)) : Prop where
  perm : rows.Perm ws
  known : ∀ r ∈ ws, r.tlMl.isSome
  increasing : ws.Pairwise fun a b => pg.instant a.ts ≤ pg.instant b.ts ∧ total a ≤ total b

/-- `SUM(mls)` over the buckets in which the total stands still. -/
def standing (key : Reading D → T) (rows : List (Reading D)) : Int :=
  ∑ b ∈ keys key rows,
    if spread ((bucket key b rows).map total) = 0 then
      ((bucket key b rows).filterMap (·.mls)).sum
    else 0

/-- The volume of a bucket of readings with totals. -/
theorem volume_eq {rows : List (Reading D)} {ml : Int} (hknown : ∀ r ∈ rows, r.tlMl.isSome)
    (h : volume rows = some ml) :
    ml = spread (rows.map total) +
      if spread (rows.map total) = 0 then (rows.filterMap (·.mls)).sum else 0 := by
  have htotals : totals rows = rows.map total := by
    rw [totals, ← List.filterMap_eq_map]
    refine List.filterMap_congr fun r hr => ?_
    obtain ⟨n, hn⟩ := Option.isSome_iff_exists.1 (hknown r hr)
    simp only [Function.comp_apply, total, hn, Option.getD_some]
  rw [formula_of_volume h, formula, htotals]
  by_cases hzero : spread (rows.map total) = 0
  · rw [if_pos hzero, if_pos hzero, hzero, zero_add]
    rfl
  · rw [if_neg hzero, if_neg hzero, add_zero]

section Additivity

variable {pg : Postgres T} {now : T} {db : Db D} {imei : Str} {range : RangeKey}
  {ws : List (Reading D)} {out : List (T × Int)}

/-- The buckets add up to the growth of the total, without what flows between two buckets, and
    with the `mls` of the buckets in which the total stands still. -/
theorem sum_consumption (hmono : ∀ unit, Monotone (pg.dateTrunc unit))
    (h : History pg (window pg now db imei range) ws)
    (hout : consumption pg now db imei range = some out) :
    (out.map Prod.snd).sum = growth total ws - crossings (bucketOf pg range) total ws +
      standing (bucketOf pg range) ws := by
  have hordered : Ordered (bucketOf pg range) total ws :=
    h.increasing.imp fun hab => ⟨hmono _ hab.1, hab.2⟩
  let rowsOf (b : T) : List (Reading D) := bucket (bucketOf pg range) b ws
  let buckets := ((window pg now db imei range).map (bucketOf pg range)).dedup.insertionSort (· ≤ ·)
  have hperm : buckets.Perm ((window pg now db imei range).map (bucketOf pg range)).dedup :=
    List.perm_insertionSort _ _
  have hnodup : buckets.Nodup := hperm.nodup_iff.2 (List.nodup_dedup _)
  have hkeys : buckets.toFinset = keys (bucketOf pg range) ws := by
    rw [← keys_perm h.perm]
    ext b
    simp only [List.mem_toFinset, hperm.mem_iff, List.mem_dedup, keys]
  -- the query sees the readings in some order; a bucket does not depend on it
  have hvolume : ∀ b ∈ buckets,
      ∀ ml, volume (bucket (bucketOf pg range) b (window pg now db imei range)) = some ml →
        ml = spread ((rowsOf b).map total) +
          if spread ((rowsOf b).map total) = 0 then ((rowsOf b).filterMap (·.mls)).sum else 0 := by
    intro b _ ml hml
    rw [volume_perm (bucket_perm h.perm b)] at hml
    exact volume_eq (fun r hr => h.known r (List.mem_of_mem_filter hr)) hml
  have hcolumn : out.map Prod.snd = buckets.map fun b => spread ((rowsOf b).map total) +
      if spread ((rowsOf b).map total) = 0 then ((rowsOf b).filterMap (·.mls)).sum else 0 := by
    refine Cut.map_of_mapM (fun b hb row hrow => ?_) hout
    obtain ⟨ml, hml, rfl⟩ := Option.map_eq_some_iff.1 hrow
    exact hvolume b hb ml hml
  rw [hcolumn, ← List.sum_toFinset _ hnodup, hkeys, Finset.sum_add_distrib,
    sum_spread hordered]
  rfl

/-- The volumes of the buckets add up to the last total minus the first if and only if what
    flows between two buckets is as much as the `mls` of the buckets in which the total stands
    still; two granularities show the same volume if and only if this difference is the same. -/
theorem volume_additive_iff (hmono : ∀ unit, Monotone (pg.dateTrunc unit)) (now : T) (db : Db D)
    (imei : Str) :
    (∀ (range : RangeKey) (ws : List (Reading D)) (out : List (T × Int)),
      History pg (window pg now db imei range) ws →
      consumption pg now db imei range = some out →
      ((out.map Prod.snd).sum = growth total ws ↔
        crossings (bucketOf pg range) total ws = standing (bucketOf pg range) ws)) ∧
    ∀ (range range' : RangeKey) (ws : List (Reading D)) (out out' : List (T × Int)),
      History pg (window pg now db imei range) ws → History pg (window pg now db imei range') ws →
      consumption pg now db imei range = some out → consumption pg now db imei range' = some out' →
      ((out.map Prod.snd).sum = (out'.map Prod.snd).sum ↔
        crossings (bucketOf pg range) total ws - standing (bucketOf pg range) ws =
          crossings (bucketOf pg range') total ws - standing (bucketOf pg range') ws) := by
  constructor
  · intro range ws out h hout
    rw [sum_consumption hmono h hout]
    omega
  · intro range range' ws out out' h h' hout hout'
    rw [sum_consumption hmono h hout, sum_consumption hmono h' hout']
    omega

end Additivity

/-- January 2026 in the zone of the server, in seconds. -/
def january : Postgres Int where
  instant z := ((z.time.day - 1) * 24 + z.time.hour) * 3600 + z.time.minute * 60 + z.time.second
  dateTrunc unit n :=
    if unit = "hour".toList then n / 3600 * 3600
    else if unit = "day".toList then n / 86400 * 86400
    -- the month starts on a Thursday
    else if unit = "week".toList then (n + 3 * 86400) / 604800 * 604800 - 3 * 86400
    else n / 2678400 * 2678400
  minus n interval :=
    if interval = "48 hours".toList then n - 48 * 3600
    else if interval = "30 days".toList then n - 30 * 86400
    else if interval = "12 weeks".toList then n - 84 * 86400
    else n - 365 * 86400

theorem january_monotone (unit : Str) : Monotone (january.dateTrunc unit) := by
  intro m n hmn
  simp only [january]
  split_ifs <;> omega

/-- A report of a meter on the 15th. -/
def report (hour : Fin 24) (minute : Fin 60) (tlMl : Int) : Reading Exact where
  imei := "861234567890123".toList
  ts := ⟨⟨2026, 1, 15, hour, minute, 0, noon.wall.year_range, noon.wall.month_range, by decide,
    hour.isLt, minute.isLt, noon.wall.second_range⟩, 0, Config.timezone⟩
  ingestedAt := 0
  lm := none
  mls := some 500
  tlMl := some tlMl
  valve := none
  wm := none
  wmCloud := none
  lk := 0
  oc := 0
  raw := []

/-- Reports of a meter through which 500 mL flow between any two of them. -/
def reports : List (Reading Exact) :=
  [report 10 10 1000, report 10 50 1500, report 11 10 2000, report 11 50 2500]

def reported : Db Exact := { noMeters with readings := reports.reverse }

/-- The end of the day. -/
def midnight : Int := 15 * 86400

theorem history_reports {range : RangeKey}
    (h : window january midnight reported "861234567890123".toList range = reports.reverse) :
    History january (window january midnight reported "861234567890123".toList range) reports where
  perm := h ▸ reports.reverse_perm
  known := by decide
  increasing := by decide +kernel

theorem consumption_daily :
    consumption january midnight reported "861234567890123".toList .daily =
      some [(1209600, 1500)] := by
  decide +kernel

/-- Reports around the hour, between which nothing flows. -/
def pauses : List (Reading Exact) :=
  [report 10 10 1000, report 10 50 1500, report 11 10 1500, report 11 50 2500, report 13 10 2500,
    report 13 50 2750]

def paused : Db Exact := { noMeters with readings := pauses.reverse }

/-- In three hours 500, 1000 and 250 mL. -/
theorem volume_additive_hourly :
    consumption january midnight paused "861234567890123".toList .hourly =
        some [(1245600, 500), (1249200, 1000), (1256400, 250)] ∧
      (500 + 1000 + 250 : Int) = growth total pauses := by
  have hout : consumption january midnight paused "861234567890123".toList .hourly =
      some [(1245600, 500), (1249200, 1000), (1256400, 250)] := by decide +kernel
  have hhistory : History january
      (window january midnight paused "861234567890123".toList .hourly) pauses :=
    { perm := pauses.reverse_perm
      known := by decide
      increasing := by decide +kernel }
  exact ⟨hout, ((volume_additive_iff january_monotone midnight paused "861234567890123".toList).1
    .hourly pauses _ hhistory hout).2 (by decide +kernel)⟩

/-- Of the three steps of 500 mL the hourly buckets show two, the daily one all three. -/
theorem volume_not_additive :
    (∀ range ∈ [RangeKey.hourly, .daily],
      History january (window january midnight reported "861234567890123".toList range) reports) ∧
    growth total reports = 1500 ∧
    consumption january midnight reported "861234567890123".toList .hourly =
      some [(1245600, 500), (1249200, 500)] ∧
    consumption january midnight reported "861234567890123".toList .daily =
      some [(1209600, 1500)] := by
  refine ⟨?_, by decide, by decide +kernel, consumption_daily⟩
  intro range hrange
  refine history_reports ?_
  simp only [List.mem_cons, List.not_mem_nil, or_false] at hrange
  rcases hrange with rfl | rfl <;> rfl

end Portal

end Waterbox
