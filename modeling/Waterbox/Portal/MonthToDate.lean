import Mathlib
import Waterbox.Portal.Reports

namespace Waterbox

namespace Portal

/-!
# The current month in three reports

The map adds up what is dated from the start of the month on, without an end; the other two reports
group by month.  So a reading of a modem clock that is a month ahead counts on the map only.

* `OneAccount` — a meter of one account, with a location.
* `inMonth`, `later` — the readings of the current month, and those of later ones.
* `heatmap_month`, `consumption_month`, `household_month` — what each report shows of such a meter.
* `Unaffected` — the readings of later months make no difference to the formula.
* `same_volume_iff` — when the three reports show one volume.
-/

open Buckets Cloud

/-! ### Rows of a report -/

/-- The volume in the row of a report that is looked for, 0 where there is none. -/
def mlWhere {κ : Type} (p : κ → Bool) (rows : List (κ × Int)) : Int :=
  ((rows.find? fun row => p row.1).map Prod.snd).getD 0

theorem mlWhere_eq {κ : Type} {p : κ → Bool} {f : κ → Option Int} {keys : List κ}
    {rows : List (κ × Int)} {ml : Int}
    (h : (keys.mapM fun key => (f key).map fun ml => (key, ml)) = some rows)
    (hrow : ∀ key ∈ keys, p key = true → ∀ n, f key = some n → n = ml)
    (hnone : (∀ key ∈ keys, p key = false) → ml = 0) : mlWhere p rows = ml := by
  unfold mlWhere
  cases hfind : rows.find? fun row => p row.1 with
  | none =>
    refine (hnone fun key hkey => ?_).symm
    have hkeys : rows.map Prod.fst = keys.map id := by
      refine Cut.map_of_mapM (fun key _ row hrow => ?_) h
      obtain ⟨ml, -, rfl⟩ := Option.map_eq_some_iff.1 hrow
      rfl
    rw [List.map_id] at hkeys
    rw [← hkeys] at hkey
    obtain ⟨row, hmem, rfl⟩ := List.mem_map.1 hkey
    simpa using List.find?_eq_none.1 hfind row hmem
  | some row =>
    obtain ⟨key, hkey, hmap⟩ := Cut.mem_of_mapM h (List.mem_of_find?_eq_some hfind)
    obtain ⟨n, hn, rfl⟩ := Option.map_eq_some_iff.1 hmap
    have hp := List.find?_some hfind
    exact hrow key hkey hp n hn

/-- Of all rows only those of one are joined. -/
theorem flatMap_of_filter {α β : Type} {p : α → Bool} {f : α → List β} {x : α} {xs : List α}
    (hx : xs.filter p = [x]) (hrest : ∀ y ∈ xs, p y = false → f y = []) :
    xs.flatMap f = f x := by
  have hfilter : xs.flatMap f = (xs.filter p).flatMap f := by
    clear hx
    induction xs with
    | nil => rfl
    | cons y ys ih =>
      have ih := ih fun z hz => hrest z (List.mem_cons_of_mem y hz)
      cases hp : p y with
      | true => rw [List.filter_cons_of_pos hp, List.flatMap_cons, List.flatMap_cons, ih]
      | false =>
        rw [List.filter_cons_of_neg (Bool.not_eq_true _ ▸ hp), List.flatMap_cons,
          hrest y List.mem_cons_self hp, List.nil_append, ih]
  rw [hfilter, hx, List.flatMap_singleton]

/-! ### More readings -/

section Formula

variable {D : Type}

theorem formula_nil : formula ([] : List (Reading D)) = 0 := rfl

/-- More readings make no difference to the formula. -/
def Unaffected (rows more : List (Reading D)) : Prop :=
  if spread (totals rows) ≠ 0 then
    -- their totals are between the others
    ∀ n ∈ totals more, (∃ a ∈ totals rows, a ≤ n) ∧ ∃ b ∈ totals rows, n ≤ b
  else if spread (totals (rows ++ more)) = 0 then (flows more).sum = 0
  else spread (totals (rows ++ more)) = (flows rows).sum

instance (rows more : List (Reading D)) : Decidable (Unaffected rows more) := by
  unfold Unaffected
  infer_instance

theorem formula_append_iff (rows more : List (Reading D)) :
    formula (rows ++ more) = formula rows ↔ Unaffected rows more := by
  have happend : totals (rows ++ more) = totals rows ++ totals more := List.filterMap_append
  have hsum : (flows (rows ++ more)).sum = (flows rows).sum + (flows more).sum := by
    rw [flows, List.filterMap_append, List.sum_append]
    rfl
  by_cases hspread : spread (totals rows) = 0
  · rw [formula, formula, if_pos hspread, Unaffected, if_neg (not_not.2 hspread)]
    by_cases hboth : spread (totals (rows ++ more)) = 0
    · rw [if_pos hboth, if_pos hboth, hsum]
      omega
    · rw [if_neg hboth, if_neg hboth]
  · have hne : totals rows ≠ [] := by
      intro hnil
      rw [hnil] at hspread
      exact hspread rfl
    have hle := spread_le_append hne (totals more)
    have hnonneg := spread_nonneg (totals rows)
    have hboth : spread (totals rows ++ totals more) ≠ 0 := by omega
    rw [formula, formula, if_neg hspread, happend, if_neg hboth, Unaffected, if_pos hspread]
    exact spread_append_eq_iff hne

end Formula

/-! ### One meter -/

section Meter

variable {N T : Type} [DecidableEq N] [LinearOrder T]

/-- A meter with one account, and a location there. -/
structure OneAccount (db : PortalDb N) (u : PortalUser) (pm : PortalMeter N) (place : Place N) :
    Prop where
  meter : (db.portalMeters.filter fun m => m.imei = pm.imei) = [pm]
  user : (db.users.filter fun u => u.id = pm.userId) = [u]
  located : placeOf pm = some place

/-- What the reports rely on of the database's calendar. -/
structure Months (pg : Postgres T) : Prop where
  trunc_le : ∀ t, pg.dateTrunc "month".toList t ≤ t
  mono : Monotone (pg.dateTrunc "month".toList)
  trunc_trunc : ∀ t, pg.dateTrunc "month".toList (pg.dateTrunc "month".toList t) =
    pg.dateTrunc "month".toList t
  year_le : ∀ t, pg.minus t "12 months".toList ≤ pg.dateTrunc "month".toList t

/-- The start of the current month. -/
def thisMonth (clock : Clock T) : T := clock.dateTrunc "month".toList clock.now

/-- The readings of a meter that are dated in a later month. -/
def later (clock : Clock T) (db : PortalDb N) (imei : Str) : List (Reading N) :=
  db.cloud.readings.filter fun r =>
    r.imei = imei ∧ thisMonth clock < readingMonth clock.toPostgres r

variable {clock : Clock T} {db : PortalDb N} {u : PortalUser} {pm : PortalMeter N}
  {place : Place N}

omit [DecidableEq N] in
/-- What is dated from the start of the month on is dated in this month or in a later one. -/
theorem monthToDate_perm (hmonths : Months clock.toPostgres) (imei : Str) :
    (monthToDate clock db imei).Perm
      (inMonth clock.toPostgres db imei (thisMonth clock) ++ later clock db imei) := by
  have hsplit := List.filter_append_perm
    (fun r => decide (readingMonth clock.toPostgres r = thisMonth clock))
      (monthToDate clock db imei)
  refine hsplit.symm.trans (List.Perm.of_eq ?_)
  have hthis : (monthToDate clock db imei).filter
      (fun r => readingMonth clock.toPostgres r = thisMonth clock) =
        inMonth clock.toPostgres db imei (thisMonth clock) := by
    refine filter_and fun r => ⟨fun h => ⟨⟨h.1, ?_⟩, h.2⟩, fun h => ⟨h.1.1, h.2⟩⟩
    have hle : readingMonth clock.toPostgres r ≤ clock.instant r.ts := hmonths.trunc_le _
    rw [h.2] at hle
    exact hle
  have hlater : (monthToDate clock db imei).filter
      (fun r => ¬ readingMonth clock.toPostgres r = thisMonth clock) = later clock db imei := by
    refine filter_and fun r => ⟨fun h => ⟨⟨h.1, ?_⟩, h.2.ne'⟩, fun h => ⟨h.1.1, ?_⟩⟩
    · exact h.2.le.trans (hmonths.trunc_le _)
    · have htrunc := hmonths.mono h.1.2
      rw [hmonths.trunc_trunc] at htrunc
      exact lt_of_le_of_ne htrunc (Ne.symm h.2)
  rw [hthis, ← hlater]
  simp only [decide_not]

omit [LinearOrder T] in
theorem OneAccount.mem_places (h : OneAccount db u pm place) : place ∈ places db := by
  have hpm : pm ∈ db.portalMeters.filter fun m => m.imei = pm.imei := by
    rw [h.meter]
    exact List.mem_singleton_self pm
  exact List.mem_dedup.2 (List.mem_filterMap.2 ⟨pm, (List.mem_filter.1 hpm).1, h.located⟩)

omit [DecidableEq N] [LinearOrder T] in
/-- The account's row is the only one of the meter. -/
theorem OneAccount.eq_of_imei (h : OneAccount db u pm place) {m : PortalMeter N}
    (hm : m ∈ db.portalMeters) (himei : m.imei = pm.imei) : m = pm := by
  have hmem : m ∈ db.portalMeters.filter fun m => m.imei = pm.imei :=
    List.mem_filter.2 ⟨hm, decide_eq_true himei⟩
  rw [h.meter, List.mem_singleton] at hmem
  exact hmem

/-! ### The map -/

/-- The readings that the map joins to the meter. -/
theorem OneAccount.joined_eq (h : OneAccount db u pm place) :
    joined clock db place = monthToDate clock db pm.imei := by
  have hrows : (db.portalMeters.filter fun m => placeOf m = some place) = [pm] := by
    rw [← h.meter]
    refine List.filter_congr fun m hm => decide_eq_decide.2 ⟨fun hplace => ?_, fun himei => ?_⟩
    · rw [← placeOf_imei hplace, placeOf_imei h.located]
    · rw [h.eq_of_imei hm himei]
      exact h.located
  rw [joined, hrows, List.flatMap_singleton]

variable [JsMath N]

/-- The map shows the formula of all readings from the start of the month on. -/
theorem heatmap_month (h : OneAccount db u pm place) {order : Order (Vol N)}
    {points : List (HeatPoint N)} (hpoints : heatmapPoints clock order db = some points) :
    (∃ p ∈ points, p.imei = pm.imei) ∧ ∀ p ∈ points, p.imei = pm.imei →
      p.liters = litersOf (formula (monthToDate clock db pm.imei)) := by
  obtain ⟨rows, hrows, rfl⟩ := Option.map_eq_some_iff.1 hpoints
  have hplaces : rows.map (·.place) = places db := (disclosed_of_vol hrows).2
  constructor
  · have hmem := h.mem_places
    rw [← hplaces] at hmem
    obtain ⟨v, hv, hplace⟩ := List.mem_map.1 hmem
    refine ⟨_, List.mem_map_of_mem ((order.perm rows).mem_iff.2 hv), ?_⟩
    show v.place.imei = pm.imei
    rw [hplace, placeOf_imei h.located]
  · intro p hp himei
    obtain ⟨v, hv, rfl⟩ := List.mem_map.1 hp
    obtain ⟨place', hplace', hrow⟩ := Cut.mem_of_mapM hrows ((order.perm rows).mem_iff.1 hv)
    obtain ⟨ml, hml, rfl⟩ := Option.map_eq_some_iff.1 hrow
    -- the place of the point is that of the account
    obtain ⟨m, hm, hlocated⟩ := List.mem_filterMap.1 (List.mem_dedup.1 hplace')
    have hmpm : m = pm := h.eq_of_imei hm ((placeOf_imei hlocated).symm.trans himei)
    rw [hmpm, h.located, Option.some.injEq] at hlocated
    subst hlocated
    rw [volumeAt, h.joined_eq, groupMl_eq] at hml
    split_ifs at hml
    cases hml
    rfl

/-! ### The chart -/

omit [DecidableEq N] [JsMath N] in
/-- The readings of the current month are a bucket of the last twelve. -/
theorem bucket_month (hmonths : Months clock.toPostgres) (imei : Str) :
    bucket (bucketOf clock.toPostgres .monthly) (thisMonth clock)
        (window clock.toPostgres clock.now db.cloud imei .monthly) =
      inMonth clock.toPostgres db imei (thisMonth clock) := by
  refine filter_and fun r => ⟨fun h => ⟨⟨h.1, ?_⟩, h.2⟩, fun h => ⟨h.1.1, h.2⟩⟩
  have htrunc : readingMonth clock.toPostgres r ≤ clock.instant r.ts := hmonths.trunc_le _
  rw [h.2] at htrunc
  exact (hmonths.year_le clock.now).trans htrunc

omit [DecidableEq N] [JsMath N] in
/-- The chart shows the formula of the readings of the month. -/
theorem consumption_month (hmonths : Months clock.toPostgres) {imei : Str} {out : List (T × Int)}
    (hout : consumption clock.toPostgres clock.now db.cloud imei .monthly = some out) :
    mlWhere (fun b => decide (b = thisMonth clock)) out =
      formula (inMonth clock.toPostgres db imei (thisMonth clock)) := by
  refine mlWhere_eq hout (fun b _ hb n hn => ?_) fun hnone => ?_
  · rw [of_decide_eq_true hb, bucket_month hmonths] at hn
    exact formula_of_volume hn
  · have hempty : inMonth clock.toPostgres db imei (thisMonth clock) = [] := by
      rw [← bucket_month hmonths, bucket, List.filter_eq_nil_iff]
      intro r hr hmonth
      have hkey : bucketOf clock.toPostgres .monthly r ∈
          ((window clock.toPostgres clock.now db.cloud imei .monthly).map
            (bucketOf clock.toPostgres .monthly)).dedup.insertionSort (· ≤ ·) :=
        (List.perm_insertionSort _ _).mem_iff.2 (List.mem_dedup.2 (List.mem_map_of_mem hr))
      exact absurd hmonth (by simpa using hnone _ hkey)
    rw [hempty, formula_nil]

/-! ### The view -/

omit [DecidableEq N] [LinearOrder T] [JsMath N] in
theorem OneAccount.eq_of_id (h : OneAccount db u pm place) {u' : PortalUser} (hu : u' ∈ db.users)
    (hid : u'.id = pm.userId) : u' = u := by
  have hmem : u' ∈ db.users.filter fun u => u.id = pm.userId :=
    List.mem_filter.2 ⟨hu, decide_eq_true hid⟩
  rw [h.user, List.mem_singleton] at hmem
  exact hmem

omit [DecidableEq N] [LinearOrder T] [JsMath N] in
/-- The account is joined with its row only. -/
theorem OneAccount.metersOf_eq (h : OneAccount db u pm place) :
    (metersOf db u.id).filter (fun m => m.imei = pm.imei) = [pm] := by
  have hid : pm.userId = u.id := by
    have hmem : u ∈ db.users.filter fun u => u.id = pm.userId := by
      rw [h.user]
      exact List.mem_singleton_self u
    exact (of_decide_eq_true (List.mem_filter.1 hmem).2).symm
  rw [metersOf, List.filter_comm, h.meter]
  exact List.filter_cons_of_pos (decide_eq_true hid)

omit [DecidableEq N] [LinearOrder T] [JsMath N] in
/-- A key of the meter and a month is that of its account. -/
theorem OneAccount.key_eq (h : OneAccount db u pm place) {pg : Postgres T} {key : MonthlyKey N T}
    {month : T} (hkey : key ∈ (monthlyRows pg db).map (·.1)) (himei : key.imei = pm.imei)
    (hmonth : key.month = some month) : key = monthlyKey u pm (some month) := by
  obtain ⟨row, hrow, rfl⟩ := List.mem_map.1 hkey
  obtain ⟨u', hu', hrow⟩ := List.mem_flatMap.1 hrow
  obtain ⟨pm', hpm', hrow⟩ := List.mem_flatMap.1 hrow
  have hcolumns := exists_of_mem_meterRows hrow hmonth
  obtain ⟨hmem, hid⟩ := List.mem_filter.1 hpm'
  have hpm : pm' = pm := by
    refine h.eq_of_imei hmem (Eq.trans ?_ himei)
    rw [hcolumns]
    rfl
  have hu : u' = u := h.eq_of_id hu' (by rw [← hpm, of_decide_eq_true hid])
  rw [hcolumns, hpm, hu]

omit [JsMath N] in
/-- The rows of another meter are in no group of a meter. -/
theorem meterRows_other {pg : Postgres T} (u' : PortalUser) {m : PortalMeter N} {month : T}
    (himei : m.imei ≠ pm.imei) :
    (meterRows pg db u' m).filter (fun row => row.1 = monthlyKey u pm (some month)) = [] := by
  refine List.filter_eq_nil_iff.2 fun row hrow heq => himei ?_
  have hkey : row.1 = monthlyKey u pm (some month) := of_decide_eq_true heq
  have hcolumns := exists_of_mem_meterRows hrow (congrArg MonthlyKey.month hkey)
  exact congrArg MonthlyKey.imei (hcolumns.symm.trans hkey)

omit [JsMath N] in
/-- Of the rows of a meter the group of a month has those with a reading of the month. -/
theorem meterRows_month (pg : Postgres T) (db : PortalDb N) (u : PortalUser) (pm : PortalMeter N)
    (month : T) :
    ((meterRows pg db u pm).filter
      fun row => row.1 = monthlyKey u pm (some month)).filterMap (·.2) =
      inMonth pg db pm.imei month := by
  have hsplit : inMonth pg db pm.imei month =
      (db.cloud.readings.filter (·.imei = pm.imei)).filter fun r => readingMonth pg r = month :=
    (filter_and fun _ => Iff.rfl).symm
  rw [hsplit, meterRows]
  cases db.cloud.readings.filter (·.imei = pm.imei) with
  -- a `LEFT JOIN` gives one row without a reading, and so without a month
  | nil =>
    have hnone : [(monthlyKey u pm none, (none : Option (Reading N)))].filter
        (fun row => row.1 = monthlyKey u pm (some month)) = [] := by
      refine List.filter_eq_nil_iff.2 fun row hrow heq => ?_
      rw [List.mem_singleton.1 hrow] at heq
      exact Option.some_ne_none month (congrArg MonthlyKey.month (of_decide_eq_true heq)).symm
    exact congrArg (List.filterMap (·.2)) hnone
  | cons r rs =>
    show ((List.map _ (r :: rs)).filter _).filterMap _ = _
    rw [List.filter_map, List.filterMap_map]
    refine List.filterMap_some.trans (List.filter_congr fun r _ => decide_eq_decide.2 ?_)
    constructor
    · intro heq
      exact Option.some.inj (congrArg MonthlyKey.month heq)
    · intro hmonth
      show monthlyKey u pm (some (readingMonth pg r)) = _
      rw [hmonth]

omit [JsMath N] in
/-- The group of the meter and a month has its readings of the month. -/
theorem OneAccount.monthlyGroup_eq (h : OneAccount db u pm place) (pg : Postgres T) (month : T) :
    monthlyGroup pg db (monthlyKey u pm (some month)) = inMonth pg db pm.imei month := by
  have hrows : (monthlyRows pg db).filter (fun row => row.1 = monthlyKey u pm (some month)) =
      (meterRows pg db u pm).filter fun row => row.1 = monthlyKey u pm (some month) := by
    rw [monthlyRows, List.filter_flatMap, flatMap_of_filter h.user, List.filter_flatMap,
      flatMap_of_filter h.metersOf_eq]
    · exact fun m _ himei => meterRows_other u (of_decide_eq_false himei)
    · intro u' hu' hid
      rw [List.filter_flatMap, List.flatMap_eq_nil_iff]
      intro m hm
      refine meterRows_other u' fun himei => of_decide_eq_false hid ?_
      obtain ⟨hmem, hm⟩ := List.mem_filter.1 hm
      rw [← of_decide_eq_true hm, h.eq_of_imei hmem himei]
  rw [monthlyGroup, hrows, meterRows_month]

omit [JsMath N] in
/-- The view shows the formula of the readings of the month. -/
theorem household_month (h : OneAccount db u pm place) {pg : Postgres T} {month : T}
    {rows : List (MonthlyKey N T × Int)} (hrows : householdMonthly pg db = some rows) :
    mlWhere (fun key => decide (key.imei = pm.imei ∧ key.month = some month)) rows =
      formula (inMonth pg db pm.imei month) := by
  refine mlWhere_eq hrows (fun key hkey hmatch n hn => ?_) fun hnone => ?_
  · obtain ⟨himei, hmonth⟩ := of_decide_eq_true hmatch
    rw [h.key_eq (List.mem_dedup.1 hkey) himei hmonth, h.monthlyGroup_eq] at hn
    exact formula_of_volume hn
  · have hempty : inMonth pg db pm.imei month = [] := by
      refine List.eq_nil_iff_forall_not_mem.2 fun r hr => ?_
      rw [← h.monthlyGroup_eq, monthlyGroup, List.mem_filterMap] at hr
      obtain ⟨row, hrow, -⟩ := hr
      obtain ⟨hrow, hkey⟩ := List.mem_filter.1 hrow
      have hfirst := List.mem_dedup.2 (List.mem_map_of_mem (f := (·.1)) hrow)
      rw [of_decide_eq_true hkey] at hfirst
      exact of_decide_eq_false (hnone _ hfirst) ⟨rfl, rfl⟩
    rw [hempty, formula_nil]

/-! ### One volume -/

/-- No query fails: the volumes of all its groups are a `bigint`, or their differences are. -/
def NoOverflow (clock : Clock T) (db : PortalDb N) (imei : Str) : Prop :=
  (∀ place ∈ places db, Narrow (joined clock db place)) ∧
  (∀ b ∈ (window clock.toPostgres clock.now db.cloud imei .monthly).map
      (bucketOf clock.toPostgres .monthly),
    Fits (bucket (bucketOf clock.toPostgres .monthly) b
      (window clock.toPostgres clock.now db.cloud imei .monthly))) ∧
  ∀ key ∈ (monthlyRows clock.toPostgres db).map (·.1), Fits (monthlyGroup clock.toPostgres db key)

instance (clock : Clock T) (db : PortalDb N) (imei : Str) :
    Decidable (NoOverflow clock db imei) := by
  unfold NoOverflow
  infer_instance

omit [LinearOrder T] [DecidableEq N] [JsMath N] in
theorem volume_isSome_iff {rows : List (Reading N)} : (volume rows).isSome ↔ Fits rows := by
  rw [volume_eq_ite]
  split_ifs with hfits
  · exact iff_of_true rfl hfits
  · exact iff_of_false Bool.false_ne_true hfits

theorem noOverflow_iff (order : Order (Vol N)) {imei : Str} :
    NoOverflow clock db imei ↔
      (heatmapPoints clock order db).isSome ∧
      (consumption clock.toPostgres clock.now db.cloud imei .monthly).isSome ∧
      (householdMonthly clock.toPostgres db).isSome := by
  rw [heatmapPoints, consumption, householdMonthly, Option.isSome_map, vol, Cut.mapM_isSome_iff,
    Cut.mapM_isSome_iff, Cut.mapM_isSome_iff]
  simp only [Option.isSome_map, volume_isSome_iff, volumeAt_isSome_iff,
    (List.perm_insertionSort _ _).mem_iff, List.mem_dedup]
  rfl

/-- The map, the chart and the view show the same volume of the meter in the current month. -/
def SameVolume (clock : Clock T) (order : Order (Vol N)) (db : PortalDb N) (imei : Str) : Prop :=
  ∃ (points : List (HeatPoint N)) (out : List (T × Int)) (rows : List (MonthlyKey N T × Int))
    (ml : Int),
    heatmapPoints clock order db = some points ∧
    consumption clock.toPostgres clock.now db.cloud imei .monthly = some out ∧
    householdMonthly clock.toPostgres db = some rows ∧
    ((∃ p ∈ points, p.imei = imei) ∧ ∀ p ∈ points, p.imei = imei → p.liters = litersOf ml) ∧
    mlWhere (fun b => decide (b = thisMonth clock)) out = ml ∧
    mlWhere (fun key => decide (key.imei = imei ∧ key.month = some (thisMonth clock))) rows = ml

/-- The three reports of a meter with one account show one volume if no query overflows and the
    readings of later months make no difference to the formula, and only then, as far as the litres
    that are shown tell the two volumes. -/
theorem same_volume_iff (hmonths : Months clock.toPostgres) (h : OneAccount db u pm place)
    (order : Order (Vol N)) :
    (NoOverflow clock db pm.imei ∧
      Unaffected (inMonth clock.toPostgres db pm.imei (thisMonth clock)) (later clock db pm.imei) →
        SameVolume clock order db pm.imei) ∧
    (Set.InjOn (litersOf : Int → N)
        {formula (monthToDate clock db pm.imei),
          formula (inMonth clock.toPostgres db pm.imei (thisMonth clock))} →
      SameVolume clock order db pm.imei →
        NoOverflow clock db pm.imei ∧
        Unaffected (inMonth clock.toPostgres db pm.imei (thisMonth clock))
          (later clock db pm.imei)) := by
  -- the map adds the readings of later months to those of the current one
  have hmap : formula (monthToDate clock db pm.imei) =
      formula (inMonth clock.toPostgres db pm.imei (thisMonth clock) ++ later clock db pm.imei) :=
    formula_perm (monthToDate_perm hmonths pm.imei)
  rw [← formula_append_iff, ← hmap]
  constructor
  · rintro ⟨hoverflow, hsame⟩
    obtain ⟨hpoints, hout, hrows⟩ := (noOverflow_iff order).1 hoverflow
    obtain ⟨points, hpoints⟩ := Option.isSome_iff_exists.1 hpoints
    obtain ⟨out, hout⟩ := Option.isSome_iff_exists.1 hout
    obtain ⟨rows, hrows⟩ := Option.isSome_iff_exists.1 hrows
    have hheat := heatmap_month h hpoints
    rw [hsame] at hheat
    exact ⟨points, out, rows, _, hpoints, hout, hrows, hheat, consumption_month hmonths hout,
      household_month h hrows⟩
  · rintro hliters ⟨points, out, rows, ml, hpoints, hout, hrows, ⟨⟨p, hp, himei⟩, hheat⟩, hchart, -⟩
    constructor
    · rw [noOverflow_iff order, hpoints, hout, hrows]
      exact ⟨rfl, rfl, rfl⟩
    · -- the point of the map shows the volume of the chart
      rw [consumption_month hmonths hout] at hchart
      have hshown := (heatmap_month h hpoints).2 p hp himei
      rw [hheat p hp himei, ← hchart] at hshown
      exact hliters (.inl rfl) (.inr rfl) hshown.symm

end Meter

/-! ### A clock that is ahead -/

/-- The first two months of 2026. -/
def winter : Clock Int where
  instant z := january.instant z + ((z.time.month : Int) - 1) * 2678400
  dateTrunc := january.dateTrunc
  minus := january.minus
  now := midnight
  stamp n := n

theorem months_winter : Months winter.toPostgres where
  trunc_le t := by
    show t / 2678400 * 2678400 ≤ t
    omega
  mono := january_monotone "month".toList
  trunc_trunc t := by
    show t / 2678400 * 2678400 / 2678400 * 2678400 = t / 2678400 * 2678400
    omega
  year_le t := by
    show t - 365 * 86400 ≤ t / 2678400 * 2678400
    omega

theorem day_nextMonth : 1 ≤ 15 ∧ 15 ≤ daysInMonth 2026 2 := by
  decide

/-- A month after the reports. -/
def nextMonth : ZonedTime where
  time := { noon.wall with
    month := 2
    day := 15
    month_range := ⟨Nat.le_succ 1, Nat.le_add_left 2 10⟩
    day_range := day_nextMonth }
  microsecond := 0
  zone := Config.timezone

/-- A report of a clock that is a month ahead. -/
def ahead : List (Reading Exact) :=
  (reports.drop 3).map fun r => { r with ts := nextMonth, tlMl := some 9500 }

/-- The meter of the first household. -/
def anaMeter : PortalMeter Exact where
  userId := 1
  imei := "861234567890123".toList
  label := some "861234567890123".toList
  address := some "3a Calle 5".toList
  lat := some (.finite (73 / 5))
  lon := some (.finite (-181 / 2))
  geofenceM := .finite 500

/-- The place of the meter on the map. -/
def anaPlace : Place Exact :=
  ⟨anaMeter.imei, .finite (73 / 5), .finite (-181 / 2), anaMeter.address, anaMeter.geofenceM⟩

/-- The first household's account is the only one. -/
theorem oneAccount_ana (rs : List (Reading Exact))
    (hmeters : (located rs).portalMeters = [anaMeter])
    (husers : (located rs).users.map (·.id) = [1]) :
    ∃ u, OneAccount (located rs) u anaMeter anaPlace := by
  obtain ⟨u, hu, hid⟩ := List.map_eq_singleton_iff.1 husers
  refine ⟨u, ?_, ?_, rfl⟩
  · rw [hmeters]
    exact List.filter_cons_of_pos (decide_eq_true rfl)
  · rw [hu]
    exact List.filter_cons_of_pos (decide_eq_true hid)

/-- Where no clock is ahead, the three reports show 1.5 litres. -/
theorem same_volume_ana : SameVolume winter .id (located reports) anaMeter.imei := by
  obtain ⟨u, h⟩ := oneAccount_ana reports (by decide +kernel) (by decide +kernel)
  exact (same_volume_iff months_winter h .id).1 (by decide +kernel)

/-- The map counts the report of next month, the other two reports do not. -/
theorem volume_ahead :
    let db := located (reports ++ ahead)
    (∃ u, OneAccount db u anaMeter anaPlace) ∧ Months winter.toPostgres ∧
    (heatmapPoints winter .id db).map (fun points => points.map (·.liters)) =
      some [litersOf 8500] ∧
    consumption winter.toPostgres winter.now db.cloud anaMeter.imei .monthly =
      some [(0, 1500), (2678400, 500)] ∧
    ¬ SameVolume winter .id db anaMeter.imei := by
  intro db
  have hone : ∃ u, OneAccount db u anaMeter anaPlace :=
    oneAccount_ana (reports ++ ahead) (by decide +kernel) (by decide +kernel)
  refine ⟨hone, months_winter, by decide +kernel, by decide +kernel, ?_⟩
  rintro ⟨points, out, rows, ml, hpoints, hout, -, ⟨⟨p, hp, himei⟩, hheat⟩, hchart, -⟩
  obtain ⟨u, h⟩ := hone
  rw [consumption_month months_winter hout] at hchart
  have hshown := (heatmap_month h hpoints).2 p hp himei
  rw [hheat p hp himei, ← hchart] at hshown
  exact absurd (litersOf_injective hshown) (by decide +kernel)

end Portal

end Waterbox
