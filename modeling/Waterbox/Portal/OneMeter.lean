import Mathlib
import Waterbox.Portal.Reports

namespace Waterbox

namespace Portal

/-!
# A meter of several accounts

The map joins the rows of `portal_meters` with the readings before it groups them, so the readings
of a meter are in its group once for each account that has the same place for it, and a meter has a
point for each of its places.

* `Reregistered` — two states that differ in the accounts of one meter at most.
* `OnePlace` — all accounts have the same place for a meter.
* `ml_of_vol` — the volume of a meter with one place.
* `CountedOnce` — the map shows and counts a meter in both states alike, and once.
* `counted_once_iff` — when it does.
-/

open Buckets Cloud

/-! ### Readings that are joined more than once -/

section Joined

variable {D : Type}

theorem sum_flows_flatMap {α : Type} (ms : List α) (rows : List (Reading D)) :
    (flows (ms.flatMap fun _ => rows)).sum = ms.length * (flows rows).sum := by
  induction ms with
  | nil => rw [List.length_nil, Nat.cast_zero, zero_mul]; rfl
  | cons m ms ih =>
    have hsplit : (flows ((m :: ms).flatMap fun _ => rows)).sum =
        (flows rows).sum + (flows (ms.flatMap fun _ => rows)).sum := by
      rw [List.flatMap_cons, flows, List.filterMap_append, List.sum_append]
      rfl
    rw [hsplit, ih, List.length_cons]
    push_cast
    ring

/-- The formula of readings that are joined `k` times. -/
def formulaTimes (k : Nat) (rows : List (Reading D)) : Int :=
  if spread (totals rows) = 0 then k * (flows rows).sum else spread (totals rows)

theorem formulaTimes_eq_iff {k k' : Nat} {rows : List (Reading D)} :
    formulaTimes k rows = formulaTimes k' rows ↔
      spread (totals rows) ≠ 0 ∨ (flows rows).sum = 0 ∨ k = k' := by
  by_cases hspread : spread (totals rows) = 0
  · rw [formulaTimes, formulaTimes, if_pos hspread, if_pos hspread, mul_eq_mul_right_iff,
      Nat.cast_inj, or_comm]
    exact ⟨.inr, Or.rec (absurd hspread) id⟩
  · rw [formulaTimes, formulaTimes, if_neg hspread, if_neg hspread]
    exact iff_of_true rfl (.inl hspread)

end Joined

/-! ### Accounts of one meter -/

section Accounts

variable {N T : Type} [DecidableEq N] [LinearOrder T]

/-- The rows of a meter that have a location. -/
def locatedRows (db : PortalDb N) (imei : Str) : List (PortalMeter N) :=
  db.portalMeters.filter fun m => m.imei = imei ∧ (placeOf m).isSome

/-- A meter that is registered with a location. -/
def Located (db : PortalDb N) (imei : Str) : Prop := locatedRows db imei ≠ []

instance (db : PortalDb N) (imei : Str) : Decidable (Located db imei) :=
  inferInstanceAs (Decidable (_ ≠ _))

/-- Two states that differ in the accounts of a meter at most, which has a location in both. -/
structure Reregistered (imei : Str) (db db' : PortalDb N) : Prop where
  readings : db'.cloud.readings = db.cloud.readings
  others : (db.portalMeters.filter fun m => m.imei ≠ imei).Perm
    (db'.portalMeters.filter fun m => m.imei ≠ imei)
  located : Located db imei
  located' : Located db' imei

/-- Whoever has registered a meter with a location has the same place for it. -/
def OnePlace (db : PortalDb N) : Prop :=
  ∀ place ∈ places db, ∀ place' ∈ places db, place.imei = place'.imei → place = place'

instance (db : PortalDb N) : Decidable (OnePlace db) :=
  inferInstanceAs (Decidable (∀ place ∈ places db, _))

/-- How many accounts have the meter makes no difference to the formula. -/
def Unmultiplied (clock : Clock T) (imei : Str) (db db' : PortalDb N) : Prop :=
  spread (totals (monthToDate clock db imei)) ≠ 0 ∨ (flows (monthToDate clock db imei)).sum = 0 ∨
    (locatedRows db imei).length = (locatedRows db' imei).length

variable {clock : Clock T} {db db' : PortalDb N} {imei : Str}

omit [LinearOrder T] in
theorem located_iff : Located db imei ↔ ∃ place ∈ places db, place.imei = imei := by
  constructor
  · intro hlocated
    obtain ⟨m, hm⟩ := List.exists_mem_of_ne_nil _ hlocated
    obtain ⟨hmem, himei, hsome⟩ := (List.mem_filter.1 hm).imp_right of_decide_eq_true
    obtain ⟨place, hplace⟩ := Option.isSome_iff_exists.1 hsome
    exact ⟨place, List.mem_dedup.2 (List.mem_filterMap.2 ⟨m, hmem, hplace⟩),
      (placeOf_imei hplace).trans himei⟩
  · rintro ⟨place, hmem, rfl⟩
    obtain ⟨m, hm, hplace⟩ := List.mem_filterMap.1 (List.mem_dedup.1 hmem)
    have hlocated : m.imei = place.imei ∧ (placeOf m).isSome :=
      ⟨(placeOf_imei hplace).symm, Option.isSome_of_eq_some hplace⟩
    exact List.ne_nil_of_mem (List.mem_filter.2 ⟨hm, decide_eq_true hlocated⟩)

namespace Reregistered

variable (h : Reregistered imei db db')

include h

omit [DecidableEq N] [LinearOrder T] in
theorem symm : Reregistered imei db' db := ⟨h.readings.symm, h.others.symm, h.located', h.located⟩

omit [DecidableEq N] in
theorem monthToDate_eq (other : Str) :
    monthToDate clock db' other = monthToDate clock db other := by
  rw [monthToDate, monthToDate, h.readings]

omit [DecidableEq N] [LinearOrder T] in
/-- The other meters have the same rows. -/
theorem locatedRows_perm {other : Str} (hother : other ≠ imei) :
    (locatedRows db other).Perm (locatedRows db' other) := by
  have hsplit (db : PortalDb N) : locatedRows db other =
      (db.portalMeters.filter fun m => m.imei ≠ imei).filter fun m =>
        m.imei = other ∧ (placeOf m).isSome :=
    (filter_and fun _ => ⟨fun h => ⟨h.1 ▸ hother, h⟩, And.right⟩).symm
  rw [hsplit, hsplit]
  exact h.others.filter _

omit [DecidableEq N] [LinearOrder T] in
theorem located_congr (other : Str) : Located db other ↔ Located db' other := by
  by_cases hother : other = imei
  · rw [hother]
    exact iff_of_true h.located h.located'
  · rw [Located, Located, not_iff_not]
    exact ⟨fun hnil => List.perm_nil.1 (hnil ▸ (h.locatedRows_perm hother).symm),
      fun hnil => List.perm_nil.1 (hnil ▸ h.locatedRows_perm hother)⟩

end Reregistered

/-! ### The volume of a meter -/

/-- Each account with the same place joins the readings of the meter once more. -/
theorem formula_joined {place : Place N} (hplace : place ∈ places db) :
    formula (joined clock db place) =
      formulaTimes (db.portalMeters.filter fun m => placeOf m = some place).length
        (monthToDate clock db place.imei) := by
  have hjoined : joined clock db place =
      (db.portalMeters.filter fun m => placeOf m = some place).flatMap fun _ =>
        monthToDate clock db place.imei := by
    rw [joined, List.flatMap_def, List.flatMap_def]
    refine congrArg List.flatten (List.map_congr_left fun m hm => ?_)
    rw [placeOf_imei (of_decide_eq_true (List.mem_filter.1 hm).2)]
  have hspread : spread (totals (joined clock db place)) =
      spread (totals (monthToDate clock db place.imei)) :=
    spread_congr (mem_totals_congr (mem_joined hplace))
  rw [formula, formulaTimes, hspread, hjoined, sum_flows_flatMap]

/-- Where a meter has one place, all its located rows are of that place. -/
theorem OnePlace.rows_eq (hone : OnePlace db) {place : Place N} (hplace : place ∈ places db) :
    (db.portalMeters.filter fun m => placeOf m = some place) = locatedRows db place.imei := by
  refine List.filter_congr fun m hm => decide_eq_decide.2 ⟨fun hrow => ?_, ?_⟩
  · exact ⟨(placeOf_imei hrow).symm, Option.isSome_of_eq_some hrow⟩
  · rintro ⟨himei, hsome⟩
    obtain ⟨place', hrow⟩ := Option.isSome_iff_exists.1 hsome
    have hplace' : place' ∈ places db := List.mem_dedup.2 (List.mem_filterMap.2 ⟨m, hm, hrow⟩)
    rw [hrow, hone place' hplace' place hplace ((placeOf_imei hrow).trans himei)]

/-- The volume of a meter with one place. -/
def volumeOf (clock : Clock T) (db : PortalDb N) (imei : Str) : Int :=
  formulaTimes (locatedRows db imei).length (monthToDate clock db imei)

theorem ml_of_vol (hone : OnePlace db) {rows : List (Vol N)} (hvol : vol clock db = some rows)
    {v : Vol N} (hv : v ∈ rows) : v.ml = volumeOf clock db v.place.imei := by
  obtain ⟨place, hplace, hrow⟩ := Cut.mem_of_mapM hvol hv
  obtain ⟨ml, hml, rfl⟩ := Option.map_eq_some_iff.1 hrow
  rw [volumeAt, groupMl_eq] at hml
  split_ifs at hml
  cases hml
  show formula (joined clock db place) = volumeOf clock db place.imei
  rw [formula_joined hplace, hone.rows_eq hplace, volumeOf]

omit [DecidableEq N] in
/-- The number of accounts makes no difference to the volume of a meter. -/
theorem Reregistered.volumeOf_eq_iff (h : Reregistered imei db db') :
    volumeOf clock db imei = volumeOf clock db' imei ↔ Unmultiplied clock imei db db' := by
  rw [volumeOf, volumeOf, h.monthToDate_eq, formulaTimes_eq_iff, Unmultiplied]

omit [DecidableEq N] in
/-- The volumes of the other meters are the same. -/
theorem Reregistered.volumeOf_other (h : Reregistered imei db db') {other : Str}
    (hother : other ≠ imei) : volumeOf clock db other = volumeOf clock db' other := by
  rw [volumeOf, volumeOf, h.monthToDate_eq, (h.locatedRows_perm hother).length_eq]

/-- The map fails for the readings of a meter with a location, whoever has registered it. -/
theorem vol_isSome_iff :
    (vol clock db).isSome ↔ ∀ imei, Located db imei → Narrow (monthToDate clock db imei) := by
  -- joining readings more than once does not change MAX - MIN
  have hnarrow {place : Place N} (hplace : place ∈ places db) :
      Narrow (joined clock db place) ↔ Narrow (monthToDate clock db place.imei) := by
    rw [Narrow, Narrow, spread_congr (mem_totals_congr (mem_joined hplace))]
  rw [vol, Cut.mapM_isSome_iff]
  simp only [Option.isSome_map, volumeAt_isSome_iff, located_iff]
  constructor
  · rintro hall imei ⟨place, hplace, rfl⟩
    exact (hnarrow hplace).1 (hall place hplace)
  · intro hall place hplace
    exact (hnarrow hplace).2 (hall place.imei ⟨place, hplace, rfl⟩)

theorem Reregistered.vol_isSome (h : Reregistered imei db db') :
    (vol clock db).isSome ↔ (vol clock db').isSome := by
  rw [vol_isSome_iff, vol_isSome_iff]
  simp only [h.located_congr, h.monthToDate_eq]

/-! ### One volume of each meter -/

/-- Each located meter has one row if and only if it has one place. -/
theorem count_eq_one_iff {rows : List (Vol N)} (hplaces : rows.map (·.place) = places db) :
    (∀ imei, Located db imei → (rows.map (·.place.imei)).count imei = 1) ↔ OnePlace db := by
  have himeis : rows.map (·.place.imei) = (places db).map (·.imei) := by
    rw [← hplaces, List.map_map]
    rfl
  have hnodup : (places db).Nodup := List.nodup_dedup _
  have hiff : ((places db).map (·.imei)).Nodup ↔ OnePlace db := List.nodup_map_iff_inj_on hnodup
  rw [himeis, ← hiff]
  -- a place occurs once among the places, so it is the meters that may occur twice
  constructor
  · intro hcount
    refine List.nodup_iff_count_le_one.2 fun imei => ?_
    by_cases hmem : imei ∈ (places db).map (·.imei)
    · exact (hcount imei (located_iff.2 (List.mem_map.1 hmem))).le
    · rw [List.count_eq_zero_of_not_mem hmem]
      exact Nat.zero_le 1
  · intro himei imei hlocated
    exact List.count_eq_one_of_mem himei (List.mem_map.2 (located_iff.1 hlocated))

variable [JsMath N]

/-- Where every meter has one place, the map has one volume for each. -/
theorem OnePlace.mls_eq (hone : OnePlace db) {rows : List (Vol N)}
    (hvol : vol clock db = some rows) :
    rows.map (·.ml) = ((places db).map (·.imei)).map (volumeOf clock db) := by
  rw [← (disclosed_of_vol hvol).2, List.map_map, List.map_map]
  exact List.map_congr_left fun v hv => ml_of_vol hone hvol hv

/-- Then these are the same volumes in both states, if no account multiplies one. -/
theorem Reregistered.mls_perm (h : Reregistered imei db db') (hone : OnePlace db)
    (hone' : OnePlace db') (hsame : Unmultiplied clock imei db db') {rows rows' : List (Vol N)}
    (hvol : vol clock db = some rows) (hvol' : vol clock db' = some rows') :
    (rows.map (·.ml)).Perm (rows'.map (·.ml)) := by
  have hnodup {db : PortalDb N} (hone : OnePlace db) : ((places db).map (·.imei)).Nodup :=
    (List.nodup_map_iff_inj_on (List.nodup_dedup _)).2 hone
  have himeis : ((places db).map (·.imei)).Perm ((places db').map (·.imei)) := by
    refine (List.perm_ext_iff_of_nodup (hnodup hone) (hnodup hone')).2 fun other => ?_
    rw [List.mem_map, List.mem_map, ← located_iff, ← located_iff]
    exact h.located_congr other
  -- only the volume of the meter whose accounts change could differ
  have hvolume : volumeOf clock db = volumeOf clock db' := by
    funext other
    by_cases hother : other = imei
    · rw [hother]
      exact h.volumeOf_eq_iff.2 hsame
    · exact h.volumeOf_other hother
  rw [hone.mls_eq hvol, hone'.mls_eq hvol', hvolume]
  exact himeis.map _

/-- The map shows the same litres for a meter and has the same median in two states, in each of
    which every meter with a location has one volume. -/
structure CountedOnce (imei : Str) (db db' : PortalDb N) (rows rows' : List (Vol N))
    (points points' : List (HeatPoint N)) : Prop where
  litres : ∀ p ∈ points, ∀ p' ∈ points', p.imei = imei → p'.imei = imei → p.liters = p'.liters
  median : (percentileCont (rows.map (·.ml)) : N) = percentileCont (rows'.map (·.ml))
  once : ∀ other, Located db other → (rows.map (·.place.imei)).count other = 1
  once' : ∀ other, Located db' other → (rows'.map (·.place.imei)).count other = 1

omit [LinearOrder T] in
/-- The points of a meter with one place show its volume. -/
theorem exists_point {order : Order (Vol N)} {rows : List (Vol N)} {median : N}
    (hplaces : rows.map (·.place) = places db) (hlocated : Located db imei) :
    ∃ v ∈ rows, v.place.imei = imei ∧
      heatmapPoint median v ∈ (order.arrange rows).map (heatmapPoint median) := by
  obtain ⟨place, hplace, rfl⟩ := located_iff.1 hlocated
  rw [← hplaces] at hplace
  obtain ⟨v, hv, rfl⟩ := List.mem_map.1 hplace
  exact ⟨v, hv, rfl, List.mem_map_of_mem ((order.perm rows).mem_iff.2 hv)⟩

/-- Accounts that are added for a meter or removed do not make the map fail.  It counts the meters
    once and alike if every meter has one place in both states, and the number of accounts makes no
    difference to the formula; and only then, as far as the litres that are shown tell
    the volumes. -/
theorem counted_once_iff (h : Reregistered imei db db') (order order' : Order (Vol N)) :
    ((heatmapPoints clock order db).isSome ↔ (heatmapPoints clock order' db').isSome) ∧
    ∀ rows rows' points points', vol clock db = some rows → vol clock db' = some rows' →
      heatmapPoints clock order db = some points → heatmapPoints clock order' db' = some points' →
      (OnePlace db ∧ OnePlace db' ∧ Unmultiplied clock imei db db' →
        CountedOnce imei db db' rows rows' points points') ∧
      (Set.InjOn (litersOf : Int → N) (volumes clock db ∪ volumes clock db') →
        CountedOnce imei db db' rows rows' points points' →
          OnePlace db ∧ OnePlace db' ∧ Unmultiplied clock imei db db') := by
  refine ⟨?_, fun rows rows' points points' hvol hvol' hpoints hpoints' => ?_⟩
  · rw [heatmapPoints, heatmapPoints, Option.isSome_map, Option.isSome_map]
    exact h.vol_isSome
  have hplaces := (disclosed_of_vol hvol).2
  have hplaces' := (disclosed_of_vol hvol').2
  rw [heatmapPoints, hvol, Option.map_some, Option.some.injEq] at hpoints
  rw [heatmapPoints, hvol', Option.map_some, Option.some.injEq] at hpoints'
  subst hpoints hpoints'
  constructor
  · rintro ⟨hone, hone', hsame⟩
    -- the volumes are the same list up to order, so the median is
    refine ⟨?_, percentileCont_perm (h.mls_perm hone hone' hsame hvol hvol'),
      (count_eq_one_iff hplaces).2 hone, (count_eq_one_iff hplaces').2 hone'⟩
    intro p hp p' hp' himei himei'
    obtain ⟨v, hv, rfl⟩ := List.mem_map.1 hp
    obtain ⟨v', hv', rfl⟩ := List.mem_map.1 hp'
    have hml := ml_of_vol hone hvol ((order.perm rows).mem_iff.1 hv)
    have hml' := ml_of_vol hone' hvol' ((order'.perm rows').mem_iff.1 hv')
    have himei : v.place.imei = imei := himei
    have himei' : v'.place.imei = imei := himei'
    show litersOf v.ml = litersOf v'.ml
    rw [hml, hml', himei, himei', h.volumeOf_eq_iff.2 hsame]
  · intro hliters hcounted
    have hone := (count_eq_one_iff hplaces).1 hcounted.once
    have hone' := (count_eq_one_iff hplaces').1 hcounted.once'
    refine ⟨hone, hone', h.volumeOf_eq_iff.1 ?_⟩
    -- the points of the meter show its volume in both states
    obtain ⟨v, hv, himei, hp⟩ := exists_point hplaces h.located
    obtain ⟨v', hv', himei', hp'⟩ := exists_point hplaces' h.located'
    have hshown : (litersOf v.ml : N) = litersOf v'.ml :=
      hcounted.litres _ hp _ hp' himei himei'
    have hml := hliters (.inl (ml_mem_volumes hvol hv)) (.inr (ml_mem_volumes hvol' hv')) hshown
    rw [ml_of_vol hone hvol hv, ml_of_vol hone' hvol' hv', himei, himei'] at hml
    exact hml

end Accounts

/-! ### Two households with one meter -/

/-- A counter that stands still, and a litre of flow. -/
def standstill : List (Reading Exact) :=
  (reports.take 2).map fun r => { r with tlMl := some 1000 }

/-- Two households that have registered the same meter, each with an address. -/
def shared (address : String) (rs : List (Reading Exact)) : PortalDb Exact :=
  let db := registered (noAccounts { noMeters with readings := rs.reverse })
    [first, second "861234567890123"]
  let db := updateAddress db 1 "861234567890123".toList (some "3a Calle 5".toList)
    (some (.finite (73 / 5))) (some (.finite (-181 / 2))) (.finite 500)
  updateAddress db 2 "861234567890123".toList (some address.toList)
    (some (.finite (73 / 5))) (some (.finite (-181 / 2))) (.finite 500)

theorem reregistered_shared {address : String} {rs : List (Reading Exact)}
    (hreadings : (shared address rs).cloud.readings = (located rs).cloud.readings)
    (hmeters : (located rs).portalMeters.all (·.imei = "861234567890123".toList) ∧
      (shared address rs).portalMeters.all (·.imei = "861234567890123".toList))
    (hlocated : Located (located rs) "861234567890123".toList)
    (hlocated' : Located (shared address rs) "861234567890123".toList) :
    Reregistered "861234567890123".toList (located rs) (shared address rs) where
  readings := hreadings
  others := by
    have hnone {imei : Str} {db : PortalDb Exact} (hall : db.portalMeters.all (·.imei = imei)) :
        db.portalMeters.filter (fun m => m.imei ≠ imei) = [] := by
      refine List.filter_eq_nil_iff.2 fun m hm hne => of_decide_eq_true hne ?_
      exact of_decide_eq_true (List.all_eq_true.1 hall m hm)
    rw [hnone hmeters.1, hnone hmeters.2]
  located := hlocated
  located' := hlocated'

/-- A total that increases is shown once, also where two households have the meter. -/
theorem counted_once_shared :
    let db := located reports
    let db' := shared "3a Calle 5" reports
    ∃ rows rows' points points', heatmapPoints clock .id db = some points ∧
      heatmapPoints clock .id db' = some points' ∧
      CountedOnce "861234567890123".toList db db' rows rows' points points' := by
  intro db db'
  have h : Reregistered "861234567890123".toList db db' :=
    reregistered_shared rfl (by decide +kernel) (by decide +kernel) (by decide +kernel)
  obtain ⟨rows, hvol⟩ := Option.isSome_iff_exists.1 (by decide +kernel : (vol clock db).isSome)
  obtain ⟨rows', hvol'⟩ := Option.isSome_iff_exists.1 (by decide +kernel : (vol clock db').isSome)
  obtain ⟨points, hpoints⟩ := Option.isSome_iff_exists.1
    (by decide +kernel : (heatmapPoints clock .id db).isSome)
  obtain ⟨points', hpoints'⟩ := Option.isSome_iff_exists.1
    (by decide +kernel : (heatmapPoints clock .id db').isSome)
  refine ⟨rows, rows', points, points', hpoints, hpoints', ?_⟩
  exact ((counted_once_iff h .id .id).2 rows rows' points points' hvol hvol' hpoints hpoints').1
    ⟨by decide +kernel, by decide +kernel, .inl (by decide +kernel)⟩

/-- With the second household the litres of the meter and the median double, or it has
    two points. -/
theorem counted_twice :
    let db := located standstill
    let near := shared "3a Calle 5" standstill
    let far := shared "9a Avenida 7" standstill
    Reregistered "861234567890123".toList db near ∧
    Reregistered "861234567890123".toList db far ∧
    (heatmapPoints clock .id db).map
      (fun points => points.map fun p => (p.liters, p.medianLiters)) =
      some [(litersOf 1000, litersOf 1000)] ∧
    (heatmapPoints clock .id near).map
      (fun points => points.map fun p => (p.liters, p.medianLiters)) =
      some [(litersOf 2000, litersOf 2000)] ∧
    (litersOf 1000 : Exact) ≠ litersOf 2000 ∧
    (vol clock far).map (fun rows => (rows.map (·.place.imei)).count "861234567890123".toList) =
      some 2 := by
  intro db near far
  refine ⟨reregistered_shared rfl ?_ ?_ ?_, reregistered_shared rfl ?_ ?_ ?_, ?_, ?_, ?_, ?_⟩
  all_goals decide +kernel

end Portal

end Waterbox
