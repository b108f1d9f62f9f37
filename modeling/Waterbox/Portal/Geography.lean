import Mathlib.Algebra.Order.BigOperators.Group.List
import Waterbox.Lib.Median
import Waterbox.Lib.Sphere
import Waterbox.Portal.Curve
import Waterbox.Portal.Households
import Waterbox.Portal.MonthToDate

namespace Waterbox

/-!
# Distances and bands of the map

`haversineM`, `geofenceOf` and `heatmapPoint` in the arithmetic of the real numbers.

* `haversineM_eq` — the distance along the sphere; `haversineM_metric` — a metric of its places.
* `geofence_peers` — who is near a household, and that it is itself.
* `bands_balanced` — the bands lie around the median.
-/

namespace Portal

open Cloud InnerProductGeometry JsNumber JsMath

section Reals

open Classical

noncomputable instance : JsMath ℝ where
  sub x y := x - y
  pow x y := x ^ y
  lt x y := x < y
  le x y := x ≤ y
  isNaN _ := false
  cos := Real.cos
  asin := Real.arcsin
  sqrt := Real.sqrt

end Reals

/-! ### `haversineM` -/

/-- `R`, in metres. -/
def earthRadius : ℝ := 6371000

/-- Degrees in radians. -/
noncomputable def toRad (d : ℝ) : ℝ := d * Real.pi / 180

/-- The place on the unit sphere with coordinates in degrees. -/
noncomputable def spot (lat lon : ℝ) : EuclideanSpace ℝ (Fin 3) :=
  Sphere.place (toRad lat) (toRad lon)

/-- `haversineM` is the distance along the sphere. -/
theorem haversineM_eq (lat1 lon1 lat2 lon2 : ℝ) :
    haversineM lat1 lon1 lat2 lon2 = earthRadius * angle (spot lat1 lon1) (spot lat2 lon2) := by
  have hsub : ∀ x y : ℝ, (y - x) * Real.pi / 180 = toRad y - toRad x := fun x y => by
    rw [toRad, toRad]
    ring
  have hmodel : haversineM lat1 lon1 lat2 lon2 = (2 : ℚ) * (6371000 : ℚ) *
      Real.arcsin √(Real.sin ((lat2 - lat1) * Real.pi / (180 : ℚ) / (2 : ℚ)) ^ ((2 : ℚ) : ℝ) +
        Real.cos (lat1 * Real.pi / (180 : ℚ)) * Real.cos (lat2 * Real.pi / (180 : ℚ)) *
          Real.sin ((lon2 - lon1) * Real.pi / (180 : ℚ) / (2 : ℚ)) ^ ((2 : ℚ) : ℝ)) := rfl
  rw [hmodel, spot, spot, ← Sphere.two_arcsin_haversine, Sphere.haversine, earthRadius]
  push_cast
  rw [hsub, hsub, Real.rpow_two, Real.rpow_two, ← toRad, ← toRad]
  ring

/-- `haversineM` is a metric of the places on the sphere, bounded by half its circumference. -/
theorem haversineM_metric (lat1 lon1 lat2 lon2 lat3 lon3 : ℝ) :
    (0 ≤ haversineM lat1 lon1 lat2 lon2 ∧
      haversineM lat1 lon1 lat2 lon2 ≤ earthRadius * Real.pi) ∧
    (haversineM lat1 lon1 lat2 lon2 = 0 ↔ spot lat1 lon1 = spot lat2 lon2) ∧
    haversineM lat1 lon1 lat2 lon2 = haversineM lat2 lon2 lat1 lon1 ∧
    haversineM lat1 lon1 lat3 lon3 ≤
      haversineM lat1 lon1 lat2 lon2 + haversineM lat2 lon2 lat3 lon3 := by
  have hR : 0 < earthRadius := by norm_num [earthRadius]
  simp only [haversineM_eq]
  refine ⟨⟨?_, ?_⟩, ?_, ?_, ?_⟩
  · exact mul_nonneg hR.le (angle_nonneg _ _)
  · exact mul_le_mul_of_nonneg_left (angle_le_pi _ _) hR.le
  · rw [mul_eq_zero, or_iff_right hR.ne']
    exact Sphere.angle_place_eq_zero_iff _ _ _ _
  · rw [angle_comm]
  · rw [← mul_add]
    exact mul_le_mul_of_nonneg_left (angle_le_angle_add_angle _ _ _) hR.le

/-! ### Bands -/

theorem orElse_zero (x : ℝ) : orElse x (ofRat 0) = x := by
  rw [orElse]
  split_ifs with h
  · rw [js_falsy] at h
    rw [h]
    exact Rat.cast_zero
  · rfl

theorem double_real (n : Int) : (double n : ℝ) = n := Rat.cast_intCast n

/-- The median of the map is a median of the volumes. -/
theorem isMedian_percentileCont (mls : List Int) :
    Median.IsMedian (percentileCont mls : ℝ) (mls.map (Int.cast : Int → ℝ)) := by
  rcases eq_or_ne mls [] with rfl | hne
  · exact ⟨Nat.le_refl 0, Nat.le_refl 0⟩
  have hperm := List.perm_insertionSort (· ≤ ·) mls
  have hsorted : (mls.insertionSort (· ≤ ·)).Pairwise (· ≤ ·) := List.pairwise_insertionSort _ mls
  rw [percentileCont]
  generalize mls.insertionSort (· ≤ ·) = sorted at hperm hsorted
  apply Median.IsMedian.perm _ (hperm.map (Int.cast : Int → ℝ))
  have hpos : 0 < sorted.length := by
    rw [hperm.length_eq]
    exact List.length_pos_iff.2 hne
  have hcast : (sorted.map (Int.cast : Int → ℝ)).Pairwise (· ≤ ·) :=
    hsorted.map _ fun a b h => Int.cast_le.2 h
  have hlo : (sorted.length - 1) / 2 < sorted.length := by omega
  have hhi : sorted.length / 2 < sorted.length := by omega
  have hle : sorted[(sorted.length - 1) / 2] ≤ sorted[sorted.length / 2] := by
    rcases Nat.lt_or_ge ((sorted.length - 1) / 2) (sorted.length / 2) with hlt | hge
    · exact List.pairwise_iff_getElem.1 hsorted _ _ hlo hhi hlt
    · have hsame : (sorted.length - 1) / 2 = sorted.length / 2 := by omega
      simp only [hsame, le_refl]
  have hle' : (sorted[(sorted.length - 1) / 2] : ℝ) ≤ sorted[sorted.length / 2] := Int.cast_le.2 hle
  rw [List.getD_eq_getElem?_getD, List.getD_eq_getElem?_getD, List.getElem?_eq_getElem hlo,
    List.getElem?_eq_getElem hhi, Option.getD_some, Option.getD_some]
  generalize hx : (if (sorted.length - 1) % 2 = 0 then double sorted[(sorted.length - 1) / 2]
    else _ : ℝ) = x
  have hbetween : (sorted[(sorted.length - 1) / 2] : ℝ) ≤ x ∧ x ≤ sorted[sorted.length / 2] := by
    have hmid : add (double sorted[(sorted.length - 1) / 2]) (mul (ofRat (1 / 2))
        (sub (double sorted[sorted.length / 2]) (double sorted[(sorted.length - 1) / 2]))) =
          (sorted[(sorted.length - 1) / 2] : ℝ) +
            ((1 / 2 : ℚ) : ℝ) * (sorted[sorted.length / 2] - sorted[(sorted.length - 1) / 2]) := by
      rw [double_real, double_real]
      rfl
    rw [hmid, double_real] at hx
    push_cast at hx
    rw [← hx]
    split_ifs <;> constructor <;> linarith
  apply Median.isMedian_of_sorted hcast (by rwa [List.length_map])
  · simpa only [List.length_map, List.getElem_map] using hbetween.1
  · simpa only [List.length_map, List.getElem_map] using hbetween.2

theorem litersOf_real (ml : Int) : (litersOf ml : ℝ) = ml / 1000 := by
  have hdiv : (litersOf ml : ℝ) = orElse (double ml) (ofRat 0) / ((1000 : ℚ) : ℝ) := rfl
  rw [hdiv, orElse_zero, double_real, Rat.cast_ofNat]

theorem lt_real (x y : ℝ) : lt x y = true ↔ x < y := decide_eq_true_iff

/-- The ratio by which a band is chosen. -/
theorem ratio_eq (medianMl : ℝ) (v : Vol ℝ) :
    (heatmapPoint medianMl v).ratio = if 0 < medianMl then v.ml / medianMl else 1 := by
  have hlt : lt (ofRat 0) medianMl = true ↔ 0 < medianMl := by
    rw [lt_real, show (ofRat 0 : ℝ) = 0 from Rat.cast_zero]
  simp only [heatmapPoint, orElse_zero, double_real, hlt]
  split_ifs
  · rfl
  · exact Rat.cast_one

theorem band_eq (medianMl : ℝ) (v : Vol ℝ) :
    (heatmapPoint medianMl v).band =
      if 6 / 5 < (heatmapPoint medianMl v).ratio then .above
      else if (heatmapPoint medianMl v).ratio < 4 / 5 then .below else .normal := by
  have hband : (heatmapPoint medianMl v).band =
      if lt (ofRat (6 / 5)) (heatmapPoint medianMl v).ratio then .above
      else if lt (heatmapPoint medianMl v).ratio (ofRat (4 / 5)) then .below else .normal := rfl
  have hhigh : (ofRat (6 / 5) : ℝ) = 6 / 5 := by
    show ((6 / 5 : ℚ) : ℝ) = 6 / 5
    push_cast
    rfl
  have hlow : (ofRat (4 / 5) : ℝ) = 4 / 5 := by
    show ((4 / 5 : ℚ) : ℝ) = 4 / 5
    push_cast
    rfl
  simp only [hband, lt_real, hhigh, hlow]

theorem band_above_iff (medianMl : ℝ) (v : Vol ℝ) :
    (heatmapPoint medianMl v).band = .above ↔ 0 < medianMl ∧ 6 / 5 * medianMl < v.ml := by
  rw [band_eq, ratio_eq]
  by_cases hpos : 0 < medianMl
  · rw [if_pos hpos, ← lt_div_iff₀ hpos]
    split_ifs <;> simp_all
  · rw [if_neg hpos, if_neg (by norm_num), if_neg (by norm_num)]
    exact iff_of_false (by decide) fun h => hpos h.1

theorem band_below_iff (medianMl : ℝ) (v : Vol ℝ) :
    (heatmapPoint medianMl v).band = .below ↔ 0 < medianMl ∧ v.ml < 4 / 5 * medianMl := by
  rw [band_eq, ratio_eq]
  by_cases hpos : 0 < medianMl
  · rw [if_pos hpos, ← div_lt_iff₀ hpos]
    split_ifs with hhigh hlow
    · exact iff_of_false (by decide) fun h => by linarith [h.2]
    · exact iff_of_true rfl ⟨hpos, hlow⟩
    · exact iff_of_false (by decide) fun h => hlow h.2
  · rw [if_neg hpos, if_neg (by norm_num), if_neg (by norm_num)]
    exact iff_of_false (by decide) fun h => hpos h.1

variable {T : Type} [LinearOrder T]

/-- At most half of the meters on the map are shown below the others, at most half above, and a
    meter is never shown in a higher band than one that used more. -/
theorem bands_balanced {clock : Clock T} {order : Order (Vol ℝ)} {db : PortalDb ℝ}
    {points : List (HeatPoint ℝ)} (h : heatmapPoints clock order db = some points) :
    2 * points.countP (·.band = .below) ≤ points.length ∧
      2 * points.countP (·.band = .above) ≤ points.length ∧
      ∀ p ∈ points, ∀ q ∈ points, p.liters ≤ q.liters →
        (p.band = .above → q.band = .above) ∧ (q.band = .below → p.band = .below) := by
  obtain ⟨rows, -, rfl⟩ := Option.map_eq_some_iff.1 h
  have hmedian := isMedian_percentileCont (rows.map (·.ml))
  generalize (percentileCont (rows.map (·.ml)) : ℝ) = medianMl at hmedian
  rw [List.map_map] at hmedian
  obtain ⟨hsmaller, hlarger⟩ := hmedian.perm ((order.perm rows).symm.map _)
  rw [List.countP_map, List.length_map] at hsmaller hlarger
  have hbelow : ((order.arrange rows).map (heatmapPoint medianMl)).countP (·.band = .below) ≤
      (order.arrange rows).countP ((fun x => decide (x < medianMl)) ∘ (Int.cast ∘ (·.ml))) := by
    rw [List.countP_map]
    apply List.countP_mono_left
    intro v _ hv
    obtain ⟨hpos, hml⟩ := (band_below_iff medianMl v).1 (of_decide_eq_true hv)
    exact decide_eq_true (by dsimp only [Function.comp_apply]; linarith)
  have habove : ((order.arrange rows).map (heatmapPoint medianMl)).countP (·.band = .above) ≤
      (order.arrange rows).countP ((fun x => decide (medianMl < x)) ∘ (Int.cast ∘ (·.ml))) := by
    rw [List.countP_map]
    apply List.countP_mono_left
    intro v _ hv
    obtain ⟨hpos, hml⟩ := (band_above_iff medianMl v).1 (of_decide_eq_true hv)
    exact decide_eq_true (by dsimp only [Function.comp_apply]; linarith)
  rw [List.length_map]
  refine ⟨by omega, by omega, ?_⟩
  intro p hp q hq hle
  obtain ⟨v, -, rfl⟩ := List.mem_map.1 hp
  obtain ⟨w, -, rfl⟩ := List.mem_map.1 hq
  have hml : (v.ml : ℝ) ≤ w.ml := by
    change litersOf v.ml ≤ litersOf w.ml at hle
    rw [litersOf_real, litersOf_real] at hle
    linarith
  rw [band_above_iff, band_above_iff, band_below_iff, band_below_iff]
  exact ⟨fun ⟨hpos, hlt⟩ => ⟨hpos, by linarith⟩, fun ⟨hpos, hlt⟩ => ⟨hpos, by linarith⟩⟩

/-! ### Neighbours -/

/-- Whether a meter on the map is near a household. -/
def Near (g : Geofence ℝ) (p : HeatPoint ℝ) : Prop :=
  earthRadius * angle (spot g.lat g.lon) (spot p.lat p.lon) ≤ g.radiusM

/-- A located meter of a household is on the map. -/
theorem exists_shown {clock : Clock T} {order : Order (Vol ℝ)} {rows : Order (PortalMeter ℝ)}
    {db : PortalDb ℝ} {userId : Nat} {points : List (HeatPoint ℝ)} {m : UserMeter ℝ} {lat lon : ℝ}
    (hpoints : heatmapPoints clock order db = some points) (hm : m ∈ userMeters rows db userId)
    (hlat : m.lat = some lat) (hlon : m.lon = some lon) :
    ∃ p ∈ points, p.lat = lat ∧ p.lon = lon := by
  have hm' := (List.perm_insertionSort _ _).mem_iff.1 hm
  obtain ⟨pm, hpm, hrow⟩ := List.mem_filterMap.1 hm'
  obtain ⟨row, -, rfl⟩ := Option.map_eq_some_iff.1 hrow
  have hmember : pm ∈ db.portalMeters := (List.mem_filter.1 ((rows.perm _).mem_iff.1 hpm)).1
  have hplace : placeOf pm = some ⟨pm.imei, lat, lon, pm.address, pm.geofenceM⟩ := by
    have hlat : pm.lat = some lat := hlat
    have hlon : pm.lon = some lon := hlon
    rw [placeOf, hlat, hlon]
    rfl
  have hplaces : ⟨pm.imei, lat, lon, pm.address, pm.geofenceM⟩ ∈ places db :=
    List.mem_dedup.2 (List.mem_filterMap.2 ⟨pm, hmember, hplace⟩)
  obtain ⟨vols, hvols, rfl⟩ := Option.map_eq_some_iff.1 hpoints
  rw [← (disclosed_of_vol hvols).2] at hplaces
  obtain ⟨v, hv, hsame⟩ := List.mem_map.1 hplaces
  refine ⟨_, List.mem_map_of_mem ((order.perm vols).mem_iff.2 hv), ?_, ?_⟩
  · exact congrArg Place.lat hsame
  · exact congrArg Place.lon hsame

theorem le_real (x y : ℝ) : le x y = true ↔ x ≤ y := decide_eq_true_iff

/-- The sum of a fold. -/
theorem foldl_liters (peers : List (HeatPoint ℝ)) (s : ℝ) :
    peers.foldl (fun s p => add s p.liters) s = s + (peers.map (·.liters)).sum := by
  induction peers generalizing s with
  | nil => exact (add_zero s).symm
  | cons p peers ih =>
    rw [List.foldl_cons, ih, List.map_cons, List.sum_cons, ← add_assoc]
    rfl

/-- An average lies between two of its numbers. -/
theorem exists_around_average {l : List ℝ} (hne : l ≠ []) :
    (∃ x ∈ l, x ≤ l.sum / l.length) ∧ ∃ y ∈ l, l.sum / l.length ≤ y := by
  have hpos : (0 : ℝ) < l.length := Nat.cast_pos.2 (List.length_pos_iff.2 hne)
  have hconst : (l.map fun _ => l.sum / l.length).sum = l.sum := by
    rw [List.map_const', List.sum_replicate, nsmul_eq_mul]
    exact mul_div_cancel₀ _ hpos.ne'
  have hid : (l.map fun x => x).sum = l.sum := by rw [List.map_id']
  exact ⟨List.exists_le_of_sum_le hne _ _ (hid.trans hconst.symm).le,
    List.exists_le_of_sum_le hne _ _ (hconst.trans hid.symm).le⟩

open Classical in
/-- The neighbours that the map counts are the meters within the radius along the sphere, the
    household's own among them unless the radius is negative; their average lies between two of
    them. -/
theorem geofence_peers {clock : Clock T} {order : Order (Vol ℝ)} {rows : Order (PortalMeter ℝ)}
    {db : PortalDb ℝ} {userId : Nat} {points : List (HeatPoint ℝ)} {g : Geofence ℝ}
    (hpoints : heatmapPoints clock order db = some points)
    (hg : geofenceOf (userMeters rows db userId) points = some g) :
    g.peerCount = points.countP (Near g ·) ∧ (0 < g.peerCount ↔ 0 ≤ g.radiusM) ∧
      (g.peerAvgLiters = none ↔ g.peerCount = 0) ∧
      ∀ avg, g.peerAvgLiters = some avg → ∃ p ∈ points, ∃ q ∈ points, Near g p ∧ Near g q ∧
        p.liters ≤ avg ∧ avg ≤ q.liters := by
  simp only [geofenceOf, Option.bind_eq_bind, Option.bind_eq_some_iff, Option.some.injEq] at hg
  obtain ⟨self, hself, lat, hlat, lon, hlon, rfl⟩ := hg
  obtain ⟨own, hown, hownLat, hownLon⟩ :=
    exists_shown hpoints (List.mem_of_find?_eq_some hself) hlat hlon
  generalize (orElse self.geofenceM (ofRat 500) : ℝ) = radius
  have hR : 0 < earthRadius := by norm_num [earthRadius]
  have hnear : ∀ p : HeatPoint ℝ, le (haversineM lat lon p.lat p.lon) radius = true ↔
      earthRadius * angle (spot lat lon) (spot p.lat p.lon) ≤ radius := by
    intro p
    rw [le_real, haversineM_eq]
  have hzero : (ofRat 0 : ℝ) = 0 := Rat.cast_zero
  dsimp only [Near]
  simp only [← hnear, hzero, foldl_liters, zero_add]
  generalize hpeers : points.filter (fun p => le (haversineM lat lon p.lat p.lon) radius) = peers
  have hmem : ∀ p, p ∈ peers ↔ p ∈ points ∧ le (haversineM lat lon p.lat p.lon) radius = true := by
    intro p
    rw [← hpeers, List.mem_filter]
  refine ⟨?_, ?_, ?_, ?_⟩
  · rw [← hpeers, List.countP_eq_length_filter]
    simp only [Bool.decide_eq_true]
  · rw [List.length_pos_iff_exists_mem]
    constructor
    · rintro ⟨p, hp⟩
      have hle := (hnear p).1 ((hmem p).1 hp).2
      exact (mul_nonneg hR.le (angle_nonneg _ _)).trans hle
    · intro hradius
      refine ⟨own, (hmem own).2 ⟨hown, ?_⟩⟩
      have hself : haversineM lat lon lat lon = 0 := by
        have hangle : angle (spot lat lon) (spot lat lon) = 0 :=
          (Sphere.angle_place_eq_zero_iff _ _ _ _).2 rfl
        rw [haversineM_eq, hangle, mul_zero]
      rw [hownLat, hownLon, le_real, hself]
      exact hradius
  · rw [List.length_eq_zero_iff, ← List.isEmpty_iff]
    split_ifs with hempty
    · exact iff_of_true rfl hempty
    · exact iff_of_false nofun hempty
  · intro avg havg
    split_ifs at havg with hempty
    have hne : peers.map (·.liters) ≠ [] := by
      rw [Ne, List.map_eq_nil_iff, ← List.isEmpty_iff]
      exact hempty
    have hdiv : avg = (peers.map (·.liters)).sum / (peers.map (·.liters)).length := by
      rw [List.length_map]
      exact (Option.some.inj havg).symm.trans (congrArg _ (Rat.cast_natCast _))
    obtain ⟨⟨x, hx, hlow⟩, y, hy, hhigh⟩ := exists_around_average hne
    obtain ⟨p, hp, rfl⟩ := List.mem_map.1 hx
    obtain ⟨q, hq, rfl⟩ := List.mem_map.1 hy
    rw [← hdiv] at hlow hhigh
    exact ⟨p, ((hmem p).1 hp).1, q, ((hmem q).1 hq).1, ((hmem p).1 hp).2, ((hmem q).1 hq).2, hlow,
      hhigh⟩

/-! ### A corner -/

/-- A reading of a meter. -/
def told (imei : String) (ts : ZonedTime) (tlMl : Int) : Reading ℝ where
  imei := imei.toList
  ts := ts
  ingestedAt := 0
  lm := none
  mls := none
  tlMl := some tlMl
  valve := none
  wm := none
  wmCloud := none
  lk := 0
  oc := 0
  raw := []

/-- A household with a located meter. -/
noncomputable def house (userId : Nat) (imei : String) (lat lon : Int) : PortalMeter ℝ where
  userId := userId
  imei := imei.toList
  label := none
  address := none
  lat := some lat
  lon := some lon
  geofenceM := ofRat 500

/-- Their meters, on which nothing is known. -/
def cornerMeters : AList fun _ : Str => Meter :=
  ["861234567890123", "861234567890124", "861234567890125"].foldl
    (fun meters imei => meters.insert imei.toList ⟨0, 0, none, none, false⟩) ∅

/-- Two households of one building and a third in another town, with 1, 2 and 4 litres between
    two times. -/
noncomputable def corner (t u : ZonedTime) : PortalDb ℝ where
  cloud :=
    { meters := cornerMeters
      readings :=
        [told "861234567890123" t 7000, told "861234567890123" u 8000,
          told "861234567890124" t 0, told "861234567890124" u 2000,
          told "861234567890125" t 500, told "861234567890125" u 4500]
      heartbeats := []
      fingerprints := [] }
  users :=
    [⟨1, [], []⟩, ⟨2, [], []⟩, ⟨3, [], []⟩]
  portalMeters :=
    [house 1 "861234567890123" 14 (-90), house 2 "861234567890124" 14 (-90),
      house 3 "861234567890125" 15 (-91)]
  nextUserId := 4

/-- What the map asks about a household. -/
noncomputable def placeAt (imei : String) (lat lon : Int) : Place ℝ :=
  ⟨imei.toList, lat, lon, none, ofRat 500⟩

theorem imeis_corner (t u : ZonedTime) : ((corner t u).portalMeters.map (·.imei)).Nodup := by
  show [_, _, _].Nodup
  decide +kernel

/-- No other household has the IMEI. -/
theorem joined_corner (t u : ZonedTime) (userId : Nat) {imei : String} {lat lon : Int}
    (hhouse : house userId imei lat lon ∈ (corner t u).portalMeters) :
    joined Portal.clock (corner t u) (placeAt imei lat lon) =
      monthToDate Portal.clock (corner t u) imei.toList := by
  have hrows : ((corner t u).portalMeters.filter fun m =>
      placeOf m = some (placeAt imei lat lon)) = [house userId imei lat lon] := by
    have hcongr : ∀ m ∈ (corner t u).portalMeters,
        placeOf m = some (placeAt imei lat lon) ↔ m = house userId imei lat lon := by
      intro m hm
      constructor
      · intro hplace
        exact List.inj_on_of_nodup_map (imeis_corner t u) hm hhouse (placeOf_imei hplace).symm
      · rintro rfl
        rfl
    rw [List.filter_congr fun m hm => decide_eq_decide.2 (hcongr m hm), List.filter_eq,
      List.count_eq_one_of_mem (imeis_corner t u).of_map hhouse, List.replicate_one]
  rw [joined, hrows, List.flatMap_singleton]
  rfl

theorem places_corner (t u : ZonedTime) : places (corner t u) =
    [placeAt "861234567890123" 14 (-90), placeAt "861234567890124" 14 (-90),
      placeAt "861234567890125" 15 (-91)] := by
  show List.dedup [_, _, _] = _
  exact List.dedup_eq_self.2 (List.Nodup.of_map Place.imei (imeis_corner t u))

/-- On the 15th, between ten and eleven o'clock. -/
theorem vol_corner : vol Portal.clock (corner (report 10 0 0).ts (report 11 0 0).ts) =
    some [⟨placeAt "861234567890123" 14 (-90), 1000⟩, ⟨placeAt "861234567890124" 14 (-90), 2000⟩,
      ⟨placeAt "861234567890125" 15 (-91), 4000⟩] := by
  have hfirst : volumeAt Portal.clock (corner (report 10 0 0).ts (report 11 0 0).ts)
      (placeAt "861234567890123" 14 (-90)) = some 1000 := by
    rw [volumeAt, joined_corner _ _ 1 (by simp [corner])]
    decide +kernel
  have hsecond : volumeAt Portal.clock (corner (report 10 0 0).ts (report 11 0 0).ts)
      (placeAt "861234567890124" 14 (-90)) = some 2000 := by
    rw [volumeAt, joined_corner _ _ 2 (by simp [corner])]
    decide +kernel
  have hthird : volumeAt Portal.clock (corner (report 10 0 0).ts (report 11 0 0).ts)
      (placeAt "861234567890125" 15 (-91)) = some 4000 := by
    rw [volumeAt, joined_corner _ _ 3 (by simp [corner])]
    decide +kernel
  rw [vol, places_corner, List.mapM_cons, List.mapM_cons, List.mapM_cons, hfirst, hsecond, hthird]
  rfl

/-- The meters on the map, around the median of 2 litres. -/
noncomputable def cornerPoints : List (HeatPoint ℝ) :=
  [⟨placeAt "861234567890123" 14 (-90), 1000⟩, ⟨placeAt "861234567890124" 14 (-90), 2000⟩,
    ⟨placeAt "861234567890125" 15 (-91), 4000⟩].map (heatmapPoint (double 2000))

theorem heatmapPoints_corner :
    heatmapPoints Portal.clock Order.id (corner (report 10 0 0).ts (report 11 0 0).ts) =
      some cornerPoints := by
  have hmedian : (percentileCont [1000, 2000, 4000] : ℝ) = 2000 := by
    have hsort : [(1000 : Int), 2000, 4000].insertionSort (· ≤ ·) = [1000, 2000, 4000] := by decide
    simp only [percentileCont, hsort]
    show double 2000 = _
    rw [double_real]
    norm_num
  rw [heatmapPoints, vol_corner]
  show some (List.map (heatmapPoint (percentileCont [1000, 2000, 4000])) _) = _
  rw [hmedian]
  rfl

/-- One meter in each band. -/
theorem bands_corner : cornerPoints.map (·.band) = [.below, .normal, .above] := by
  simp only [cornerPoints, List.map_cons, List.map_nil, band_eq, ratio_eq, double_real]
  norm_num

theorem bands_balanced_corner :
    cornerPoints.map (·.band) = [.below, .normal, .above] ∧
      2 * cornerPoints.countP (·.band = .below) ≤ cornerPoints.length ∧
      2 * cornerPoints.countP (·.band = .above) ≤ cornerPoints.length ∧
      ∀ p ∈ cornerPoints, ∀ q ∈ cornerPoints, p.liters ≤ q.liters →
        (p.band = .above → q.band = .above) ∧ (q.band = .below → p.band = .below) :=
  ⟨bands_corner, bands_balanced heatmapPoints_corner⟩

theorem userMeters_corner (t u : ZonedTime) : userMeters Order.id (corner t u) 1 =
    [⟨"861234567890123".toList, none, none, some (14 : Int), some (-90 : Int), ofRat 500, 0,
      false, none⟩] := by
  have hrow : (corner t u).cloud.meters.lookup "861234567890123".toList =
      some ⟨0, 0, none, none, false⟩ := by
    show cornerMeters.lookup _ = _
    decide +kernel
  have hmine : metersOf (corner t u) 1 = [house 1 "861234567890123" 14 (-90)] := rfl
  have hjoin : (metersOf (corner t u) 1).filterMap (userMeter (corner t u)) =
      [⟨"861234567890123".toList, none, none, some (14 : Int), some (-90 : Int), ofRat 500, 0,
      false, none⟩] := by
    rw [hmine, List.filterMap_cons, userMeter]
    dsimp only [house]
    rw [hrow]
    rfl
  show List.insertionSort _ ((metersOf (corner t u) 1).filterMap (userMeter (corner t u))) = _
  rw [hjoin]
  rfl

open Classical in
theorem geofence_peers_corner :
    ∃ g, geofenceOf (userMeters Order.id (corner (report 10 0 0).ts (report 11 0 0).ts) 1)
        cornerPoints = some g ∧
      g.peerCount = cornerPoints.countP (Near g ·) ∧ (0 < g.peerCount ↔ 0 ≤ g.radiusM) ∧
        (g.peerAvgLiters = none ↔ g.peerCount = 0) ∧
        ∀ avg, g.peerAvgLiters = some avg → ∃ p ∈ cornerPoints, ∃ q ∈ cornerPoints,
          Near g p ∧ Near g q ∧ p.liters ≤ avg ∧ avg ≤ q.liters := by
  have hg : ∃ g, geofenceOf (userMeters Order.id (corner (report 10 0 0).ts (report 11 0 0).ts) 1)
      cornerPoints = some g := by
    rw [userMeters_corner]
    exact ⟨_, rfl⟩
  obtain ⟨g, hg⟩ := hg
  exact ⟨g, hg, geofence_peers heatmapPoints_corner hg⟩

end Portal

end Waterbox
