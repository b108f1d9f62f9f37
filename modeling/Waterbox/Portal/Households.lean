import Waterbox.Portal.Accounts
import Waterbox.Portal.Queries

namespace Waterbox

namespace Portal

/-!
# What a household sees

The routes of the portal answer for the session of an account: its meters, their consumption and
fingerprints, its address, and the map of all meters that have a location.

* `userMeters`, `ownsMeter`, `fingerprintsByMonth`, `heatmapPoints` — the queries.
* `respond` — the routes; `Responses` — the responses that the order of rows allows.
* `Agree` — two states that agree in what belongs to a household.
* `Disclosed` — what the map shows of a meter, whosever it is.
* `responses_subset`, `undisclosed_of_eq` — that is all that the responses depend on.
* `updateAddress_frame` — what an address that is saved leaves as it is.
* `isolated_iff` — when the responses are the same, and when they are about meters of the household.
-/

open Buckets Cloud

/-- Also the comparisons and functions that the map uses; the two zeros are one number. -/
class JsMath (N : Type) extends JsNumber N where
  sub : N → N → N
  pow : N → N → N
  lt : N → N → Bool
  le : N → N → Bool
  isNaN : N → Bool
  cos : N → N
  asin : N → N
  sqrt : N → N

open JsNumber JsMath

/-- The database server at the time of a request. -/
structure Clock (T : Type) extends Postgres T where
  now : T
  /-- A time that the server has set. -/
  stamp : Nat → T

/-- An order in which the rows of a query come. -/
structure Order (α : Type) where
  arrange : List α → List α
  perm : ∀ rows, (arrange rows).Perm rows

/-! ### Queries of one account -/

section Accounts

variable {N T : Type}

/-- `WHERE pm.user_id = $1`. -/
def metersOf (db : PortalDb N) (userId : Nat) : List (PortalMeter N) :=
  db.portalMeters.filter fun m => m.userId = userId

structure UserMeter (N : Type) where
  imei : Str
  label : Option Str
  address : Option Str
  lat : Option N
  lon : Option N
  geofenceM : N
  lastSeen : Nat
  fpValid : Bool
  valve : Option Bool
deriving DecidableEq

/-- A row of `portal_meters`, joined with its row of `meters`. -/
def userMeter (db : PortalDb N) (pm : PortalMeter N) : Option (UserMeter N) :=
  (db.cloud.meters.lookup pm.imei).map fun m =>
    { imei := pm.imei
      label := pm.label
      address := pm.address
      lat := pm.lat
      lon := pm.lon
      geofenceM := pm.geofenceM
      lastSeen := m.lastSeen
      fpValid := m.fpValid
      valve := m.valve }

/-- `userMeters(userId)`, by code points. -/
def userMeters (order : Order (PortalMeter N)) (db : PortalDb N) (userId : Nat) :
    List (UserMeter N) :=
  ((order.arrange (metersOf db userId)).filterMap (userMeter db)).insertionSort
    fun a b => ¬ b.imei < a.imei

/-- Whether an account has a row for a meter. -/
def Owns (db : PortalDb N) (userId : Nat) (imei : Str) : Prop :=
  ∃ m ∈ metersOf db userId, m.imei = imei

instance (db : PortalDb N) (userId : Nat) (imei : Str) : Decidable (Owns db userId imei) :=
  inferInstanceAs (Decidable (∃ m ∈ metersOf db userId, m.imei = imei))

/-- `ownsMeter(userId, imei)`; `none` where the query fails. -/
def ownsMeter (db : PortalDb N) (userId : Nat) (imei : Str) : Option Bool :=
  (textColumn imei).map fun imei => decide (Owns db userId imei)

variable [LinearOrder T]

/-- `DISTINCT ON`: the first row of each month. -/
def distinctOn {α : Type} (key : α → T) (rows : List α) : List α :=
  rows.foldl (fun kept row => if kept.any (key · = key row) then kept else kept ++ [row]) []

/-- `date_trunc('month', created_at)`. -/
def monthOf (clock : Clock T) (fp : Fingerprint N) : T :=
  clock.dateTrunc "month".toList (clock.stamp fp.createdAt)

/-- `ORDER BY date_trunc('month', created_at) DESC, created_at DESC`. -/
def newestFirst (clock : Clock T) (a b : Fingerprint N) : Bool :=
  monthOf clock b < monthOf clock a ||
    (monthOf clock b = monthOf clock a && clock.stamp b.createdAt ≤ clock.stamp a.createdAt)

/-- `fingerprintsByMonth(imei)`. -/
def fingerprintsByMonth (clock : Clock T) (order : Order (Fingerprint N)) (db : PortalDb N)
    (imei : Str) : List (Fingerprint N) :=
  let rows := order.arrange (db.cloud.fingerprints.filter (·.imei = imei))
  (distinctOn (monthOf clock) (rows.insertionSort fun a b => newestFirst clock a b = true)).take 6

end Accounts

/-! ### The map -/

section Map

variable {N T : Type} [DecidableEq N] [LinearOrder T]

/-- The columns by which the query groups. -/
structure Place (N : Type) where
  imei : Str
  lat : N
  lon : N
  address : Option Str
  geofenceM : N
deriving DecidableEq

/-- `WHERE pm.lat IS NOT NULL AND pm.lon IS NOT NULL`. -/
def placeOf (m : PortalMeter N) : Option (Place N) := do
  let lat ← m.lat
  let lon ← m.lon
  some ⟨m.imei, lat, lon, m.address, m.geofenceM⟩

omit [DecidableEq N] [LinearOrder T] in
theorem placeOf_imei {m : PortalMeter N} {place : Place N} (h : placeOf m = some place) :
    place.imei = m.imei := by
  simp only [placeOf, Option.bind_eq_bind, Option.bind_eq_some_iff, Option.some.injEq] at h
  obtain ⟨_, -, _, -, rfl⟩ := h
  rfl

def places (db : PortalDb N) : List (Place N) := (db.portalMeters.filterMap placeOf).dedup

/-- `r.imei = pm.imei AND r.ts >= date_trunc('month', now())`. -/
def monthToDate (clock : Clock T) (db : PortalDb N) (imei : Str) : List (Reading N) :=
  db.cloud.readings.filter fun r =>
    r.imei = imei ∧ clock.dateTrunc "month".toList clock.now ≤ clock.instant r.ts

/-- The readings of a group, once for each of its rows of `portal_meters`. -/
def joined (clock : Clock T) (db : PortalDb N) (place : Place N) : List (Reading N) :=
  (db.portalMeters.filter fun m => placeOf m = some place).flatMap fun m =>
    monthToDate clock db m.imei

/-- `COALESCE(NULLIF(MAX(r.tl_ml) - MIN(r.tl_ml), 0), SUM(r.mls), 0)`; `none` where the difference
    of two `bigint` overflows. -/
def groupMl {D : Type} (rows : List (Reading D)) : Option Int := do
  let diff ← nullableInt 64 (difference (rows.filterMap (·.tlMl)))
  some (((diff.filter (· ≠ 0)).or (sum (rows.filterMap (·.mls)))).getD 0)

def volumeAt (clock : Clock T) (db : PortalDb N) (place : Place N) : Option Int :=
  groupMl (joined clock db place)

/-- A row of `vol`. -/
structure Vol (N : Type) where
  place : Place N
  ml : Int
deriving DecidableEq

def vol (clock : Clock T) (db : PortalDb N) : Option (List (Vol N)) :=
  (places db).mapM fun place => (volumeAt clock db place).map fun ml => ⟨place, ml⟩

variable [JsMath N]

/-- `::double precision`, and a number of the code. -/
def double (n : Int) : N := ofRat n

/-- `percentile_cont(0.5)`, which interpolates between the two rows in the middle. -/
def percentileCont (mls : List Int) : N :=
  let sorted := mls.insertionSort (· ≤ ·)
  let lo := sorted.getD ((sorted.length - 1) / 2) 0
  let hi := sorted.getD (sorted.length / 2) 0
  if (sorted.length - 1) % 2 = 0 then double lo
  else add (double lo) (mul (ofRat (1 / 2)) (sub (double hi) (double lo)))

/-- `Number(x) || other`. -/
def orElse (x other : N) : N := if falsy x then other else x

inductive Band
  | below | normal | above
deriving DecidableEq

structure HeatPoint (N : Type) where
  imei : Str
  lat : N
  lon : N
  address : Option Str
  geofenceM : N
  liters : N
  medianLiters : N
  ratio : N
  band : Band
deriving DecidableEq

/-- The litres of a volume in millilitres. -/
def litersOf (ml : Int) : N := div (orElse (double ml) (ofRat 0)) (ofRat 1000)

def heatmapPoint (medianMl : N) (v : Vol N) : HeatPoint N :=
  let ml := orElse (double v.ml) (ofRat 0)
  let median := orElse medianMl (ofRat 0)
  let ratio := if lt (ofRat 0) median then div ml median else ofRat 1
  let band := if lt ratio (ofRat (4 / 5)) then .below else .normal
  let band := if lt (ofRat (6 / 5)) ratio then .above else band
  { imei := v.place.imei
    lat := v.place.lat
    lon := v.place.lon
    address := v.place.address
    geofenceM := orElse v.place.geofenceM (ofRat 500)
    liters := litersOf v.ml
    medianLiters := div median (ofRat 1000)
    ratio := ratio
    band := band }

/-- `heatmapPoints()`, with the rows in any `order`; `none` where the query fails. -/
def heatmapPoints (clock : Clock T) (order : Order (Vol N)) (db : PortalDb N) :
    Option (List (HeatPoint N)) :=
  (vol clock db).map fun rows =>
    (order.arrange rows).map (heatmapPoint (percentileCont (rows.map (·.ml))))

def haversineM (lat1 lon1 lat2 lon2 : N) : N :=
  let toRad (d : N) : N := div (mul d pi) (ofRat 180)
  let dLat := toRad (sub lat2 lat1)
  let dLon := toRad (sub lon2 lon1)
  let a := add (pow (sin (div dLat (ofRat 2))) (ofRat 2))
    (mul (mul (cos (toRad lat1)) (cos (toRad lat2))) (pow (sin (div dLon (ofRat 2))) (ofRat 2)))
  mul (mul (ofRat 2) (ofRat 6371000)) (asin (sqrt a))

end Map

/-! ### The routes -/

section Routes

variable {N T : Type}

structure Month (T N : Type) where
  month : T
  n : Option Int
  curve : List (CurvePoint N)

structure Geofence (N : Type) where
  lat : N
  lon : N
  radiusM : N
  peerCount : Nat
  peerAvgLiters : Option N

/-- A response: `{ error }` with its status, that of an exception, or what the route answers. -/
inductive Response (T N : Type)
  | error (text : Str) (status : Nat)
  | thrown
  | meters (email : Str) (meters : List (UserMeter N))
  | series (series : List (T × N))
  | months (months : List (Month T N))
  | address (lat lon : Option N) (geofenceM : N)
  | heatmap (mine : List (UserMeter N)) (points : List (HeatPoint N))
      (geofence : Option (Geofence N))

/-- A request, its parameters with their defaults and its numbers read.  `located` is what the
    geocoder answers to the address, if it does. -/
inductive Request (N : Type)
  | meters
  | consumption (imei range : Str)
  | fingerprint (imei : Str)
  | address (imei address : Str) (lat lon : Option N) (geofenceM : N)
      (located : Option (Option (N × N)))
  | heatmap

/-- The orders that no `ORDER BY` determines. -/
structure Plan (N : Type) where
  meters : Order (PortalMeter N)
  fingerprints : Order (Fingerprint N)
  points : Order (Vol N)

def RangeKey.ofText (range : Str) : Option RangeKey :=
  if range = "hourly".toList then some .hourly
  else if range = "daily".toList then some .daily
  else if range = "weekly".toList then some .weekly
  else if range = "monthly".toList then some .monthly
  else none

def fingerprintRow (fp : Fingerprint N) : FingerprintRow N :=
  ⟨fp.w, fp.a1, fp.p1, fp.t1, fp.a2, fp.p2, fp.t2⟩

/-- The `UPDATE` of the address. -/
def updateAddress (db : PortalDb N) (userId : Nat) (imei : Str) (address : Option Str)
    (lat lon : Option N) (geofenceM : N) : PortalDb N :=
  { db with
    portalMeters := db.portalMeters.map fun m =>
      if m.userId = userId ∧ m.imei = imei then
        { m with address := address, lat := lat, lon := lon, geofenceM := geofenceM }
      else m }

variable [JsMath N]

/-- The `geofence` of the map: who is near the first meter with a location. -/
def geofenceOf (mine : List (UserMeter N)) (points : List (HeatPoint N)) : Option (Geofence N) := do
  let self ← mine.find? fun m => m.lat.isSome && m.lon.isSome
  let lat ← self.lat
  let lon ← self.lon
  let radius := orElse self.geofenceM (ofRat 500)
  let peers := points.filter fun p => le (haversineM lat lon p.lat p.lon) radius
  let sum := peers.foldl (fun s p => add s p.liters) (ofRat 0)
  some
    { lat := lat
      lon := lon
      radiusM := radius
      peerCount := peers.length
      peerAvgLiters := if peers.isEmpty then none else some (div sum (ofRat peers.length)) }

/-- Where the address leads, if the request names no place; `none` where the geocoder fails. -/
def geocoded (address : Str) (lat lon : Option N) (located : Option (Option (N × N))) :
    Option (Option N × Option N) :=
  if !address.isEmpty && (lat.isNone || lon.isNone || lat.any isNaN) then
    located.map fun geo =>
      match geo with
      | none => (lat, lon)
      | some (lat, lon) => (some lat, some lon)
  else some (lat, lon)

/-- The routes of a meter answer to its owner. -/
def guarded (db : PortalDb N) (userId : Nat) (imei : Str) (answer : Response T N × PortalDb N) :
    Response T N × PortalDb N :=
  match ownsMeter db userId imei with
  | none => (.thrown, db)
  | some false => (.error "forbidden".toList 403, db)
  | some true => answer

variable [LinearOrder T] [DecidableEq N]

/-- `GET` of `consumption`, in litres. -/
def consumptionRoute (clock : Clock T) (db : PortalDb N) (userId : Nat) (imei range : Str) :
    Response T N × PortalDb N :=
  match RangeKey.ofText range with
  | none => (.error "bad range".toList 400, db)
  | some range =>
    guarded db userId imei
      (match consumption clock.toPostgres clock.now db.cloud imei range with
        | none => (.thrown, db)
        | some series => (.series (series.map fun r => (r.1, div (double r.2) (ofRat 1000))), db))

/-- `GET` of `fingerprint`. -/
def fingerprintRoute (clock : Clock T) (order : Order (Fingerprint N)) (db : PortalDb N)
    (userId : Nat) (imei : Str) : Response T N × PortalDb N :=
  guarded db userId imei
    (.months ((fingerprintsByMonth clock order db imei).map fun row =>
      ⟨monthOf clock row, row.nSamples, fingerprintCurve (fingerprintRow row)⟩), db)

/-- `POST` of `address`. -/
def addressRoute (db : PortalDb N) (userId : Nat) (imei address : Str) (lat lon : Option N)
    (geofenceM : N) (located : Option (Option (N × N))) : Response T N × PortalDb N :=
  let address := trim address
  guarded db userId imei
    (match geocoded address lat lon located with
      | none => (.thrown, db)
      | some (lat, lon) =>
        if textColumn address = none then (.thrown, db)
        else
          (.address lat lon geofenceM,
            updateAddress db userId imei (if address.isEmpty then none else some address) lat lon
              geofenceM))

/-- `GET` of `heatmap`. -/
def heatmapRoute (clock : Clock T) (plan : Plan N) (db : PortalDb N) (userId : Nat) :
    Response T N × PortalDb N :=
  let mine := userMeters plan.meters db userId
  match heatmapPoints clock plan.points db with
  | none => (.thrown, db)
  | some points => (.heatmap mine points (geofenceOf mine points), db)

/-- The routes, with the tables they leave. -/
def respond (clock : Clock T) (plan : Plan N) (db : PortalDb N) (session : Option Session)
    (req : Request N) : Response T N × PortalDb N :=
  match session with
  | none => (.error "auth".toList 401, db)
  | some session =>
    match req with
    | .meters => (.meters session.email (userMeters plan.meters db session.userId), db)
    | .consumption imei range => consumptionRoute clock db session.userId imei range
    | .fingerprint imei => fingerprintRoute clock plan.fingerprints db session.userId imei
    | .address imei address lat lon geofenceM located =>
      addressRoute db session.userId imei address lat lon geofenceM located
    | .heatmap => heatmapRoute clock plan db session.userId

/-- The responses to a session that are possible, whatever the order of the rows. -/
def Responses (clock : Clock T) (db : PortalDb N) (session : Session) (req : Request N) :
    Set (Response T N) :=
  { r | ∃ plan, (respond clock plan db (some session) req).1 = r }

end Routes

/-! ### What a household may see -/

section Agreement

variable {N T : Type} [DecidableEq N] [LinearOrder T]

/-- Coordinates and month-to-date volume of the located meters that an account does not own. -/
def others (clock : Clock T) (db : PortalDb N) (userId : Nat) : List (N × N × Option Int) :=
  ((places db).filter fun p => ¬ Owns db userId p.imei).map fun p =>
    (p.lat, p.lon, volumeAt clock db p)

/-- Two states with the same rows of the meters that an account owns, and the same coordinates and
    volumes of the others. -/
structure Agree (clock : Clock T) (userId : Nat) (db db' : PortalDb N) : Prop where
  mine : (metersOf db userId).Perm (metersOf db' userId)
  meters : ∀ imei, Owns db userId imei →
    db.cloud.meters.lookup imei = db'.cloud.meters.lookup imei
  readings : ∀ imei, Owns db userId imei →
    (db.cloud.readings.filter (·.imei = imei)).Perm (db'.cloud.readings.filter (·.imei = imei))
  fingerprints : ∀ imei, Owns db userId imei →
    (db.cloud.fingerprints.filter (·.imei = imei)).Perm
      (db'.cloud.fingerprints.filter (·.imei = imei))
  others : (others clock db userId).Perm (others clock db' userId)

/-- What the map shows of a group. -/
structure Disclosed (N : Type) where
  imei : Str
  lat : N
  lon : N
  address : Option Str
  radiusM : N
  volume : Option Int
deriving DecidableEq

variable [JsMath N]

def disclosed (clock : Clock T) (db : PortalDb N) : List (Disclosed N) :=
  (places db).map fun p =>
    { imei := p.imei
      lat := p.lat
      lon := p.lon
      address := p.address
      radiusM := orElse p.geofenceM (ofRat 500)
      volume := volumeAt clock db p }

/-- The request is not for the map, the map fails, or the located meters agree in all that the map
    shows of them. -/
def Undisclosed (clock : Clock T) (req : Request N) (db db' : PortalDb N) : Prop :=
  req ≠ .heatmap ∨ (vol clock db = none ∧ vol clock db' = none) ∨
    (disclosed clock db).Perm (disclosed clock db')

end Agreement

/-! ### Orders of rows -/

section Orders

variable {α β γ : Type}

/-- Every arrangement of the rows is an order in which they may come. -/
theorem exists_order {rows arranged : List α} (h : arranged.Perm rows) :
    ∃ order : Order α, order.arrange rows = arranged := by
  classical
  refine ⟨⟨fun other => if other = rows then arranged else other, fun other => ?_⟩, if_pos rfl⟩
  by_cases heq : other = rows
  · show (if other = rows then arranged else other).Perm other
    rw [if_pos heq, heq]
    exact h
  · show (if other = rows then arranged else other).Perm other
    rw [if_neg heq]

theorem map_eq_of_map_eq {f : α → β} {g : α → γ} (hfg : ∀ a b, f a = f b → g a = g b)
    {as bs : List α} (h : as.map f = bs.map f) : as.map g = bs.map g := by
  induction as generalizing bs with
  | nil =>
    rw [List.map_eq_nil_iff.1 h.symm]
  | cons a as ih =>
    cases bs with
    | nil => cases h
    | cons b bs =>
      rw [List.map_cons, List.map_cons, List.cons.injEq] at h
      rw [List.map_cons, List.map_cons, hfg a b h.1, ih h.2]

/-- Rows that look alike can be put in orders in which they look the same. -/
theorem exists_order_of_map {f : α → β} {rows rows' : List α}
    (h : (rows.map f).Perm (rows'.map f)) (order : Order α) :
    ∃ order' : Order α, (order'.arrange rows').map f = (order.arrange rows).map f := by
  have hperm : ((order.arrange rows).map f).Perm (rows'.map f) := ((order.perm rows).map f).trans h
  have hcomp := congrFun (congrFun (List.eq_map_comp_perm f) ((order.arrange rows).map f)) rows'
  obtain ⟨arranged, heq, harranged⟩ := hcomp.mpr hperm
  obtain ⟨order', horder'⟩ := exists_order harranged
  exact ⟨order', by rw [horder', heq]⟩

end Orders

/-! ### The routes of one meter -/

section Guarded

variable {N T : Type} {db db' : PortalDb N} {userId : Nat}

theorem owns_perm (h : (metersOf db userId).Perm (metersOf db' userId)) (imei : Str) :
    Owns db userId imei ↔ Owns db' userId imei := by
  unfold Owns
  simp only [h.mem_iff]

theorem ownsMeter_perm (h : (metersOf db userId).Perm (metersOf db' userId)) (imei : Str) :
    ownsMeter db userId imei = ownsMeter db' userId imei := by
  unfold ownsMeter
  cases textColumn imei with
  | none => rfl
  | some imei => exact congrArg some (decide_eq_decide.2 (owns_perm h imei))

theorem owns_of_ownsMeter {imei : Str} (h : ownsMeter db userId imei = some true) :
    Owns db userId imei := by
  unfold ownsMeter at h
  obtain ⟨text, htext, howns⟩ := Option.map_eq_some_iff.1 h
  rw [textColumn_eq htext] at howns
  exact of_decide_eq_true howns

/-- The meters of an account can come in the same order. -/
theorem exists_userMeters (h : (metersOf db userId).Perm (metersOf db' userId))
    (hmeters : ∀ imei, Owns db userId imei →
      db.cloud.meters.lookup imei = db'.cloud.meters.lookup imei) (order : Order (PortalMeter N)) :
    ∃ order' : Order (PortalMeter N),
      userMeters order' db' userId = userMeters order db userId := by
  obtain ⟨order', horder'⟩ := exists_order ((order.perm (metersOf db userId)).trans h)
  refine ⟨order', ?_⟩
  have hrows : (order.arrange (metersOf db userId)).filterMap (userMeter db') =
      (order.arrange (metersOf db userId)).filterMap (userMeter db) := by
    refine List.filterMap_congr fun m hm => ?_
    have howns : Owns db userId m.imei := ⟨m, (order.perm _).mem_iff.1 hm, rfl⟩
    rw [userMeter, userMeter, hmeters m.imei howns]
  rw [userMeters, userMeters, horder', hrows]

variable [LinearOrder T]

/-- The query of `consumption` does not depend on the order of the readings. -/
theorem consumption_perm {pg : Postgres T} {now : T} {cloud cloud' : Db N} {imei : Str}
    (h : (cloud.readings.filter (·.imei = imei)).Perm (cloud'.readings.filter (·.imei = imei)))
    (range : RangeKey) :
    consumption pg now cloud imei range = consumption pg now cloud' imei range := by
  have hsplit (cloud : Db N) : window pg now cloud imei range =
      (cloud.readings.filter (·.imei = imei)).filter fun r =>
        pg.minus now range.interval ≤ pg.instant r.ts :=
    (filter_and fun _ => Iff.rfl).symm
  have hwindow : (window pg now cloud imei range).Perm (window pg now cloud' imei range) := by
    rw [hsplit, hsplit]
    exact h.filter _
  have hkeys : ((window pg now cloud imei range).map (bucketOf pg range)).dedup.insertionSort
        (· ≤ ·) =
      ((window pg now cloud' imei range).map (bucketOf pg range)).dedup.insertionSort (· ≤ ·) := by
    have hperm := (hwindow.map (bucketOf pg range)).dedup
    refine List.Perm.eq_of_pairwise' (List.pairwise_insertionSort (· ≤ ·) _)
      (List.pairwise_insertionSort (· ≤ ·) _) ?_
    exact ((List.perm_insertionSort _ _).trans hperm).trans (List.perm_insertionSort _ _).symm
  rw [consumption, consumption, hkeys]
  refine congrArg (fun f => List.mapM f _) (funext fun b => ?_)
  rw [volume_perm (bucket_perm hwindow b)]

omit [LinearOrder T] in
/-- Where the account owns the meter in both states, the route answers in both. -/
theorem guarded_congr (h : (metersOf db userId).Perm (metersOf db' userId)) {imei : Str}
    {answer : Response T N × PortalDb N} {answer' : Response T N × PortalDb N}
    (hanswer : Owns db userId imei → answer.1 = answer'.1) :
    (guarded db userId imei answer).1 = (guarded db' userId imei answer').1 := by
  unfold guarded
  rw [← ownsMeter_perm h]
  cases howns : ownsMeter db userId imei with
  | none => rfl
  | some owns =>
    cases owns with
    | false => rfl
    | true => exact hanswer (owns_of_ownsMeter howns)

omit [LinearOrder T] in
variable (T) [JsMath N] in
/-- What `POST` of `address` does for the owner: it fails, or it saves the address at a place that
    does not depend on the tables. -/
theorem addressRoute_cases (imei address : Str) (lat lon : Option N) (geofenceM : N)
    (located : Option (Option (N × N))) :
    (∀ (db : PortalDb N) (userId : Nat),
      (addressRoute db userId imei address lat lon geofenceM located : Response T N × PortalDb N) =
        guarded db userId imei (.thrown, db)) ∨
    ∃ text lat' lon', ∀ (db : PortalDb N) (userId : Nat),
      (addressRoute db userId imei address lat lon geofenceM located : Response T N × PortalDb N) =
        guarded db userId imei
          (.address lat' lon' geofenceM,
            updateAddress db userId imei text lat' lon' geofenceM) := by
  unfold addressRoute
  cases hplace : geocoded (trim address) lat lon located with
  | none =>
    refine .inl fun db userId => ?_
    simp only [hplace]
  | some place =>
    by_cases htext : textColumn (trim address) = none
    · refine .inl fun db userId => ?_
      simp only [hplace, if_pos htext]
    · refine .inr ⟨if (trim address).isEmpty then none else some (trim address), place.1, place.2,
        fun db userId => ?_⟩
      simp only [hplace, if_neg htext]

end Guarded

/-! ### What the map shows -/

section Shown

variable {N T : Type} [DecidableEq N] [LinearOrder T] [JsMath N] {clock : Clock T}
  {db db' : PortalDb N}

/-- What the map shows of a row. -/
def Vol.shown (v : Vol N) : Disclosed N where
  imei := v.place.imei
  lat := v.place.lat
  lon := v.place.lon
  address := v.place.address
  radiusM := orElse v.place.geofenceM (ofRat 500)
  volume := some v.ml

theorem disclosed_of_vol {rows : List (Vol N)} (h : vol clock db = some rows) :
    disclosed clock db = rows.map Vol.shown ∧ rows.map (·.place) = places db := by
  constructor
  · refine (Cut.map_of_mapM (fun p _ v hv => ?_) h).symm
    obtain ⟨ml, hml, rfl⟩ := Option.map_eq_some_iff.1 hv
    rw [Vol.shown, hml]
  · rw [← List.map_id (places db)]
    refine Cut.map_of_mapM (fun p _ v hv => ?_) h
    obtain ⟨ml, -, rfl⟩ := Option.map_eq_some_iff.1 hv
    rfl

theorem vol_eq_none_iff : vol clock db = none ↔ ∃ d ∈ disclosed clock db, d.volume = none := by
  unfold vol disclosed
  induction places db with
  | nil => exact ⟨nofun, nofun⟩
  | cons p ps ih =>
    rw [List.mapM_cons, List.map_cons]
    cases hml : volumeAt clock db p with
    | none => exact iff_of_true rfl ⟨_, List.mem_cons_self, rfl⟩
    | some ml =>
      simp only [Option.map_some, Option.bind_eq_bind, Option.bind_some, Option.bind_eq_none_iff,
        List.mem_cons, exists_eq_or_imp, reduceCtorEq, false_or]
      rw [← ih]
      constructor
      · intro h
        by_contra hsome
        obtain ⟨rest, hrest⟩ := Option.ne_none_iff_exists'.1 hsome
        exact h rest hrest
      · intro h rest hrest
        rw [h] at hrest
        cases hrest

omit [DecidableEq N] in
/-- The point of a row depends on nothing else. -/
theorem heatmapPoint_congr {v w : Vol N} (h : v.shown = w.shown) (medianMl : N) :
    heatmapPoint medianMl v = heatmapPoint medianMl w := by
  simp only [Vol.shown, Disclosed.mk.injEq, Option.some.injEq] at h
  obtain ⟨himei, hlat, hlon, haddress, hradius, hml⟩ := h
  simp only [heatmapPoint, himei, hlat, hlon, haddress, hradius, hml]

omit [DecidableEq N] in
theorem percentileCont_perm {mls mls' : List Int} (h : mls.Perm mls') :
    (percentileCont mls : N) = percentileCont mls' := by
  have hsorted : mls.insertionSort (· ≤ ·) = mls'.insertionSort (· ≤ ·) :=
    List.Perm.eq_of_pairwise' (List.pairwise_insertionSort (· ≤ ·) _)
      (List.pairwise_insertionSort (· ≤ ·) _)
      (((List.perm_insertionSort _ _).trans h).trans (List.perm_insertionSort _ _).symm)
  rw [percentileCont, percentileCont, hsorted]

/-- Where the located meters agree in what the map shows, it can show the same points. -/
theorem exists_heatmapPoints (h : (disclosed clock db).Perm (disclosed clock db'))
    (order : Order (Vol N)) :
    ∃ order' : Order (Vol N), heatmapPoints clock order' db' = heatmapPoints clock order db := by
  cases hvol : vol clock db with
  | none =>
    -- a volume that overflows is among those of the other state
    obtain ⟨d, hd, hnone⟩ := vol_eq_none_iff.1 hvol
    have hvol' := vol_eq_none_iff.2 ⟨d, h.mem_iff.1 hd, hnone⟩
    exact ⟨order, by rw [heatmapPoints, heatmapPoints, hvol, hvol']⟩
  | some rows =>
    cases hvol' : vol clock db' with
    | none =>
      obtain ⟨d, hd, hnone⟩ := vol_eq_none_iff.1 hvol'
      rw [vol_eq_none_iff.2 ⟨d, h.mem_iff.2 hd, hnone⟩] at hvol
      cases hvol
    | some rows' =>
      rw [(disclosed_of_vol hvol).1, (disclosed_of_vol hvol').1] at h
      obtain ⟨order', horder'⟩ := exists_order_of_map h order
      -- the colours are those of the same median
      have hmls : (rows'.map (·.ml)).Perm (rows.map (·.ml)) := by
        have hvolumes := h.symm.filterMap (·.volume)
        simp only [List.filterMap_map] at hvolumes
        have hml (vs : List (Vol N)) :
            vs.filterMap ((fun d : Disclosed N => d.volume) ∘ Vol.shown) = vs.map (·.ml) :=
          congrFun List.filterMap_eq_map vs
        rwa [hml, hml] at hvolumes
      refine ⟨order', ?_⟩
      rw [heatmapPoints, heatmapPoints, hvol, hvol']
      refine congrArg some ?_
      show (order'.arrange rows').map (heatmapPoint (percentileCont (rows'.map (·.ml)))) =
        (order.arrange rows).map (heatmapPoint (percentileCont (rows.map (·.ml))))
      rw [percentileCont_perm hmls]
      exact map_eq_of_map_eq (fun v w hvw => heatmapPoint_congr hvw _) horder'

end Shown

/-! ### Isolation -/

section Isolation

variable {N T : Type} [DecidableEq N] [LinearOrder T] [JsMath N] {clock : Clock T}
  {db db' : PortalDb N} {userId : Nat} {s : Session} {req : Request N}

omit [JsMath N] in
theorem Agree.symm (h : Agree clock userId db db') : Agree clock userId db' db where
  mine := h.mine.symm
  meters imei howns := (h.meters imei ((owns_perm h.mine imei).2 howns)).symm
  readings imei howns := (h.readings imei ((owns_perm h.mine imei).2 howns)).symm
  fingerprints imei howns := (h.fingerprints imei ((owns_perm h.mine imei).2 howns)).symm
  others := h.others.symm

theorem Undisclosed.symm (h : Undisclosed clock req db db') : Undisclosed clock req db' db := by
  rcases h with h | h | h
  · exact .inl h
  · exact .inr (.inl h.symm)
  · exact .inr (.inr h.symm)

/-- What can be answered in one state can be answered in the other. -/
theorem responses_subset (hagree : Agree clock s.userId db db') (h : Undisclosed clock req db db') :
    Responses clock db s req ⊆ Responses clock db' s req := by
  rintro _ ⟨plan, rfl⟩
  cases req with
  | meters =>
    obtain ⟨order, horder⟩ := exists_userMeters hagree.mine hagree.meters plan.meters
    refine ⟨{ plan with meters := order }, ?_⟩
    show Response.meters s.email (userMeters order db' s.userId) =
      .meters s.email (userMeters plan.meters db s.userId)
    rw [horder]
  | consumption imei range =>
    refine ⟨plan, ?_⟩
    show (consumptionRoute clock db' s.userId imei range).1 =
      (consumptionRoute clock db s.userId imei range).1
    unfold consumptionRoute
    cases RangeKey.ofText range with
    | none => rfl
    | some range =>
      refine (guarded_congr hagree.mine fun howns => ?_).symm
      -- only the readings of the meter count, which is the account's
      rw [consumption_perm (hagree.readings imei howns) range]
      cases consumption clock.toPostgres clock.now db'.cloud imei range <;> rfl
  | fingerprint imei =>
    by_cases howns : Owns db s.userId imei
    · -- the rows can come in the order in which they came
      obtain ⟨order, horder⟩ := exists_order
        ((plan.fingerprints.perm _).trans (hagree.fingerprints imei howns))
      refine ⟨{ plan with fingerprints := order }, (guarded_congr hagree.mine fun _ => ?_).symm⟩
      simp only [fingerprintsByMonth, horder]
    · exact ⟨plan, (guarded_congr hagree.mine fun howns' => absurd howns' howns).symm⟩
  | address imei address lat lon geofenceM located =>
    refine ⟨plan, ?_⟩
    show (addressRoute db' s.userId imei address lat lon geofenceM located).1 =
      (addressRoute db s.userId imei address lat lon geofenceM located).1
    rcases addressRoute_cases T imei address lat lon geofenceM located with h | ⟨_, _, _, h⟩
    · rw [h, h]
      exact guarded_congr hagree.mine.symm fun _ => rfl
    · rw [h, h]
      exact guarded_congr hagree.mine.symm fun _ => rfl
  | heatmap =>
    obtain ⟨order, horder⟩ := exists_userMeters hagree.mine hagree.meters plan.meters
    have hpoints : ∃ order' : Order (Vol N),
        heatmapPoints clock order' db' = heatmapPoints clock plan.points db := by
      rcases h with h | ⟨hvol, hvol'⟩ | h
      · exact absurd rfl h
      · -- the map fails in both states
        exact ⟨plan.points, by rw [heatmapPoints, heatmapPoints, hvol, hvol']⟩
      · exact exists_heatmapPoints h plan.points
    obtain ⟨order', horder'⟩ := hpoints
    refine ⟨{ plan with meters := order, points := order' }, ?_⟩
    show (heatmapRoute clock _ db' s.userId).1 = (heatmapRoute clock plan db s.userId).1
    simp only [heatmapRoute, horder, horder']
    cases heatmapPoints clock plan.points db <;> rfl

/-- The month-to-date volumes of the located meters. -/
def volumes (clock : Clock T) (db : PortalDb N) : Set Int :=
  { ml | ∃ p ∈ places db, volumeAt clock db p = some ml }

theorem ml_mem_volumes {rows : List (Vol N)} (h : vol clock db = some rows) {v : Vol N}
    (hv : v ∈ rows) : v.ml ∈ volumes clock db := by
  have hshown : v.shown ∈ disclosed clock db := by
    rw [(disclosed_of_vol h).1]
    exact List.mem_map_of_mem hv
  obtain ⟨p, hp, heq⟩ := List.mem_map.1 hshown
  exact ⟨p, hp, congrArg Disclosed.volume heq⟩

/-- The points of the map tell what it shows, where their litres tell the volumes. -/
theorem shown_perm_of_points
    (hliters : Set.InjOn (litersOf : Int → N) (volumes clock db ∪ volumes clock db'))
    {rows rows' : List (Vol N)} (hvol : vol clock db = some rows)
    (hvol' : vol clock db' = some rows') {median median' : N}
    (h : (rows.map (heatmapPoint median)).Perm (rows'.map (heatmapPoint median'))) :
    (disclosed clock db).Perm (disclosed clock db') := by
  -- a point without its colour tells the group it was made of
  let ml : N → Int := Function.invFunOn litersOf (volumes clock db ∪ volumes clock db')
  let back (p : HeatPoint N) : Disclosed N :=
    ⟨p.imei, p.lat, p.lon, p.address, p.geofenceM, some (ml p.liters)⟩
  have hback {v : Vol N} (hv : v.ml ∈ volumes clock db ∪ volumes clock db') (median : N) :
      back (heatmapPoint median v) = v.shown := by
    have hml : ml (litersOf v.ml) = v.ml := hliters.leftInvOn_invFunOn hv
    show Disclosed.mk _ _ _ _ _ (some (ml (litersOf v.ml))) = v.shown
    rw [hml]
    rfl
  have hperm := h.map back
  rw [List.map_map, List.map_map] at hperm
  rw [(disclosed_of_vol hvol).1, (disclosed_of_vol hvol').1]
  have hrows : rows.map Vol.shown = rows.map (back ∘ heatmapPoint median) :=
    List.map_congr_left fun v hv => (hback (.inl (ml_mem_volumes hvol hv)) median).symm
  have hrows' : rows'.map Vol.shown = rows'.map (back ∘ heatmapPoint median') :=
    List.map_congr_left fun v hv => (hback (.inr (ml_mem_volumes hvol' hv)) median').symm
  rw [hrows, hrows']
  exact hperm

/-- The identity is an order. -/
def Order.id {α : Type} : Order α := ⟨fun rows => rows, List.Perm.refl⟩

/-- Where the responses are the same, the map has shown nothing else. -/
theorem undisclosed_of_eq
    (hliters : Set.InjOn (litersOf : Int → N) (volumes clock db ∪ volumes clock db'))
    (h : Responses clock db s req = Responses clock db' s req) :
    Undisclosed clock req db db' := by
  by_cases hreq : req = .heatmap
  · subst hreq
    refine .inr ?_
    let plan : Plan N := ⟨.id, .id, .id⟩
    have hmem : (respond clock plan db (some s) .heatmap).1 ∈ Responses clock db' s .heatmap :=
      h ▸ ⟨plan, rfl⟩
    obtain ⟨plan', hplan'⟩ := hmem
    simp only [respond, heatmapRoute, heatmapPoints] at hplan'
    cases hvol : vol clock db with
    | none =>
      cases hvol' : vol clock db' with
      | none => exact .inl ⟨rfl, rfl⟩
      | some rows' =>
        rw [hvol, hvol'] at hplan'
        cases hplan'
    | some rows =>
      cases hvol' : vol clock db' with
      | none =>
        rw [hvol, hvol'] at hplan'
        cases hplan'
      | some rows' =>
        rw [hvol, hvol'] at hplan'
        simp only [Option.map_some, Response.heatmap.injEq] at hplan'
        -- the points are those of the rows, in whichever order
        have hperm := (plan'.points.perm rows').map
          (heatmapPoint (percentileCont (rows'.map (·.ml))))
        rw [hplan'.2.1] at hperm
        exact .inr (shown_perm_of_points hliters hvol hvol' hperm)
  · exact .inl hreq

/-! ### What an address changes -/

/-- Two states that differ in the rows of an account at most. -/
structure Frame (userId : Nat) (db db' : PortalDb N) : Prop where
  cloud : db'.cloud = db.cloud
  users : db'.users = db.users
  others : ∀ other, other ≠ userId → metersOf db' other = metersOf db other

omit [DecidableEq N] [JsMath N] in
theorem updateAddress_frame (userId : Nat) (imei : Str) (address : Option Str) (lat lon : Option N)
    (geofenceM : N) : Frame userId db (updateAddress db userId imei address lat lon geofenceM) where
  cloud := rfl
  users := rfl
  others other hother := by
    let saved (m : PortalMeter N) : PortalMeter N :=
      if m.userId = userId ∧ m.imei = imei then
        { m with address := address, lat := lat, lon := lon, geofenceM := geofenceM }
      else m
    have huser (m : PortalMeter N) : (saved m).userId = m.userId := by
      show (if m.userId = userId ∧ m.imei = imei then _ else m).userId = m.userId
      split <;> rfl
    show (db.portalMeters.map saved).filter _ = db.portalMeters.filter _
    rw [List.filter_map]
    have hrows : (db.portalMeters.filter ((fun m => decide (m.userId = other)) ∘ saved)) =
        db.portalMeters.filter fun m => m.userId = other := by
      refine List.filter_congr fun m _ => ?_
      rw [Function.comp_apply, huser]
    rw [hrows]
    refine (List.map_congr_left fun m hm => ?_).trans (List.map_id _)
    -- the rows that are left are not the account's
    refine if_neg ?_
    rintro ⟨hid, -⟩
    exact hother ((of_decide_eq_true (List.mem_filter.1 hm).2).symm.trans hid)

/-! ### Whose meters a response is about -/

/-- The IMEIs that a response contains, with the address next to each. -/
def Response.identities : Response T N → List (Str × Option Str)
  | .meters _ mine => mine.map fun m => (m.imei, m.address)
  | .heatmap mine points _ =>
    (mine.map fun m => (m.imei, m.address)) ++ points.map fun p => (p.imei, p.address)
  | _ => []

omit [DecidableEq N] [LinearOrder T] [JsMath N] in
theorem owns_userMeters {order : Order (PortalMeter N)} {m : UserMeter N}
    (h : m ∈ userMeters order db userId) : Owns db userId m.imei := by
  have hm := (List.perm_insertionSort _ _).mem_iff.1 h
  obtain ⟨pm, hpm, hrow⟩ := List.mem_filterMap.1 hm
  obtain ⟨row, -, rfl⟩ := Option.map_eq_some_iff.1 hrow
  exact ⟨pm, (order.perm _).mem_iff.1 hpm, rfl⟩

omit [DecidableEq N] [LinearOrder T] [JsMath N] in
theorem identities_guarded {imei : Str} {answer : Response T N × PortalDb N}
    (h : answer.1.identities = []) : (guarded db userId imei answer).1.identities = [] := by
  unfold guarded
  split
  · rfl
  · rfl
  · exact h

/-- Only the map contains an IMEI or an address of a meter that the account does not own: it
    contains those of every meter with a location. -/
theorem identities_owned_iff (plan : Plan N) (s : Session) :
    (∀ x ∈ (respond clock plan db (some s) req).1.identities, Owns db s.userId x.1) ↔
      req ≠ .heatmap ∨ vol clock db = none ∨
        ∀ m ∈ db.portalMeters, (placeOf m).isSome → Owns db s.userId m.imei := by
  have hnothing {r : Response T N} (hr : r.identities = []) :
      ∀ x ∈ r.identities, Owns db s.userId x.1 := by
    rw [hr]
    exact nofun
  cases req with
  | meters =>
    refine iff_of_true (fun x hx => ?_) (.inl (nofun))
    obtain ⟨m, hm, rfl⟩ := List.mem_map.1 hx
    exact owns_userMeters hm
  | consumption imei range =>
    refine iff_of_true (hnothing ?_) (.inl (nofun))
    show (consumptionRoute clock db s.userId imei range).1.identities = []
    unfold consumptionRoute
    split
    · rfl
    · refine identities_guarded ?_
      split <;> rfl
  | fingerprint imei => exact iff_of_true (hnothing (identities_guarded rfl)) (.inl (nofun))
  | address imei address lat lon geofenceM located =>
    refine iff_of_true (hnothing ?_) (.inl (nofun))
    show (addressRoute db s.userId imei address lat lon geofenceM located).1.identities = []
    rcases addressRoute_cases T imei address lat lon geofenceM located with h | ⟨_, _, _, h⟩
    · rw [h]
      exact identities_guarded rfl
    · rw [h]
      exact identities_guarded rfl
  | heatmap =>
    show (∀ x ∈ (heatmapRoute clock plan db s.userId).1.identities, Owns db s.userId x.1) ↔ _
    unfold heatmapRoute heatmapPoints
    cases hvol : vol clock db with
    | none => exact iff_of_true (nofun) (.inr (.inl rfl))
    | some rows =>
      have hplaces := (disclosed_of_vol hvol).2
      have hpoint {imei : Str} : (∃ v ∈ rows, v.place.imei = imei) ↔
          ∃ m ∈ db.portalMeters, (placeOf m).isSome ∧ m.imei = imei := by
        constructor
        · rintro ⟨v, hv, rfl⟩
          have hv' : v.place ∈ places db := by
            rw [← hplaces]
            exact List.mem_map_of_mem hv
          obtain ⟨m, hm, hplace⟩ := List.mem_filterMap.1 (List.mem_dedup.1 hv')
          exact ⟨m, hm, Option.isSome_of_eq_some hplace, (placeOf_imei hplace).symm⟩
        · rintro ⟨m, hm, hsome, rfl⟩
          obtain ⟨place, hplace⟩ := Option.isSome_iff_exists.1 hsome
          have hmem : place ∈ places db := List.mem_dedup.2 (List.mem_filterMap.2 ⟨m, hm, hplace⟩)
          rw [← hplaces] at hmem
          obtain ⟨v, hv, rfl⟩ := List.mem_map.1 hmem
          exact ⟨v, hv, placeOf_imei hplace⟩
      simp only [Option.map_some, Response.identities, List.mem_append, List.mem_map]
      constructor
      · intro h
        refine .inr (.inr fun m hm hsome => ?_)
        -- every meter with a location is a point of the map
        obtain ⟨v, hv, himei⟩ := hpoint.2 ⟨m, hm, hsome, rfl⟩
        rw [← himei]
        exact h (v.place.imei, v.place.address)
          (.inr ⟨_, ⟨v, (plan.points.perm rows).mem_iff.2 hv, rfl⟩, rfl⟩)
      · rintro (h | h | h) x (⟨m, hm, rfl⟩ | ⟨_, ⟨v, hv, rfl⟩, rfl⟩)
        · exact absurd rfl h
        · exact absurd rfl h
        · cases h
        · cases h
        · -- the list of the account's own meters
          exact owns_userMeters hm
        · obtain ⟨m, hm, hsome, himei⟩ :=
            hpoint.1 ⟨v, (plan.points.perm rows).mem_iff.1 hv, rfl⟩
          show Owns db s.userId v.place.imei
          rw [← himei]
          exact h m hm hsome

/-- The responses of all routes but the map depend on the meters of the account alone; those of the
    map are the same if and only if the other meters agree also in their IMEIs, addresses and radii,
    as far as the litres that are shown tell the volumes.  A response is about the meters of the
    account if and only if it is not the map, or no other meter has a location. -/
theorem isolated_iff (clock : Clock T) (s : Session) (req : Request N) :
    (∀ db db' : PortalDb N, Agree clock s.userId db db' →
      (Undisclosed clock req db db' → Responses clock db s req = Responses clock db' s req) ∧
      (Set.InjOn (litersOf : Int → N) (volumes clock db ∪ volumes clock db') →
        Responses clock db s req = Responses clock db' s req → Undisclosed clock req db db')) ∧
    ∀ (db : PortalDb N) (plan : Plan N),
      (∀ x ∈ (respond clock plan db (some s) req).1.identities, Owns db s.userId x.1) ↔
        req ≠ .heatmap ∨ vol clock db = none ∨
          ∀ m ∈ db.portalMeters, (placeOf m).isSome → Owns db s.userId m.imei := by
  refine ⟨fun db db' hagree => ⟨fun h => ?_, undisclosed_of_eq⟩, fun db plan => ?_⟩
  · exact Set.Subset.antisymm (responses_subset hagree h) (responses_subset hagree.symm h.symm)
  · exact identities_owned_iff plan s

end Isolation

/-! ### A street -/

instance : JsMath Exact where
  sub x y := Exact.add x y.neg
  pow
    | .finite p, .finite q => if q.den = 1 ∧ 0 ≤ q then .finite (p ^ q.num.toNat) else .nan
    | _, _ => .nan
  lt := Exact.lt
  le x y := Exact.lt x y || (x = y && x ≠ .nan)
  isNaN x := x = .nan
  cos
    | .finite q => .finite (Exact.cosSeries q)
    | _ => .nan
  asin
    | .finite q => .finite (q + q ^ 3 / 6)
    | _ => .nan
  sqrt
    | .finite q => if 0 ≤ q then .finite (Exact.sqrt q) else .nan
    | _ => .nan

theorem litersOf_exact (ml : Int) : (litersOf ml : Exact) = .finite (ml / 1000) := by
  have hzero : (orElse (.finite ml) (.finite 0) : Exact) = .finite ml := by
    by_cases hml : (ml : ℚ) = 0
    · rw [hml]
      rfl
    · have hfalsy : JsNumber.falsy (Exact.finite (ml : ℚ)) = false := by
        show decide (Exact.finite (ml : ℚ) = .finite 0 ∨ Exact.finite (ml : ℚ) = .nan) = false
        simp [hml]
      rw [orElse, hfalsy]
      rfl
  show JsNumber.div (orElse (.finite ml) (.finite 0)) (Exact.finite 1000) = _
  rw [hzero]
  show (if Exact.finite 1000 = .finite 0 then _ else Exact.div (.finite ml) (.finite 1000)) = _
  rw [if_neg (by decide)]
  rfl

theorem litersOf_injective : Function.Injective (litersOf : Int → Exact) := by
  intro m n h
  rw [litersOf_exact, litersOf_exact, Exact.finite.injEq] at h
  have hcast : (m : ℚ) = n := by linarith
  exact_mod_cast hcast

/-- The server at the end of the 15th of January. -/
def clock : Clock Int := { january with now := midnight, stamp := fun n => n }

def ana : Session := ⟨1, "ana@home.gt".toList⟩

/-- Two households, of which the second has saved its address. -/
def street (imei address : String) : PortalDb Exact :=
  updateAddress (registered (noAccounts noMeters) [first, second imei]) 2 imei.toList
    (some address.toList) (some (.finite (73 / 5))) (some (.finite (-181 / 2))) (.finite 500)

/-- Two states in which the first household has one meter, without readings. -/
theorem agree_ana {db db' : PortalDb Exact} (hmine : metersOf db 1 = metersOf db' 1)
    (himei : ∀ m ∈ metersOf db 1, m.imei = "861234567890123".toList)
    (hmeter : db.cloud.meters.lookup "861234567890123".toList =
      db'.cloud.meters.lookup "861234567890123".toList)
    (hreadings : db.cloud.readings.isEmpty ∧ db'.cloud.readings.isEmpty)
    (hfingerprints : db.cloud.fingerprints.isEmpty ∧ db'.cloud.fingerprints.isEmpty)
    (hothers : (others clock db 1).Perm (others clock db' 1)) :
    Agree clock ana.userId db db' where
  mine := by
    show (metersOf db 1).Perm (metersOf db' 1)
    rw [hmine]
  meters := by
    rintro imei ⟨m, hm, rfl⟩
    rw [himei m hm, hmeter]
  readings imei _ := by
    rw [List.isEmpty_iff.1 hreadings.1, List.isEmpty_iff.1 hreadings.2]
  fingerprints imei _ := by
    rw [List.isEmpty_iff.1 hfingerprints.1, List.isEmpty_iff.1 hfingerprints.2]
  others := hothers

/-- The first household has saved its address as well, and a third without one joins. -/
theorem isolated_ana :
    let db : PortalDb Exact := updateAddress (street "861234567890124" "3a Calle 5") 1
      "861234567890123".toList (some "3a Calle 7".toList) (some (.finite (73 / 5)))
      (some (.finite (-181 / 2))) (.finite 500)
    let db' := registered db [household "eva@home.gt" "open sesame" "861234567890125"]
    (places db).length = 2 ∧ db'.users.length = 3 ∧ Agree clock ana.userId db db' ∧
    Responses clock db ana .heatmap = Responses clock db' ana .heatmap := by
  intro db db'
  have hagree : Agree clock ana.userId db db' :=
    agree_ana (by decide +kernel) (by decide +kernel) (by decide +kernel) (by decide +kernel)
      (by decide +kernel) (by decide +kernel)
  exact ⟨by decide +kernel, by decide +kernel, hagree,
    ((isolated_iff clock ana .heatmap).1 db db' hagree).1 (.inr (.inr (by decide +kernel)))⟩

/-- With a location the map shows the first household the IMEI and the address of the second. -/
theorem street_disclosed :
    let db := street "861234567890124" "3a Calle 5"
    let db' := street "861234567890125" "9a Avenida 7"
    Agree clock ana.userId db db' ∧
    ("861234567890124".toList, some "3a Calle 5".toList) ∈
      (respond clock ⟨.id, .id, .id⟩ db (some ana) .heatmap).1.identities ∧
    ¬ Owns db ana.userId "861234567890124".toList ∧
    Responses clock db ana .heatmap ≠ Responses clock db' ana .heatmap := by
  intro db db'
  have hagree : Agree clock ana.userId db db' :=
    agree_ana (by decide +kernel) (by decide +kernel) (by decide +kernel) (by decide +kernel)
      (by decide +kernel) (by decide +kernel)
  refine ⟨hagree, by decide +kernel, by decide +kernel, fun heq => ?_⟩
  rcases undisclosed_of_eq litersOf_injective.injOn heq with h | h | h
  · exact h rfl
  · exact absurd h.1 (by decide +kernel)
  · exact absurd h (by decide +kernel)

end Portal

end Waterbox
