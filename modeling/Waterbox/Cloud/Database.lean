import Mathlib.Data.List.AList
import Mathlib.Data.List.Sort
import Waterbox.Cloud.Fingerprint
import Waterbox.Lib.Cut

namespace Waterbox

namespace Cloud

/-!
# `db.py` and the tables of `init.sql`

Each statement is committed on its own, so an exception leaves the tables as the statements
before it made them: the functions are computations `Cut (Db D)` that an exception cuts off.
`now()` of the server is a number; the column `raw` holds the decoded payload.
-/

/-- A time with the zone it is read in, as a `datetime` with a `tzinfo`. -/
structure ZonedTime where
  time : DateTime
  microsecond : Nat
  zone : Str
deriving DecidableEq

/-- A row of `meters`, without its key. -/
structure Meter where
  firstSeen : Nat
  lastSeen : Nat
  pulsesPerLiter : Option Int
  valve : Option Bool
  fpValid : Bool
deriving DecidableEq

/-- A row of `readings`. -/
structure Reading (D : Type) where
  imei : Str
  ts : ZonedTime
  ingestedAt : Nat
  lm : Option D
  mls : Option Int
  tlMl : Option Int
  valve : Option Bool
  wm : Option D
  wmCloud : Option D
  lk : Int
  oc : Int
  raw : Dict D

/-- A row of `heartbeats`. -/
structure HeartbeatRow (D : Type) where
  imei : Str
  ts : ZonedTime
  ingestedAt : Nat
  uptimeS : Option Int
  valve : Option Bool
  fpValid : Option Bool
  lk : Int
  oc : Int
  rssi : Option Int
  tlMl : Option Int
  ok : Int
  raw : Dict D

/-- A row of `fingerprints`. -/
structure Fingerprint (D : Type) extends FitParams D where
  id : Nat
  imei : Str
  createdAt : Nat
  published : Bool

/-- The tables the worker writes, new rows first. -/
structure Db (D : Type) where
  meters : AList fun _ : Str => Meter
  readings : List (Reading D)
  heartbeats : List (HeartbeatRow D)
  fingerprints : List (Fingerprint D)

/-- The worker's code: a computation on the tables that an exception cuts off. -/
abbrev Py (D : Type) : Type → Type := Cut (Db D)

/-- What the database server does with parameters of another type than the column's. -/
class Server (D : Type) where
  /-- A number with a fraction, cast to an integer. -/
  rint : D → Option Int
  /-- A text, read as an integer. -/
  int4in : Str → Option Int

/-! ### Values and columns -/

section Columns

variable {D : Type} [Python D]

/-- `_as_float(value)`; the outer `none` is an exception. -/
def asFloat : Json D → Option (Option D)
  | .null => some none
  | .bool b => (Python.ofInt (if b then 1 else 0)).map some
  | .int n => (Python.ofInt n).map some
  | .float x => some (some x)
  | .str s => if s.isEmpty then some none else (Python.ofText s).map some
  | _ => none

/-- `int(value)`. -/
def toInt : Json D → Option Int
  | .bool b => some (if b then 1 else 0)
  | .int n => some n
  | .float x => Python.trunc x
  | .str s => Python.intOfText D s
  | _ => none

/-- `_as_int(value)`. -/
def asInt : Json D → Option (Option Int)
  | .null => some none
  | .str [] => some none
  | v => (toInt v).map some

/-- `_as_bool(value)`. -/
def asBool : Json D → Option (Option Bool)
  | .null => some none
  | .bool b => some (some b)
  | v => (toInt v).map fun n => some (decide (n ≠ 0))

/-- `value is None`. -/
def isNull : Json D → Bool
  | .null => true
  | _ => false

mutual

/-- Whether a value can be stored as `jsonb`: its numbers are finite and its texts without NUL.  Of
    several members with one key a `dict` keeps the last. -/
def storable : Json D → Bool
  | .float x => Python.isFinite x
  | .str s => !s.contains '\x00'
  | .arr items => storableItems items
  | .obj members => storableMembers members
  | _ => true

def storableItems : List (Json D) → Bool
  | [] => true
  | v :: vs => storable v && storableItems vs

def storableMembers : List (Str × Json D) → Bool
  | [] => true
  | m :: ms => ((ms.any fun m' => m'.1 = m.1) || storableMember m) && storableMembers ms

def storableMember : Str × Json D → Bool
  | (key, v) => !key.contains '\x00' && storable v

end

theorem storableMembers_of_forall {ms : List (Str × Json D)}
    (h : ∀ m ∈ ms, storableMember m = true) : storableMembers ms = true := by
  induction ms with
  | nil => rfl
  | cons m ms ih =>
    rw [storableMembers, h m List.mem_cons_self, Bool.or_true, Bool.true_and]
    exact ih fun m' hm' => h m' (List.mem_cons_of_mem m hm')

end Columns

/-- An integer in a column of `bits` bits, where it fits. -/
def intColumn (bits : Nat) (n : Int) : Option Int :=
  if -2 ^ (bits - 1) ≤ n ∧ n < 2 ^ (bits - 1) then some n else none

/-- The same, with NULL. -/
def nullableInt (bits : Nat) : Option Int → Option (Option Int)
  | none => some none
  | some n => (intColumn bits n).map some

def textColumn (s : Str) : Option Str := if s.contains '\x00' then none else some s

/-- A parameter of any type in an `INTEGER` column. -/
def pplColumn {D : Type} [Server D] : Json D → Option (Option Int)
  | .null => some none
  | .int n => (intColumn 32 n).map some
  | .float x => ((Server.rint x).bind (intColumn 32)).map some
  | .str s => ((Server.int4in D s).bind (intColumn 32)).map some
  | _ => none

/-! ### Statements -/

variable {D : Type} [Python D]

/-- The row `EXCLUDED` of `upsert_meter`, after its `VALUES`. -/
structure Excluded where
  pulsesPerLiter : Option Int
  valve : Option Bool
  fpValid : Option Bool

/-- `INSERT INTO meters ... ON CONFLICT (imei) DO UPDATE SET ...`: the row that is stored for the
    one that was found. -/
def Excluded.store (excluded : Excluded) (now : Nat) : Option Meter → Meter
  | none =>
    { firstSeen := now
      lastSeen := now
      pulsesPerLiter := excluded.pulsesPerLiter
      valve := excluded.valve
      fpValid := excluded.fpValid.getD false }
  | some row =>
    { row with
      -- every message counts as a sign of life
      lastSeen := now
      -- `COALESCE(EXCLUDED.x, meters.x)`: a value that is absent changes nothing
      pulsesPerLiter := excluded.pulsesPerLiter.or row.pulsesPerLiter
      valve := excluded.valve.or row.valve
      fpValid := excluded.fpValid.getD row.fpValid }

/-- The `VALUES` of `upsert_meter`: `COALESCE(%s, false)` for the flag. -/
def excluded [Server D] (info : Dict D) : Option Excluded := do
  let valve ← asBool (Json.get info "v".toList)
  let fp ← asBool (Json.get info "fp".toList)
  let ppl ← pplColumn (Json.get info "ppl".toList)
  -- so the flag is never absent
  some { pulsesPerLiter := ppl, valve := valve, fpValid := fp.or (some false) }

/-- `upsert_meter(conn, imei, info)`. -/
def upsertMeter [Server D] (now : Nat) (imei : Str) (info : Dict D) : Py D Unit := do
  let excluded ← Cut.ofOption (excluded info)
  let imei ← Cut.ofOption (textColumn imei)
  Cut.update fun db =>
    { db with meters := db.meters.insert imei (excluded.store now (db.meters.lookup imei)) }

/-- The row `insert_reading` stores. -/
def reading (now : Nat) (imei : Str) (ts : ZonedTime) (payload : Dict D) (wmCloud : Option D) :
    Option (Reading D) := do
  let lm ← asFloat (Json.get payload "lm".toList)
  let mls ← asInt (Json.get payload "mls".toList)
  let tlMl ← asInt (Json.get payload "tl_ml".toList)
  let valve ← asBool (Json.get payload "v".toList)
  let wm ← asFloat (Json.get payload "wm".toList)
  let lk ← asInt (Json.get payload "lk".toList)
  let oc ← asInt (Json.get payload "oc".toList)
  let imei ← textColumn imei
  -- what the columns take, after what the code converts
  let mls ← nullableInt 64 mls
  let tlMl ← nullableInt 64 tlMl
  let lk ← intColumn 16 (lk.getD 0)
  let oc ← intColumn 16 (oc.getD 0)
  if storableMembers payload then
    some
      { imei := imei
        ts := ts
        ingestedAt := now
        lm := lm
        mls := mls
        tlMl := tlMl
        valve := valve
        wm := wm
        wmCloud := wmCloud
        lk := lk
        oc := oc
        raw := payload }
  else none

/-- `insert_reading(conn, imei, ts, payload, wm_cloud)`. -/
def insertReading [Server D] (now : Nat) (imei : Str) (ts : ZonedTime) (payload : Dict D)
    (wmCloud : Option D) : Py D Unit := do
  upsertMeter now imei payload
  let row ← Cut.ofOption (reading now imei ts payload wmCloud)
  Cut.update fun db => { db with readings := row :: db.readings }

/-- The row `insert_heartbeat` stores. -/
def heartbeatRow (now : Nat) (imei : Str) (ts : ZonedTime) (payload : Dict D) :
    Option (HeartbeatRow D) := do
  let up ← asInt (Json.get payload "up".toList)
  let valve ← asBool (Json.get payload "v".toList)
  let fp ← asBool (Json.get payload "fp".toList)
  let lk ← asInt (Json.get payload "lk".toList)
  let oc ← asInt (Json.get payload "oc".toList)
  let rssi ← asInt (Json.get payload "rssi".toList)
  let tlMl ← asInt (Json.get payload "tl_ml".toList)
  -- the column `ok` admits no NULL, which an empty text gives
  let ok ← if isNull (Json.get payload "ok".toList) then some 1
    else (asInt (Json.get payload "ok".toList)).join
  let imei ← textColumn imei
  let up ← nullableInt 64 up
  let lk ← intColumn 16 (lk.getD 0)
  let oc ← intColumn 16 (oc.getD 0)
  let rssi ← nullableInt 32 rssi
  let tlMl ← nullableInt 64 tlMl
  let ok ← intColumn 16 ok
  if storableMembers payload then
    some
      { imei := imei
        ts := ts
        ingestedAt := now
        uptimeS := up
        valve := valve
        fpValid := fp
        lk := lk
        oc := oc
        rssi := rssi
        tlMl := tlMl
        ok := ok
        raw := payload }
  else none

/-- `insert_heartbeat(conn, imei, ts, payload)`. -/
def insertHeartbeat [Server D] (now : Nat) (imei : Str) (ts : ZonedTime) (payload : Dict D) :
    Py D Unit := do
  upsertMeter now imei
    [("v".toList, Json.get payload "v".toList), ("fp".toList, Json.get payload "fp".toList)]
  let row ← Cut.ofOption (heartbeatRow now imei ts payload)
  Cut.update fun db => { db with heartbeats := row :: db.heartbeats }

/-- The newer of two fingerprints. -/
def newer (best : Option (Fingerprint D)) (fp : Fingerprint D) : Option (Fingerprint D) :=
  match best with
  | none => some fp
  -- of two rows of one moment the one that comes first
  | some b => if b.createdAt < fp.createdAt then some fp else some b

/-- `latest_fingerprint(conn, imei)`. -/
def latestFingerprint (imei : Str) (db : Db D) : Option (Fingerprint D) :=
  (db.fingerprints.filter fun fp => fp.imei = imei).foldl newer none

/-- `save_fingerprint(conn, imei, params)`.  The row must refer to one of `meters`; no row is ever
    deleted, so the number of rows is an id that is free. -/
def saveFingerprint (now : Nat) (imei : Str) (params : FitParams D) : Py D Unit := do
  let meter ← Cut.read fun db => db.meters.lookup imei
  let _ ← Cut.ofOption meter
  Cut.update fun db =>
    { db with
      fingerprints :=
        { params with
          id := db.fingerprints.length
          imei := imei
          createdAt := now
          published := false } :: db.fingerprints }
  Cut.update fun db =>
    match db.meters.lookup imei with
    | none => db
    | some row =>
      { db with meters := db.meters.insert imei { row with fpValid := true, lastSeen := now } }

/-- A row, marked where it has the id. -/
def Fingerprint.markIf (id : Nat) (fp : Fingerprint D) : Fingerprint D :=
  if fp.id = id then { fp with published := true } else fp

/-- `mark_published(conn, imei)`: the newest row of the meter, whichever that is by now. -/
def markPublished (imei : Str) (db : Db D) : Db D :=
  match latestFingerprint imei db with
  | none => db
  | some newest => { db with fingerprints := db.fingerprints.map (·.markIf newest.id) }

/-- What a pass leaves to the database about times: `ts >= since`, and the order of two times. -/
structure Window where
  recent : ZonedTime → Bool
  before : ZonedTime → ZonedTime → Bool

/-- `samples_for_fit(conn, imei, since)`. -/
def samplesForFit (window : Window) (imei : Str) (db : Db D) : List (ZonedTime × D) :=
  ((db.readings.reverse.filter fun r => r.imei = imei && window.recent r.ts).filterMap fun r =>
    r.lm.map fun lm => (r.ts, lm)).insertionSort fun a b => window.before a.1 b.1

/-- `meter_ids(conn)`, by code points. -/
def meterIds (db : Db D) : List Str := db.meters.keys.insertionSort fun a b => ¬b < a

/-! ### What the statements do -/

omit [Python D] in
theorem eq_null_of_isNull {v : Json D} (h : isNull v = true) : v = .null := by
  cases v <;> first | rfl | cases h

/-- A flag that is carried has a value. -/
theorem asBool_isSome {v : Json D} (hv : isNull v = false) {b : Option Bool}
    (h : asBool v = some b) : b.isSome = true := by
  cases v with
  | null => cases hv
  | bool c =>
    cases h
    rfl
  | _ =>
    simp only [asBool, Option.map_eq_some_iff] at h
    obtain ⟨n, -, rfl⟩ := h
    rfl

theorem textColumn_eq {s t : Str} (h : textColumn s = some t) : t = s := by
  unfold textColumn at h
  split at h
  · cases h
  · exact (Option.some.inj h).symm

/-- The row of a payload whose values all fit their columns. -/
theorem reading_eq {now : Nat} {imei : Str} {ts : ZonedTime} {payload : Dict D}
    {wmCloud lm wm : Option D} {mls tlMl lk oc mls' tlMl' : Option Int} {valve : Option Bool}
    {lk' oc' : Int} (hlm : asFloat (Json.get payload "lm".toList) = some lm)
    (hmls : asInt (Json.get payload "mls".toList) = some mls)
    (htl : asInt (Json.get payload "tl_ml".toList) = some tlMl)
    (hvalve : asBool (Json.get payload "v".toList) = some valve)
    (hwm : asFloat (Json.get payload "wm".toList) = some wm)
    (hlk : asInt (Json.get payload "lk".toList) = some lk)
    (hoc : asInt (Json.get payload "oc".toList) = some oc) (himei : textColumn imei = some imei)
    (hmls' : nullableInt 64 mls = some mls') (htl' : nullableInt 64 tlMl = some tlMl')
    (hlk' : intColumn 16 (lk.getD 0) = some lk') (hoc' : intColumn 16 (oc.getD 0) = some oc')
    (hraw : storableMembers payload = true) :
    reading now imei ts payload wmCloud =
      some ⟨imei, ts, now, lm, mls', tlMl', valve, wm, wmCloud, lk', oc', payload⟩ := by
  simp only [reading, hlm, hmls, htl, hvalve, hwm, hlk, hoc, himei, hmls', htl', hlk', hoc', hraw,
    Option.bind_eq_bind, Option.bind_some, if_true]

theorem heartbeatRow_eq {now : Nat} {imei : Str} {ts : ZonedTime} {payload : Dict D}
    {up rssi tlMl lk oc up' rssi' tlMl' : Option Int} {valve fp : Option Bool}
    {ok lk' oc' ok' : Int} (hup : asInt (Json.get payload "up".toList) = some up)
    (hvalve : asBool (Json.get payload "v".toList) = some valve)
    (hfp : asBool (Json.get payload "fp".toList) = some fp)
    (hlk : asInt (Json.get payload "lk".toList) = some lk)
    (hoc : asInt (Json.get payload "oc".toList) = some oc)
    (hrssi : asInt (Json.get payload "rssi".toList) = some rssi)
    (htl : asInt (Json.get payload "tl_ml".toList) = some tlMl)
    (hnull : isNull (Json.get payload "ok".toList) = false)
    (hok : asInt (Json.get payload "ok".toList) = some (some ok))
    (himei : textColumn imei = some imei) (hup' : nullableInt 64 up = some up')
    (hlk' : intColumn 16 (lk.getD 0) = some lk') (hoc' : intColumn 16 (oc.getD 0) = some oc')
    (hrssi' : nullableInt 32 rssi = some rssi') (htl' : nullableInt 64 tlMl = some tlMl')
    (hok' : intColumn 16 ok = some ok') (hraw : storableMembers payload = true) :
    heartbeatRow now imei ts payload =
      some ⟨imei, ts, now, up', valve, fp, lk', oc', rssi', tlMl', ok', payload⟩ := by
  simp only [heartbeatRow, hup, hvalve, hfp, hlk, hoc, hrssi, htl, hnull, hok, himei, hup', hlk',
    hoc', hrssi', htl', hok', hraw, Option.bind_eq_bind, Option.bind_some, Option.join_some,
    Bool.false_eq_true, if_false, if_true]

/-! ### `save_fingerprint` -/

/-- The row that `save_fingerprint` inserts. -/
def savedRow (now : Nat) (imei : Str) (params : FitParams D) (db : Db D) : Fingerprint D :=
  { params with id := db.fingerprints.length, imei := imei, createdAt := now, published := false }

omit [Python D] in
/-- `save_fingerprint` inserts its row, and the flag of the meter. -/
theorem saveFingerprint_eq (now : Nat) (params : FitParams D) {imei : Str} {db : Db D} {row : Meter}
    (hrow : db.meters.lookup imei = some row) : saveFingerprint now imei params db = (some (),
      { db with
        fingerprints := savedRow now imei params db :: db.fingerprints
        meters := db.meters.insert imei { row with fpValid := true, lastSeen := now } }) := by
  simp only [saveFingerprint, Bind.bind, Pure.pure, Cut.read, hrow, Cut.ofOption, Cut.update]
  rfl

omit [Python D] in
/-- It raises before it does anything, where there is no such meter. -/
theorem saveFingerprint_none (now : Nat) (params : FitParams D) {imei : Str} {db : Db D}
    (hrow : db.meters.lookup imei = none) :
    saveFingerprint now imei params db = (none, db) := by
  simp only [saveFingerprint, Bind.bind, Cut.read, hrow]
  rfl

section Upsert

variable [Server D]

/-- The parts of the `EXCLUDED` row. -/
theorem excluded_spec {info : Dict D} {ex : Excluded} (h : excluded info = some ex) :
    asBool (Json.get info "v".toList) = some ex.valve ∧
    pplColumn (Json.get info "ppl".toList) = some ex.pulsesPerLiter ∧
    ∃ fp, asBool (Json.get info "fp".toList) = some fp ∧ ex.fpValid = some (fp.getD false) := by
  simp only [excluded, Option.bind_eq_bind, Option.bind_eq_some_iff] at h
  obtain ⟨valve, hvalve, fp, hfp, ppl, hppl, hex⟩ := h
  cases hex
  refine ⟨hvalve, hppl, fp, hfp, ?_⟩
  cases fp <;> rfl

theorem excluded_eq {info : Dict D} {valve fp : Option Bool} {ppl : Option Int}
    (hvalve : asBool (Json.get info "v".toList) = some valve)
    (hfp : asBool (Json.get info "fp".toList) = some fp)
    (hppl : pplColumn (Json.get info "ppl".toList) = some ppl) :
    excluded info = some ⟨ppl, valve, fp.or (some false)⟩ := by
  simp only [excluded, hvalve, hfp, hppl, Option.bind_eq_bind, Option.bind_some]

/-- An upsert that is carried out. -/
theorem upsertMeter_eq {now : Nat} {imei : Str} {info : Dict D} {db : Db D} {ex : Excluded}
    (hex : excluded info = some ex) (himei : textColumn imei = some imei) :
    upsertMeter now imei info db = (some (),
      { db with meters := db.meters.insert imei (ex.store now (db.meters.lookup imei)) }) := by
  simp only [upsertMeter, hex, himei]
  rfl

theorem insertReading_eq {now : Nat} {imei : Str} {ts : ZonedTime} {payload : Dict D}
    {wmCloud : Option D} {db : Db D} {ex : Excluded} {row : Reading D}
    (hex : excluded payload = some ex) (himei : textColumn imei = some imei)
    (hrow : reading now imei ts payload wmCloud = some row) :
    insertReading now imei ts payload wmCloud db = (some (),
      { db with
        meters := db.meters.insert imei (ex.store now (db.meters.lookup imei))
        readings := row :: db.readings }) := by
  simp only [insertReading, Bind.bind, upsertMeter_eq hex himei, hrow]
  rfl

theorem insertHeartbeat_eq {now : Nat} {imei : Str} {ts : ZonedTime} {payload : Dict D}
    {db : Db D} {ex : Excluded} {row : HeartbeatRow D}
    (hex : excluded [("v".toList, Json.get payload "v".toList),
      ("fp".toList, Json.get payload "fp".toList)] = some ex)
    (himei : textColumn imei = some imei)
    (hrow : heartbeatRow now imei ts payload = some row) :
    insertHeartbeat now imei ts payload db = (some (),
      { db with
        meters := db.meters.insert imei (ex.store now (db.meters.lookup imei))
        heartbeats := row :: db.heartbeats }) := by
  simp only [insertHeartbeat, Bind.bind, upsertMeter_eq hex himei, hrow]
  rfl

/-- An upsert that raises. -/
theorem upsertMeter_raises {now : Nat} {imei : Str} {info : Dict D} {db : Db D}
    (h : excluded info = none ∨ textColumn imei = none) :
    upsertMeter now imei info db = (none, db) := by
  cases hex : excluded info with
  | none =>
    simp only [upsertMeter, hex]
    rfl
  | some ex =>
    have himei : textColumn imei = none := by
      rcases h with h | h
      · rw [hex] at h
        cases h
      · exact h
    simp only [upsertMeter, hex, himei]
    rfl

/-- An upsert is carried out or raises. -/
theorem upsertMeter_cases (now : Nat) (imei : Str) (info : Dict D) (db : Db D) :
    (∃ ex, excluded info = some ex ∧ upsertMeter now imei info db = (some (),
      { db with meters := db.meters.insert imei (ex.store now (db.meters.lookup imei)) })) ∨
    upsertMeter now imei info db = (none, db) := by
  cases hex : excluded info with
  | none => exact .inr (upsertMeter_raises (.inl hex))
  | some ex =>
    cases himei : textColumn imei with
    | none => exact .inr (upsertMeter_raises (.inr himei))
    | some imei' =>
      have heq := textColumn_eq himei
      subst heq
      exact .inl ⟨ex, rfl, upsertMeter_eq hex himei⟩

end Upsert

end Cloud

end Waterbox
