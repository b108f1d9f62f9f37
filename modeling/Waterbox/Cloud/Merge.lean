import Waterbox.Cloud.Exact

namespace Waterbox

namespace Cloud

/-!
# What a message without a field does to a meter's row

`upsert_meter` means to merge: a field that a message does not carry keeps its value.  The
`VALUES` of its `INSERT` however put `false` where the field `fp` is missing, so that the
`COALESCE` of its `ON CONFLICT` never finds a NULL there.

* `Merged` — the field-wise merge, and `merged_iff` — when an upsert is one.
* `Event`, `after` — messages and saved fingerprints, and the tables after a list of them.
* `fpValid_apply` — what one event does to the flag of a meter.
* `fpValid_last_iff` — in which runs the flag is the one that was carried last.
-/

variable {D : Type} [Python D] [Server D]

/-- A row is the field-wise merge of a payload into the row before. -/
structure Merged (info : Dict D) (row row' : Meter) : Prop where
  pulsesPerLiter : isNull (Json.get info "ppl".toList) = true →
    row'.pulsesPerLiter = row.pulsesPerLiter
  valve : isNull (Json.get info "v".toList) = true → row'.valve = row.valve
  fpValid : isNull (Json.get info "fp".toList) = true → row'.fpValid = row.fpValid

/-! ### One upsert -/

/-- The stored row merges the payload if and only if the payload carries the flag or the flag was
    not set. -/
theorem merged_iff {info : Dict D} {ex : Excluded} (hex : excluded info = some ex) (now : Nat)
    (row : Meter) :
    Merged info row (ex.store now (some row)) ↔
      isNull (Json.get info "fp".toList) = false ∨ row.fpValid = false := by
  obtain ⟨hvalve, hppl, fp, hfp, hflag⟩ := excluded_spec hex
  constructor
  · intro h
    cases hnull : isNull (Json.get info "fp".toList) with
    | false => exact .inl rfl
    | true =>
      -- an absent flag is stored as false, so the row was not valid before
      have hmissing : fp = none := by
        rw [eq_null_of_isNull hnull] at hfp
        exact (Option.some.inj hfp).symm
      have hkeeps := h.fpValid hnull
      simp only [Excluded.store, hflag, hmissing, Option.getD_none, Option.getD_some] at hkeeps
      exact .inr hkeeps.symm
  · intro h
    refine ⟨fun hnull => ?_, fun hnull => ?_, fun hnull => ?_⟩
    · rw [eq_null_of_isNull hnull] at hppl
      simp only [Excluded.store, ← Option.some.inj hppl, Option.none_or]
    · rw [eq_null_of_isNull hnull] at hvalve
      simp only [Excluded.store, ← Option.some.inj hvalve, Option.none_or]
    · rcases h with h | h
      · rw [h] at hnull
        cases hnull
      · rw [eq_null_of_isNull hnull] at hfp
        simp only [Excluded.store, hflag, ← Option.some.inj hfp, Option.getD_none,
          Option.getD_some, h]

/-! ### Messages and fingerprints -/

/-- What the worker does with the tables: it handles a message, or it saves a fingerprint. -/
inductive Event (D : Type)
  | message (m : Moment) (topic : Str) (payload : Dict D)
  | fingerprint (now : Nat) (imei : Str) (params : FitParams D)

/-- The flag of a meter; a meter that is not stored has none set. -/
def fpValid (imei : Str) (db : Db D) : Bool :=
  match db.meters.lookup imei with
  | some row => row.fpValid
  | none => false

namespace Event

/-- An exception ends the handling of the event and no more. -/
def apply (e : Event D) (db : Db D) : Db D :=
  match e with
  | message m topic payload => (handlePayload m topic payload db).2
  | fingerprint now imei params => (saveFingerprint now imei params db).2

/-- The meter and the payload that the event passes to `upsert_meter`. -/
def passed (db : Db D) : Event D → Option (Str × Dict D)
  | message m topic payload =>
    let imei := imeiOf topic payload
    if imei.isEmpty then none
    else if "/info".toList.isSuffixOf topic then some (imei, payload)
    else if "/hb".toList.isSuffixOf topic then
      some (imei,
        [("v".toList, Json.get payload "v".toList), ("fp".toList, Json.get payload "fp".toList)])
    else if "/data".toList.isSuffixOf topic then
      let ts := parseDeviceTime m (Json.get payload "ts".toList)
      (wmCloud imei ts db).map fun _ => (imei, payload)
    else none
  | fingerprint _ _ _ => none

/-- The same, where `upsert_meter` does not raise. -/
def upserted (imei : Str) (db : Db D) (e : Event D) : Option (Dict D) :=
  match e.passed db with
  | some (i, info) =>
    if i = imei ∧ (excluded info).isSome ∧ (textColumn i).isSome then some info else none
  | none => none

/-- The flag that the event carries for the meter: the field `fp` of a message, or a fingerprint
    that is saved. -/
def carried (imei : Str) (db : Db D) (e : Event D) : Option Bool :=
  match e with
  | message _ _ _ =>
    match e.upserted imei db with
    | some info => (asBool (Json.get info "fp".toList)).join
    | none => none
  | fingerprint _ i _ => if i = imei ∧ (db.meters.lookup imei).isSome then some true else none

/-- The event leaves the flag of the meter alone unless it carries one. -/
def Merges (imei : Str) (db : Db D) (e : Event D) : Prop :=
  ∀ info, e.upserted imei db = some info →
    isNull (Json.get info "fp".toList) = false ∨ fpValid imei db = false

end Event

/-- The tables after a list of events. -/
def after (events : List (Event D)) (db : Db D) : Db D :=
  events.foldl (fun db e => e.apply db) db

/-- The flag that was carried last, `flag` where none was. -/
def lastCarried (imei : Str) : List (Event D) → Db D → Bool → Bool
  | [], _, flag => flag
  | e :: events, db, flag =>
    lastCarried imei events (e.apply db) ((e.carried imei db).getD flag)

/-! ### What an event does to the flag -/

theorem insertReading_meters (now : Nat) (imei : Str) (ts : ZonedTime) (payload : Dict D)
    (wm : Option D) (db : Db D) :
    (insertReading now imei ts payload wm db).2.meters =
      (upsertMeter now imei payload db).2.meters := by
  refine Cut.proj_bind (g := Db.meters) (fun _ db => ?_) _ _
  cases reading now imei ts payload wm <;> rfl

theorem insertHeartbeat_meters (now : Nat) (imei : Str) (ts : ZonedTime) (payload : Dict D)
    (db : Db D) :
    (insertHeartbeat now imei ts payload db).2.meters =
      (upsertMeter now imei
        [("v".toList, Json.get payload "v".toList), ("fp".toList, Json.get payload "fp".toList)]
        db).2.meters := by
  refine Cut.proj_bind (g := Db.meters) (fun _ db => ?_) _ _
  cases heartbeatRow now imei ts payload <;> rfl

/-- A message changes the meters by its upsert only. -/
theorem handlePayload_meters (m : Moment) (topic : Str) (payload : Dict D) (db : Db D) :
    (handlePayload m topic payload db).2.meters =
      match (Event.message m topic payload).passed db with
      | some (imei, info) => (upsertMeter m.server imei info db).2.meters
      | none => db.meters := by
  unfold handlePayload Event.passed
  simp only
  split_ifs
  · rfl
  · rfl
  · exact insertHeartbeat_meters _ _ _ _ _
  · simp only [Bind.bind, Cut.read]
    cases wmCloud (imeiOf topic payload)
        (parseDeviceTime m (Json.get payload "ts".toList)) db with
    | none => rfl
    | some wm => exact insertReading_meters _ _ _ _ _ _
  · rfl

theorem Event.upserted_eq_some {imei : Str} {db : Db D} {e : Event D} {info : Dict D} :
    e.upserted imei db = some info ↔
      e.passed db = some (imei, info) ∧ (excluded info).isSome ∧ (textColumn imei).isSome := by
  unfold Event.upserted
  cases e.passed db with
  | none => simp
  | some p =>
    obtain ⟨i, info'⟩ := p
    simp only [Option.ite_none_right_eq_some, Option.some.injEq, Prod.mk.injEq]
    constructor
    · rintro ⟨⟨rfl, hok⟩, rfl⟩
      exact ⟨⟨rfl, rfl⟩, hok⟩
    · rintro ⟨⟨rfl, rfl⟩, hok⟩
      exact ⟨⟨rfl, hok⟩, rfl⟩

/-- The row of a meter after an upsert of its own. -/
theorem lookup_of_upserted {imei : Str} {db : Db D} {m : Moment} {topic : Str}
    {payload info : Dict D}
    (h : (Event.message m topic payload).upserted imei db = some info) :
    ∃ ex, excluded info = some ex ∧
      ((Event.message m topic payload).apply db).meters.lookup imei =
        some (ex.store m.server (db.meters.lookup imei)) := by
  obtain ⟨hpassed, hex, himei⟩ := Event.upserted_eq_some.1 h
  obtain ⟨ex, hex⟩ := Option.isSome_iff_exists.1 hex
  obtain ⟨imei', himei⟩ := Option.isSome_iff_exists.1 himei
  have heq := textColumn_eq himei
  subst heq
  have hmeters := handlePayload_meters m topic payload db
  rw [hpassed] at hmeters
  simp only [upsertMeter_eq hex himei] at hmeters
  refine ⟨ex, hex, ?_⟩
  rw [Event.apply, hmeters, AList.lookup_insert]

/-- A message without an upsert of the meter leaves its row alone. -/
theorem lookup_of_not_upserted {imei : Str} {db : Db D} {m : Moment} {topic : Str}
    {payload : Dict D} (h : (Event.message m topic payload).upserted imei db = none) :
    ((Event.message m topic payload).apply db).meters.lookup imei = db.meters.lookup imei := by
  have hmeters := handlePayload_meters m topic payload db
  have hpassed : ∀ info, (Event.message m topic payload).passed db = some (imei, info) →
      excluded info = none ∨ textColumn imei = none := by
    intro info hpassed
    by_contra hok
    rw [not_or, ← ne_eq, ← ne_eq, Option.ne_none_iff_isSome, Option.ne_none_iff_isSome] at hok
    rw [Event.upserted_eq_some.2 ⟨hpassed, hok⟩] at h
    cases h
  generalize (Event.message m topic payload).passed db = p at hmeters hpassed
  rw [Event.apply, hmeters]
  rcases p with - | ⟨i, info⟩
  · rfl
  show (upsertMeter m.server i info db).2.meters.lookup imei = db.meters.lookup imei
  by_cases hi : i = imei
  · subst hi
    rw [upsertMeter_raises (hpassed info rfl)]
  · rcases upsertMeter_cases m.server i info db with ⟨ex, -, hrun⟩ | hrun
    · rw [hrun]
      exact AList.lookup_insert_ne (Ne.symm hi)
    · rw [hrun]

/-- A fingerprint that is saved sets the flag of its meter, where that is stored. -/
theorem fpValid_fingerprint (imei : Str) (db : Db D) (now : Nat) (i : Str) (params : FitParams D) :
    fpValid imei ((Event.fingerprint now i params).apply db) =
      ((Event.fingerprint now i params).carried imei db).getD (fpValid imei db) := by
  by_cases hi : i = imei
  · subst hi
    cases hrow : db.meters.lookup i with
    | none =>
      have hrun : (Event.fingerprint now i params).apply db = db :=
        congrArg Prod.snd (saveFingerprint_none now params hrow)
      rw [hrun, Event.carried, hrow]
      simp
    | some row =>
      have hrun : ((Event.fingerprint now i params).apply db).meters =
          db.meters.insert i { row with fpValid := true, lastSeen := now } :=
        congrArg (fun r => r.2.meters) (saveFingerprint_eq now params hrow)
      rw [fpValid, hrun, AList.lookup_insert, Event.carried, hrow]
      simp
  · -- the row of another meter stays
    have hrun : ((Event.fingerprint now i params).apply db).meters.lookup imei =
        db.meters.lookup imei := by
      cases hrow : db.meters.lookup i with
      | none => rw [Event.apply, saveFingerprint_none now params hrow]
      | some row =>
        rw [Event.apply, saveFingerprint_eq now params hrow]
        exact AList.lookup_insert_ne (Ne.symm hi)
    simp only [fpValid, hrun, Event.carried, hi, false_and, if_false, Option.getD_none]

/-- An event sets the flag of a meter to what it carries; an upsert that carries none clears
    it. -/
theorem fpValid_apply (imei : Str) (db : Db D) (e : Event D) :
    fpValid imei (e.apply db) =
      (e.carried imei db).getD
        (if (e.upserted imei db).isSome then false else fpValid imei db) := by
  cases e with
  | message m topic payload =>
    cases hups : (Event.message m topic payload).upserted imei db with
    | none =>
      simp only [fpValid, lookup_of_not_upserted hups, Event.carried, hups, Option.getD_none,
        Option.isSome_none, Bool.false_eq_true, if_false]
    | some info =>
      obtain ⟨ex, hex, hlookup⟩ := lookup_of_upserted hups
      obtain ⟨-, -, fp, hfp, hflag⟩ := excluded_spec hex
      simp only [fpValid, hlookup, Event.carried, hups, hfp, Option.join_some, Option.isSome_some,
        if_true]
      cases db.meters.lookup imei <;> simp only [Excluded.store, hflag, Option.getD_some]
  | fingerprint now i params =>
    rw [fpValid_fingerprint]
    rfl

/-! ### Runs -/

/-- The event merges if and only if the flag afterwards is the one it carried, or the one
    before. -/
theorem merges_iff (imei : Str) (db : Db D) (e : Event D) :
    e.Merges imei db ↔ fpValid imei (e.apply db) = (e.carried imei db).getD (fpValid imei db) := by
  rw [fpValid_apply, Event.Merges]
  cases hups : e.upserted imei db with
  | none => simp
  | some info =>
    obtain ⟨hex, -⟩ := (Event.upserted_eq_some.1 hups).2
    obtain ⟨ex, hex⟩ := Option.isSome_iff_exists.1 hex
    obtain ⟨-, -, fp, hfp, -⟩ := excluded_spec hex
    have hcarried : e.carried imei db = fp := by
      cases e with
      | message => simp only [Event.carried, hups, hfp, Option.join_some]
      | fingerprint => cases hups
    rw [hcarried]
    simp only [Option.some.injEq, forall_eq', Option.isSome_some, if_true]
    cases hnull : isNull (Json.get info "fp".toList) with
    | true =>
      -- nothing is carried, and the flag is cleared
      rw [eq_null_of_isNull hnull] at hfp
      cases hfp
      rw [Option.getD_none, Option.getD_none, eq_comm (a := false)]
      exact or_iff_right (by decide)
    | false =>
      obtain ⟨b, rfl⟩ := Option.isSome_iff_exists.1 (asBool_isSome hnull hfp)
      simp only [Option.getD_some, true_or]

/-- In a run of which every event merges, and in no other, the flag is the one that was carried
    last, in every state on the way. -/
theorem fpValid_last_iff (imei : Str) (events : List (Event D)) (db : Db D) :
    (∀ k ≤ events.length, fpValid imei (after (events.take k) db) =
      lastCarried imei (events.take k) db (fpValid imei db)) ↔
    ∀ k (hk : k < events.length), events[k].Merges imei (after (events.take k) db) := by
  induction events generalizing db with
  | nil => simp [after, lastCarried]
  | cons e events ih =>
    have ih := ih (e.apply db)
    constructor
    · intro h
      -- after the first event the flag is the one it carried, so the rest starts right
      have hfirst : fpValid imei (e.apply db) = (e.carried imei db).getD (fpValid imei db) :=
        h 1 (by simp)
      rw [hfirst] at ih
      have hrest := ih.1 fun k hk => h (k + 1) (by simpa using hk)
      intro k hk
      cases k with
      | zero => exact (merges_iff imei db e).2 hfirst
      | succ k => exact hrest k (by simpa using hk)
    · intro h
      have hfirst := (merges_iff imei db e).1 (h 0 (by simp))
      rw [hfirst] at ih
      have hrest := ih.2 fun k hk => h (k + 1) (by simpa using hk)
      intro k hk
      cases k with
      | zero => rfl
      | succ k => exact hrest k (by simpa using hk)

/-- An upsert on an existing row is the field-wise merge if and only if the payload carries the
    flag or the flag was not set; and over a list of messages and saved fingerprints the flag of
    a meter is the one carried last, in every state on the way, if and only if each upsert on the
    way carries the flag or finds it not set. -/
theorem meter_merged_iff :
    (∀ (now : Nat) (imei : Str) (info : Dict D) (db db' : Db D) (row : Meter),
      db.meters.lookup imei = some row → upsertMeter now imei info db = (some (), db') →
      ∃ row', db'.meters.lookup imei = some row' ∧
        (Merged info row row' ↔
          isNull (Json.get info "fp".toList) = false ∨ row.fpValid = false)) ∧
    ∀ (imei : Str) (events : List (Event D)) (db : Db D),
      (∀ k ≤ events.length, fpValid imei (after (events.take k) db) =
        lastCarried imei (events.take k) db (fpValid imei db)) ↔
      ∀ k (hk : k < events.length), events[k].Merges imei (after (events.take k) db) := by
  refine ⟨fun now imei info db db' row hrow hrun => ?_, fpValid_last_iff⟩
  rcases upsertMeter_cases now imei info db with ⟨ex, hex, hdone⟩ | hraises
  · rw [hdone] at hrun
    cases hrun
    exact ⟨_, AList.lookup_insert _, hrow ▸ merged_iff hex now row⟩
  · rw [hraises] at hrun
    cases hrun

def sharedTopic (leaf : Str) : Str := "waterbox/861234567890123/".toList ++ leaf

/-- A meter announces itself with a fingerprint, and reports its flow without a word on it. -/
def announced : List (Event Exact) :=
  [.message noon (sharedTopic "info".toList)
     [("ppl".toList, .int 245), ("v".toList, .int 0), ("fp".toList, .int 1)],
   .message noon (sharedTopic "data".toList)
     [("lm".toList, .float (.finite 0)), ("tl_ml".toList, .int 1000), ("v".toList, .int 0)]]

/-- What `handle_payload` passes on of a heartbeat. -/
def beat : Dict Exact := [("v".toList, .int 1), ("fp".toList, .int 1)]

/-- It announces itself, and sends a heartbeat. -/
def alive : List (Event Exact) :=
  announced.take 1 ++ [.message noon (sharedTopic "hb".toList) beat]

/-- The heartbeat finds the row of the announcement with the flag set, and carries it. -/
theorem meter_merged_alive :
    (∃ row row', (after (alive.take 1) noMeters).meters.lookup "861234567890123".toList = some row ∧
      row.fpValid = true ∧
      (upsertMeter 1 "861234567890123".toList beat
        (after (alive.take 1) noMeters)).2.meters.lookup "861234567890123".toList = some row' ∧
      Merged beat row row') ∧
    fpValid "861234567890123".toList (after alive noMeters) = true := by
  constructor
  · have hflag : ((after (alive.take 1) noMeters).meters.lookup "861234567890123".toList).map
        Meter.fpValid = some true := by decide +kernel
    obtain ⟨row, hrow, hset⟩ := Option.map_eq_some_iff.1 hflag
    have hrun : upsertMeter 1 "861234567890123".toList beat (after (alive.take 1) noMeters) =
        (some (), (upsertMeter 1 "861234567890123".toList beat
          (after (alive.take 1) noMeters)).2) := Prod.ext (by decide +kernel) rfl
    obtain ⟨row', hrow', hmerged⟩ := meter_merged_iff.1 1 _ beat _ _ row hrow hrun
    exact ⟨row, row', hrow, hset, hrow', hmerged.2 (.inl rfl)⟩
  · have hcarries : ((Event.message noon (sharedTopic "hb".toList) beat).upserted
        "861234567890123".toList (after (alive.take 1) noMeters)).map
          (fun info => isNull (Json.get info "fp".toList)) = some false := by decide +kernel
    have hmerges : ∀ k (hk : k < alive.length),
        alive[k].Merges "861234567890123".toList (after (alive.take k) noMeters) := by
      intro k hk
      have hk : k = 0 ∨ k = 1 := by
        have hlen : alive.length = 2 := rfl
        omega
      rcases hk with rfl | rfl
      · exact fun _ _ => .inr (by decide +kernel)
      · intro info hinfo
        have hmap := congrArg (Option.map fun info => isNull (Json.get info "fp".toList)) hinfo
        exact .inl (Option.some.inj (hmap.symm.trans hcarries))
    rw [← List.take_length (l := alive),
      (meter_merged_iff.2 _ alive noMeters).2 hmerges alive.length (Nat.le_refl _)]
    decide +kernel

/-- The report of the flow clears the flag that was carried last. -/
theorem meter_not_merged :
    fpValid "861234567890123".toList (after announced noMeters) = false ∧
    lastCarried "861234567890123".toList announced noMeters false = true := by
  decide +kernel

end Cloud

end Waterbox
