import Waterbox.Cloud.Exact

namespace Waterbox

namespace Cloud

/-!
# A message that fails

The connection commits every statement on its own, and `upsert_meter` is the first statement of
each message.  Where a later one raises, the row of the meter is already stored.

* `upserted` — the tables after the upsert of a message.
* `handlePayload_failed` — a message that raises leaves the tables as they were, or as its upsert
  left them.
-/

variable {D : Type} [Python D] [Server D]

/-- The part of a message that its upsert reads; `/info` has no other statement. -/
def upsertedInfo (topic : Str) (payload : Dict D) : Option (Dict D) :=
  if "/info".toList.isSuffixOf topic then none
  else if "/hb".toList.isSuffixOf topic then
    some [("v".toList, Json.get payload "v".toList), ("fp".toList, Json.get payload "fp".toList)]
  else if "/data".toList.isSuffixOf topic then some payload
  else none

/-- The tables after an upsert that is carried out. -/
def upserted (now : Nat) (imei : Str) (ex : Excluded) (db : Db D) : Db D :=
  { db with meters := db.meters.insert imei (ex.store now (db.meters.lookup imei)) }

/-- An upsert and then a statement that may raise before it does anything. -/
theorem upsert_then_failed {now : Nat} {imei : Str} {info : Dict D} {db db' : Db D} {α : Type}
    {row : Option α} {store : α → Db D → Db D}
    (h : (do
      upsertMeter now imei info
      let r ← Cut.ofOption row
      Cut.update (store r) : Py D Unit) db = (none, db')) :
    db' = db ∨ ∃ ex, excluded info = some ex ∧ db' = upserted now imei ex db := by
  rcases upsertMeter_cases now imei info db with ⟨ex, hex, heq⟩ | heq
  · -- the upsert is committed, and what follows it raises
    refine .inr ⟨ex, hex, ?_⟩
    simp only [bind, heq] at h
    cases row with
    | none => exact (Prod.mk.inj h).2.symm
    | some r => cases h
  · left
    simp only [bind, heq] at h
    exact (Prod.mk.inj h).2.symm

/-- A message that raises leaves `readings`, `heartbeats` and `fingerprints` as they were, and
    `meters` too, unless the message goes on after its upsert: then it may have stored its own
    row. -/
theorem handlePayload_failed {m : Moment} {topic : Str} {payload : Dict D} {db db' : Db D}
    (h : handlePayload m topic payload db = (none, db')) :
    db' = db ∨ ∃ info ex, upsertedInfo topic payload = some info ∧ excluded info = some ex ∧
      db' = upserted m.server (imeiOf topic payload) ex db := by
  unfold handlePayload at h
  unfold upsertedInfo
  dsimp only at h
  split at h
  · cases h
  split at h
  · -- `/info`: the upsert is the only statement
    rcases upsertMeter_cases m.server (imeiOf topic payload) payload db with ⟨ex, -, heq⟩ | heq
    · rw [heq] at h
      cases h
    · rw [heq] at h
      exact .inl (Prod.mk.inj h).2.symm
  rename_i hinfo
  rw [if_neg hinfo]
  split at h
  · rename_i hhb
    rw [if_pos hhb]
    rcases upsert_then_failed h with h | ⟨ex, hex, h⟩
    · exact .inl h
    · exact .inr ⟨_, ex, rfl, hex, h⟩
  rename_i hhb
  rw [if_neg hhb]
  split at h
  · rename_i hdata
    rw [if_pos hdata]
    simp only [bind, Cut.read] at h
    -- `predict` may raise before anything is stored
    cases hwm : wmCloud (imeiOf topic payload)
        (parseDeviceTime m (Json.get payload "ts".toList)) db with
    | none =>
      rw [hwm] at h
      exact .inl (Prod.mk.inj h).2.symm
    | some predicted =>
      rw [hwm] at h
      rcases upsert_then_failed h with h | ⟨ex, hex, h⟩
      · exact .inl h
      · exact .inr ⟨_, ex, rfl, hex, h⟩
  · cases h

/-- Where `handle_payload` raises, `readings` and `heartbeats` are as before, and so is every row of
    `meters` but the one of the message's meter.  That one is as before too, unless the message
    comes with more than its upsert, and the upsert was carried out. -/
theorem ingest_failed {m : Moment} {topic : Str} {payload : Dict D} {db db' : Db D}
    (h : handlePayload m topic payload db = (none, db')) :
    db'.readings = db.readings ∧ db'.heartbeats = db.heartbeats ∧
    db'.fingerprints = db.fingerprints ∧
    (∀ imei, imei ≠ imeiOf topic payload → db'.meters.lookup imei = db.meters.lookup imei) ∧
    (db'.meters = db.meters ∨
      ∃ info ex, upsertedInfo topic payload = some info ∧ excluded info = some ex ∧
        db'.meters.lookup (imeiOf topic payload) =
          some (ex.store m.server (db.meters.lookup (imeiOf topic payload)))) := by
  rcases handlePayload_failed h with rfl | ⟨info, ex, hinfo, hex, rfl⟩
  · exact ⟨rfl, rfl, rfl, fun _ _ => rfl, .inl rfl⟩
  · refine ⟨rfl, rfl, rfl, fun imei hne => ?_, .inr ⟨info, ex, hinfo, hex, ?_⟩⟩
    · exact AList.lookup_insert_ne hne
    · exact AList.lookup_insert _

/-- A reading whose flow is no number, of a meter that is new. -/
def badReading : Dict Exact := [("v".toList, .int 1), ("lm".toList, .str "abc".toList)]

/-- The upsert of this reading is committed before its flow is looked at. -/
theorem ingest_failed_reading :
    (handlePayload noon "waterbox/861234567890123/data".toList badReading
      noMeters).2.readings = [] ∧
    (handlePayload noon "waterbox/861234567890123/data".toList badReading noMeters).2.heartbeats =
      [] := by
  have hraises : (handlePayload noon "waterbox/861234567890123/data".toList badReading
      noMeters).1 = none := by decide +kernel
  have h := ingest_failed (Prod.ext hraises rfl)
  exact ⟨h.1, h.2.1⟩

theorem ingest_not_atomic :
    (handlePayload noon "waterbox/861234567890123/data".toList badReading noMeters).1 = none ∧
    noMeters.meters.lookup "861234567890123".toList = none ∧
    (handlePayload noon "waterbox/861234567890123/data".toList badReading
      noMeters).2.meters.lookup "861234567890123".toList =
        some ⟨0, 0, none, some true, false⟩ := by
  decide +kernel

end Cloud

end Waterbox
