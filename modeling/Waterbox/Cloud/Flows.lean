import Waterbox.Cloud.Finite

namespace Waterbox

namespace Cloud

/-!
# Flows that are no numbers

A reading's flow goes from the message into the fit, and from there into the fingerprint that the
meter gets.  A flow that is a JSON number is finite, since the payload is stored as `jsonb` too; a
text that `float` reads as NaN or as an infinity is not caught.

* `lm_finite_iff` — the flow of a stored row.
* `World.Clean`, `World.step_clean` — the invariant of runs without such a text.
* `World.numbers_finite_iff` — exactly these runs have finite numbers throughout.
-/

variable {D : Type} [Python D]

/-! ### The flow of a message -/

/-- A text that `float` reads as NaN or as an infinity. -/
def nonFiniteText : Json D → Bool
  | .str s => !s.isEmpty && (Python.ofText s : Option D).any fun x => !Python.isFinite x
  | _ => false

/-- The row that a message adds to `readings`, where it adds one. -/
def storedReading [Server D] (m : Moment) (topic : Str) (payload : Dict D) (db : Db D) :
    Option (Reading D) :=
  let imei := imeiOf topic payload
  if imei.isEmpty then none
  else if "/info".toList.isSuffixOf topic then none
  else if "/hb".toList.isSuffixOf topic then none
  else if "/data".toList.isSuffixOf topic then do
    let ts := parseDeviceTime m (Json.get payload "ts".toList)
    let predicted ← wmCloud imei ts db
    let _ ← excluded payload
    reading m.server imei ts payload predicted
  else none

theorem reading_spec {now : Nat} {imei : Str} {ts : ZonedTime} {payload : Dict D}
    {wmCloud : Option D} {row : Reading D} (h : reading now imei ts payload wmCloud = some row) :
    asFloat (Json.get payload "lm".toList) = some row.lm ∧ textColumn imei = some imei ∧
      storableMembers payload = true := by
  unfold reading at h
  obtain ⟨lm, hlm, h⟩ := Option.bind_eq_some_iff.1 h
  obtain ⟨mls, -, h⟩ := Option.bind_eq_some_iff.1 h
  obtain ⟨tlMl, -, h⟩ := Option.bind_eq_some_iff.1 h
  obtain ⟨valve, -, h⟩ := Option.bind_eq_some_iff.1 h
  obtain ⟨wm, -, h⟩ := Option.bind_eq_some_iff.1 h
  obtain ⟨lk, -, h⟩ := Option.bind_eq_some_iff.1 h
  obtain ⟨oc, -, h⟩ := Option.bind_eq_some_iff.1 h
  obtain ⟨imei', himei, h⟩ := Option.bind_eq_some_iff.1 h
  -- the ranges of the columns
  obtain ⟨mlsColumn, -, h⟩ := Option.bind_eq_some_iff.1 h
  obtain ⟨tlMlColumn, -, h⟩ := Option.bind_eq_some_iff.1 h
  obtain ⟨lkColumn, -, h⟩ := Option.bind_eq_some_iff.1 h
  obtain ⟨ocColumn, -, h⟩ := Option.bind_eq_some_iff.1 h
  split at h
  · rename_i hraw
    cases h
    have heq := textColumn_eq himei
    subst heq
    exact ⟨hlm, himei, hraw⟩
  · cases h

theorem upsertMeter_readings [Server D] (now : Nat) (imei : Str) (info : Dict D) (db : Db D) :
    (upsertMeter now imei info db).2.readings = db.readings := by
  rcases upsertMeter_cases now imei info db with ⟨ex, -, heq⟩ | heq
  · rw [heq]
  · rw [heq]

theorem insertHeartbeat_readings [Server D] (now : Nat) (imei : Str) (ts : ZonedTime)
    (payload : Dict D) (db : Db D) :
    (insertHeartbeat now imei ts payload db).2.readings = db.readings := by
  have hkeeps : Cut.Keeps (fun db' : Db D => db'.readings = db.readings)
      (fun db' => db'.readings = db.readings) (insertHeartbeat now imei ts payload) := by
    refine Cut.Keeps.bind ?_ fun _ => Cut.Keeps.bind ?_ fun row => Cut.Keeps.update fun _ h => h
    · intro db' h
      rcases upsertMeter_cases now imei [("v".toList, Json.get payload "v".toList),
        ("fp".toList, Json.get payload "fp".toList)] db' with ⟨ex, -, heq⟩ | heq
      · simp only [Cut.wp, heq]
        exact h
      · simp only [Cut.wp, heq]
        exact h
    · cases heartbeatRow now imei ts payload with
      | none => exact Cut.Keeps.halt fun _ h => h
      | some row => exact Cut.Keeps.pure row
  exact Cut.wp_snd (hkeeps db rfl)

/-- The row of `insert_reading` is stored where both statements are carried out. -/
theorem insertReading_readings [Server D] (now : Nat) (imei : Str) (ts : ZonedTime)
    (payload : Dict D) (wmCloud : Option D) (db : Db D) :
    (insertReading now imei ts payload wmCloud db).2.readings =
      ((excluded payload).bind fun _ => reading now imei ts payload wmCloud).toList ++
        db.readings := by
  cases hrow : reading now imei ts payload wmCloud with
  | none =>
    have hnone : ((excluded payload).bind fun _ => (none : Option (Reading D))) = none := by
      cases excluded payload <;> rfl
    rw [hnone]
    show _ = db.readings
    rcases upsertMeter_cases now imei payload db with ⟨ex, -, heq⟩ | heq
    · simp only [insertReading, Bind.bind, heq, hrow]
      rfl
    · simp only [insertReading, Bind.bind, heq]
  -- the row is stored unless the upsert before it raises
  | some row =>
    obtain ⟨-, himei, -⟩ := reading_spec hrow
    cases hex : excluded payload with
    | none =>
      have heq : upsertMeter now imei payload db = (none, db) := upsertMeter_raises (.inl hex)
      simp only [insertReading, Bind.bind, heq]
      rfl
    | some ex =>
      rw [insertReading_eq hex himei hrow]
      rfl

theorem handlePayload_readings [Server D] (m : Moment) (topic : Str) (payload : Dict D)
    (db : Db D) : (handlePayload m topic payload db).2.readings =
      (storedReading m topic payload db).toList ++ db.readings := by
  unfold handlePayload storedReading
  dsimp only
  split
  · rfl
  split
  · exact upsertMeter_readings _ _ _ _
  split
  · exact insertHeartbeat_readings _ _ _ _ _
  split
  · simp only [Bind.bind, Cut.read]
    cases wmCloud (imeiOf topic payload) (parseDeviceTime m (Json.get payload "ts".toList)) db with
    | none => rfl
    | some predicted => exact insertReading_readings _ _ _ _ _ _
  · rfl

theorem storableMembers_append {front ms : Dict D} (h : storableMembers (front ++ ms) = true) :
    storableMembers ms = true := by
  induction front with
  | nil => exact h
  | cons m front ih =>
    rw [List.cons_append, storableMembers, Bool.and_eq_true] at h
    exact ih h.2

/-- The last member with a key is stored. -/
theorem storable_get {payload : Dict D} (h : storableMembers payload = true) (key : Str) :
    storable (Json.get payload key) = true := by
  unfold Json.get
  cases hlookup : payload.reverse.lookup key with
  | none => rfl
  | some v =>
    obtain ⟨front, back, heq, hlast⟩ := List.lookup_eq_some_iff.1 hlookup
    have hsplit : payload = back.reverse ++ (key, v) :: front.reverse := by
      rw [← List.reverse_reverse payload, heq]
      simp
    have hany : (front.reverse.any fun m' => m'.1 = key) = false := by
      rw [List.any_eq_false]
      intro m' hm'
      have hne := bne_iff_ne.1 (hlast m' (List.mem_reverse.1 hm'))
      rw [decide_eq_true_eq]
      exact hne.symm
    rw [hsplit] at h
    have hmember := storableMembers_append h
    rw [storableMembers, hany, Bool.false_or, Bool.and_eq_true, storableMember,
      Bool.and_eq_true] at hmember
    exact hmember.1.2

/-- The flow of a stored row is finite, unless its text is to blame. -/
theorem lm_finite_iff [ClosedPython D] {now : Nat} {imei : Str} {ts : ZonedTime} {payload : Dict D}
    {wmCloud : Option D} {row : Reading D} (h : reading now imei ts payload wmCloud = some row) :
    (∀ lm ∈ row.lm, IsFinite lm) ↔ nonFiniteText (Json.get payload "lm".toList) = false := by
  obtain ⟨hlm, -, hraw⟩ := reading_spec h
  have hstorable := storable_get hraw "lm".toList
  -- a number that is no text is finite, or it was not stored
  have hnumber : ∀ x : Option D, x.map some = some row.lm → (∀ y, x = some y → IsFinite y) →
      ∀ lm ∈ row.lm, IsFinite lm := by
    intro x hx hfinite lm hmem
    obtain ⟨y, hy, heq⟩ := Option.map_eq_some_iff.1 hx
    rw [← heq] at hmem
    cases hmem
    exact hfinite _ hy
  cases hvalue : Json.get payload "lm".toList with
  | null =>
    rw [hvalue] at hlm
    refine iff_of_true ?_ rfl
    rw [← Option.some.inj hlm]
    exact fun lm hmem => nomatch hmem
  | bool b =>
    rw [hvalue] at hlm
    exact iff_of_true (hnumber _ hlm fun y hy => ClosedPython.isFinite_ofInt _ y hy) rfl
  | int n =>
    rw [hvalue] at hlm
    exact iff_of_true (hnumber _ hlm fun y hy => ClosedPython.isFinite_ofInt n y hy) rfl
  | float x =>
    rw [hvalue] at hlm hstorable
    refine iff_of_true (hnumber (some x) hlm fun y hy => ?_) rfl
    cases hy
    exact hstorable
  | str s =>
    rw [hvalue] at hlm
    simp only [asFloat, nonFiniteText] at hlm ⊢
    by_cases hempty : s.isEmpty = true
    · rw [if_pos hempty] at hlm
      rw [hempty, ← Option.some.inj hlm]
      exact iff_of_true (fun lm hmem => nomatch hmem) rfl
    · rw [if_neg hempty] at hlm
      obtain ⟨x, hx, heq⟩ := Option.map_eq_some_iff.1 hlm
      rw [Bool.eq_false_iff.2 hempty, hx, ← heq]
      simp
  | arr items =>
    rw [hvalue] at hlm
    cases hlm
  | obj members =>
    rw [hvalue] at hlm
    cases hlm

theorem storedReading_eq [Server D] {m : Moment} {topic : Str} {payload : Dict D} {db : Db D}
    {row : Reading D} (h : storedReading m topic payload db = some row) :
    ∃ now imei ts predicted, reading now imei ts payload predicted = some row := by
  unfold storedReading at h
  dsimp only at h
  split_ifs at h
  simp only [Option.bind_eq_bind, Option.bind_eq_some_iff] at h
  obtain ⟨predicted, -, _, -, hrow⟩ := h
  exact ⟨_, _, _, predicted, hrow⟩

/-- The message stores a reading whose flow is a text that `float` reads as NaN or as
    an infinity. -/
def nonFiniteMessage [Server D] (m : Moment) (topic text : Str) (db : Db D) : Bool :=
  match Json.loads text with
  | some (.obj payload) =>
    (storedReading m topic payload db).isSome && nonFiniteText (Json.get payload "lm".toList)
  | _ => false

theorem onMessage_flows_iff [Server D] [ClosedPython D] (m : Moment) (topic text : Str) {db : Db D}
    (h : FlowsFinite db) :
    FlowsFinite (onMessage m topic text db).2 ↔ nonFiniteMessage m topic text db = false := by
  unfold onMessage nonFiniteMessage
  cases (Json.loads text : Option (Json D)) with
  | none => exact iff_of_true h rfl
  | some v =>
    cases v with
    | obj payload =>
      show (∀ r ∈ (handlePayload m topic payload db).2.readings, _) ↔
        ((storedReading m topic payload db).isSome && _) = false
      rw [handlePayload_readings]
      cases hstored : storedReading m topic payload db with
      | none => exact iff_of_true h rfl
      | some row =>
        obtain ⟨now, imei, ts, predicted, hrow⟩ := storedReading_eq hstored
        rw [Option.isSome_some, Bool.true_and, ← lm_finite_iff hrow]
        -- the new row is the only one that can have such a number
        constructor
        · exact fun hall => hall row List.mem_cons_self
        · intro hlm r hr
          rcases List.mem_cons.1 hr with rfl | hr
          · exact hlm
          · exact h r hr
    | _ => exact iff_of_true h rfl

/-! ### Runs -/

namespace World

/-- No message stores a reading whose flow is a text that `float` reads as NaN or as an infinity. -/
def FiniteMessage [Server D] (w : World D) : Action → Prop
  | .message m topic text => nonFiniteMessage m topic text w.db = false
  | _ => True

instance [Server D] (w : World D) : (a : Action) → Decidable (w.FiniteMessage a)
  | .message _ _ _ => instDecidableEqBool _ _
  | .start _ _ => isTrue trivial
  | .advance _ _ _ => isTrue trivial
  | .stop _ => isTrue trivial

/-- All numbers are finite: the flows, the coefficients, and those in the messages that the broker
    retains, which are JSON. -/
structure AllFinite (w : World D) : Prop where
  flows : FlowsFinite w.db
  coefficients : ∀ fp ∈ w.db.fingerprints,
    ∀ x ∈ [fp.w, fp.a1, fp.p1, fp.t1, fp.a2, fp.p2, fp.t2], IsFinite x
  bodies : ∀ topic body, w.retained topic = some body → FiniteObject D body

/-- A pass has only finite coefficients to save and to publish. -/
def FiniteStage : Stage D → Prop
  | .fitted params => FiniteFit params
  | .saved params => FiniteFit params
  | _ => True

/-- The invariant: whatever comes from a fit comes from a fit of finite flows. -/
structure Clean (w : World D) : Prop where
  flows : FlowsFinite w.db
  rows : ∀ fp ∈ w.db.fingerprints, FiniteFit fp.toFitParams
  stages : ∀ p ∈ w.passes, FiniteStage p.stage
  bodies : ∀ topic body, w.retained topic = some body → FiniteObject D body

theorem Clean.allFinite [ClosedPython D] {w : World D} (h : w.Clean) : w.AllFinite := by
  refine ⟨h.flows, fun fp hfp => ?_, h.bodies⟩
  have hfit := h.rows fp hfp
  have hnumbers := hfit.numbers
  simp only [List.forall_mem_cons] at hnumbers ⊢
  obtain ⟨hw, ha1, hp1, ha2, hp2, hnone⟩ := hnumbers
  refine ⟨hw, ha1, hp1, ?_, ha2, hp2, ?_, fun _ hx => nomatch hx⟩
  · rw [hfit.t1]
    exact isFinite_float (by decide)
  · rw [hfit.t2]
    exact isFinite_float (by decide)

theorem Clean.setPass {w : World D} (h : w.Clean) (i : Nat) {p : Pass D}
    (hp : FiniteStage p.stage) :
    (w.setPass i p).Clean := by
  refine ⟨h.flows, h.rows, fun p' hp' => ?_, h.bodies⟩
  rcases List.mem_or_eq_of_mem_set hp' with hp' | rfl
  · exact h.stages p' hp'
  · exact hp

omit [Python D] in
theorem markPublished_readings (imei : Str) (db : Db D) :
    (markPublished imei db).readings = db.readings := by
  unfold markPublished
  split <;> rfl

theorem advance_readings (w : World D) (i now : Nat) (outcome : Outcome) (p : Pass D) :
    (w.advance i now outcome p).db.readings = w.db.readings := by
  have hstep := advance_cases w i now outcome p
  generalize w.advance i now outcome p = w' at hstep ⊢
  cases hstep with
  | idle | skipped | fitted | saved | unsaved | accepted | refused | ignored | raised => rfl
  | marked => exact markPublished_readings _ _

/-- A message whose numbers are finite may be retained. -/
theorem Clean.accept {w : World D} (h : w.Clean) {topic body : Str}
    (hbody : FiniteObject D body) : (w.accept topic body).Clean := by
  refine ⟨h.flows, h.rows, h.stages, fun other held hheld => ?_⟩
  have hheld : (if other = topic then some body else w.retained other) = some held := hheld
  by_cases hother : other = topic
  · rw [if_pos hother] at hheld
    rw [← Option.some.inj hheld]
    exact hbody
  · rw [if_neg hother] at hheld
    exact h.bodies other held hheld

theorem advance_clean [ClosedPython D] {w : World D} (h : w.Clean) (i now : Nat) (outcome : Outcome)
    {p : Pass D} (hp : p ∈ w.passes) : (w.advance i now outcome p).Clean := by
  have hstage := h.stages p hp
  have hstep := advance_cases w i now outcome p
  generalize w.advance i now outcome p = w' at hstep ⊢
  cases hstep with
  | idle => exact h
  | skipped | unsaved | refused | ignored | raised => exact h.setPass i trivial
  | fitted hfit => exact h.setPass i (fitMeter_finite h.flows hfit)
  | saved =>
    -- the numbers of the new row are those of the pass
    refine Clean.setPass ?_ i hstage
    refine ⟨h.flows, fun fp hfp => ?_, h.stages, h.bodies⟩
    rcases List.mem_cons.1 hfp with rfl | hfp
    · exact hstage
    · exact h.rows fp hfp
  | accepted => exact (h.accept (loads_toMqttJson hstage)).setPass i trivial
  | marked =>
    refine Clean.setPass ?_ i trivial
    refine ⟨?_, fun fp hfp => ?_, h.stages, h.bodies⟩
    · show ∀ r ∈ (markPublished _ w.db).readings, _
      rw [markPublished_readings]
      exact h.flows
    · obtain ⟨old, hold, heq, -⟩ := markPublished_rows hfp
      rw [heq]
      exact h.rows old hold

theorem step_clean [Server D] [ClosedPython D] (w : World D) (a : Action) (h : w.Clean)
    (hok : w.FiniteMessage a) : (w.step a).Clean := by
  cases a with
  | message m topic text =>
    refine ⟨(onMessage_flows_iff m topic text h.flows).2 hok, ?_, h.stages, h.bodies⟩
    show ∀ fp ∈ (onMessage m topic text w.db).2.fingerprints, _
    rw [onMessage_fingerprints]
    exact h.rows
  | start kind window =>
    refine ⟨h.flows, h.rows, fun p hp => ?_, h.bodies⟩
    rcases List.mem_append.1 hp with hp | hp
    · exact h.stages p hp
    · rw [List.mem_singleton.1 hp]
      trivial
  | advance i now outcome =>
    simp only [step]
    cases hp : w.passes[i]? with
    | none => exact h
    | some p => exact advance_clean h i now outcome (List.mem_of_getElem? hp)
  | stop i =>
    simp only [step]
    split
    · exact h
    · exact h.setPass i trivial

/-- Exactly a message with a text that is not finite breaks the flows. -/
theorem step_flows_iff [Server D] [ClosedPython D] (w : World D) (a : Action)
    (h : FlowsFinite w.db) : FlowsFinite (w.step a).db ↔ w.FiniteMessage a := by
  cases a with
  | message m topic text => exact onMessage_flows_iff m topic text h
  | start kind window => exact iff_of_true h trivial
  | advance i now outcome =>
    refine iff_of_true ?_ trivial
    simp only [step]
    split
    · exact h
    · rw [FlowsFinite, advance_readings]
      exact h
  | stop i =>
    refine iff_of_true ?_ trivial
    simp only [step]
    split <;> exact h

/-- Messages, passes and stops in any order, from tables without readings and fingerprints on: all
    flows, all coefficients and all retained bodies are finite in all states, if and only if no
    message stores a reading whose flow is a text that `float` reads as NaN or as an infinity. -/
theorem numbers_finite_iff [Server D] [ClosedPython D] (db : Db D) (actions : List Action) :
    (∀ w ∈ Runs.states step (init { db with readings := [], fingerprints := [] }) actions,
      w.AllFinite) ↔
    Runs.Meets step FiniteMessage
      (init { db with readings := [], fingerprints := [] }) actions := by
  have hclean : (init { db with readings := [], fingerprints := [] }).Clean := by
    constructor
    · exact fun r hr => nomatch hr
    · exact fun fp hfp => nomatch hfp
    · exact fun p hp => nomatch hp
    · exact fun topic body hbody => nomatch hbody
  constructor
  · intro h
    refine (Runs.invariant_iff (I := fun w : World D => FlowsFinite w.db) (K := fun _ => True)
      (fun _ _ _ => trivial) (fun w a _ => step_flows_iff w a) trivial hclean.flows).1 ?_
    exact fun w hw => (h w hw).flows
  · intro h w hw
    exact (Runs.invariant step_clean hclean h w hw).allFinite

/-! ### A day of messages with one flow -/

/-- A message of the meter `1` in every hour, with the same text. -/
def dayOfMessages (text : String) : List Action :=
  (List.finRange 24).map fun h =>
    .message ⟨0, (hourly h).time, 0⟩ "waterbox/1/data".toList text.toList

/-- Messages with a decimal fraction as text. -/
theorem numbers_finite_day :
    Runs.Meets step FiniteMessage (init { noMeters with readings := [], fingerprints := [] })
      (dayOfMessages "\x7b\"lm\":\"1.5\"\x7d" ++ onePass .worker .accepted) ∧
    ∀ w ∈ Runs.states step (init { noMeters with readings := [], fingerprints := [] })
      (dayOfMessages "\x7b\"lm\":\"1.5\"\x7d" ++ onePass .worker .accepted), w.AllFinite := by
  have h : Runs.Meets step FiniteMessage (init { noMeters with readings := [], fingerprints := [] })
      (dayOfMessages "\x7b\"lm\":\"1.5\"\x7d" ++ onePass .worker .accepted) := by
    decide +kernel
  exact ⟨h, (numbers_finite_iff noMeters _).2 h⟩

/-- Messages with the text `nan`: the body that the broker retains is not JSON. -/
theorem nan_flow_retained : ¬∀ actions : List Action,
    ∀ w ∈ Runs.states step (init { noMeters with readings := [], fingerprints := [] }) actions,
      w.AllFinite := by
  intro h
  let actions := dayOfMessages "\x7b\"lm\":\"nan\"\x7d" ++ onePass .worker .accepted
  let w := actions.foldl step (init { noMeters with readings := [], fingerprints := [] })
  have hend : (w.retained (fpTopic "1".toList)).any
      (fun body => (Json.loads body : Option (Json Exact)).isNone) = true := by
    decide +kernel
  obtain ⟨body, hbody, hnone⟩ := (Option.any_eq_true _ _).1 hend
  obtain ⟨members, hmembers, -⟩ := (h actions w (Runs.last_mem _ _)).bodies _ body hbody
  rw [hmembers] at hnone
  cases hnone

end World

end Cloud

end Waterbox
