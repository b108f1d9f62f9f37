import Waterbox.Cloud.Exact
import Waterbox.Lib.Runs

namespace Waterbox

namespace Cloud

/-!
# Fit passes: `_fit_all` of `worker.py`, and `fit_once.py`

Passes run at the same time over one database and one broker, while messages come in.  Each step of
a pass is committed on its own, and a pass may stop after any of them.

* `latest_push`, `latest_map_markIf` — the newest row of a meter, after rows were added or marked.
* `World` — the tables, what the broker holds and has accepted, and the passes.
* `World.step` — one action; `World.advance_cases` — what the step of a pass can do.
-/

variable {D : Type}

/-! ### Rows of a meter -/

/-- The later of a row and the newest of others. -/
theorem foldl_newer (a : Fingerprint D) (fps : List (Fingerprint D)) :
    fps.foldl newer (some a) =
      match fps.foldl newer none with
      | none => some a
      | some b => newer (some a) b := by
  induction fps generalizing a with
  | nil => rfl
  | cons c fps ih =>
    have hfirst : newer none c = some c := rfl
    rw [List.foldl_cons, List.foldl_cons, hfirst, ih c]
    -- the later of the three is the same however they are compared
    by_cases hac : a.createdAt < c.createdAt
    · have hnewer : newer (some a) c = some c := if_pos hac
      rw [hnewer, ih c]
      cases fps.foldl newer none with
      | none => exact hnewer.symm
      | some b =>
        by_cases hcb : c.createdAt < b.createdAt
        · simp only [newer, if_pos hcb, if_pos (hac.trans hcb)]
        · simp only [newer, if_neg hcb, if_pos hac]
    · have hnewer : newer (some a) c = some a := if_neg hac
      rw [hnewer, ih a]
      cases fps.foldl newer none with
      | none => exact hnewer.symm
      | some b =>
        by_cases hcb : c.createdAt < b.createdAt
        · simp only [newer, if_pos hcb]
        · have hab : ¬a.createdAt < b.createdAt := by omega
          simp only [newer, if_neg hcb, if_neg hab, if_neg hac]

theorem latest_mem {imei : Str} {db : Db D} {fp : Fingerprint D}
    (h : latestFingerprint imei db = some fp) : fp ∈ db.fingerprints ∧ fp.imei = imei := by
  -- every step of the fold takes the row so far, or the row it looks at
  have hmem : ∀ (fps : List (Fingerprint D)), fps.foldl newer none = some fp → fp ∈ fps := by
    intro fps
    induction fps with
    | nil => exact fun h => nomatch h
    | cons a fps ih =>
      intro h
      have hfirst : newer none a = some a := rfl
      rw [List.foldl_cons, hfirst, foldl_newer] at h
      cases hb : fps.foldl newer none with
      | none =>
        rw [hb] at h
        cases h
        exact List.mem_cons_self
      | some b =>
        rw [hb] at h
        simp only [newer] at h
        by_cases hab : a.createdAt < b.createdAt
        · rw [if_pos hab] at h
          cases h
          exact List.mem_cons_of_mem _ (ih hb)
        · rw [if_neg hab] at h
          cases h
          exact List.mem_cons_self
  have h := List.mem_filter.1 (hmem _ h)
  exact ⟨h.1, of_decide_eq_true h.2⟩

/-- A new row is the newest of its meter, or the newest is still the one it was. -/
theorem latest_push {imei : Str} {db : Db D} {fp newest : Fingerprint D}
    (h : latestFingerprint imei { db with fingerprints := fp :: db.fingerprints } = some newest) :
    newest = fp ∧ fp.imei = imei ∨ latestFingerprint imei db = some newest := by
  unfold latestFingerprint at h ⊢
  by_cases himei : fp.imei = imei
  · have hfirst : newer none fp = some fp := rfl
    have hfilter : (fp :: db.fingerprints).filter (fun fp => decide (fp.imei = imei)) =
        fp :: db.fingerprints.filter fun fp => decide (fp.imei = imei) :=
      List.filter_cons_of_pos (decide_eq_true himei)
    rw [hfilter, List.foldl_cons, hfirst, foldl_newer] at h
    -- of two rows of one moment the new one is taken
    split at h
    · cases h
      exact .inl ⟨rfl, himei⟩
    · rename_i b hb
      simp only [newer] at h
      split at h
      · cases h
        exact .inr hb
      · cases h
        exact .inl ⟨rfl, himei⟩
  · have hfilter : (fp :: db.fingerprints).filter (fun fp => decide (fp.imei = imei)) =
        db.fingerprints.filter fun fp => decide (fp.imei = imei) :=
      List.filter_cons_of_neg (by simpa using himei)
    rw [hfilter] at h
    exact .inr h

@[simp] theorem markIf_imei (id : Nat) (fp : Fingerprint D) : (fp.markIf id).imei = fp.imei := by
  unfold Fingerprint.markIf
  split <;> rfl

@[simp] theorem markIf_id (id : Nat) (fp : Fingerprint D) : (fp.markIf id).id = fp.id := by
  unfold Fingerprint.markIf
  split <;> rfl

@[simp] theorem markIf_createdAt (id : Nat) (fp : Fingerprint D) :
    (fp.markIf id).createdAt = fp.createdAt := by
  unfold Fingerprint.markIf
  split <;> rfl

@[simp] theorem markIf_toFitParams (id : Nat) (fp : Fingerprint D) :
    (fp.markIf id).toFitParams = fp.toFitParams := by
  unfold Fingerprint.markIf
  split <;> rfl

/-- Marking rows does not change which of them is the newest. -/
theorem latest_map_markIf (id : Nat) (imei : Str) (db : Db D) :
    latestFingerprint imei { db with fingerprints := db.fingerprints.map (·.markIf id) } =
      (latestFingerprint imei db).map (·.markIf id) := by
  -- neither the meter nor the time of a row changes, so the choices are the same
  have hnewer : ∀ (best : Option (Fingerprint D)) fp,
      newer (best.map (·.markIf id)) (fp.markIf id) = (newer best fp).map (·.markIf id) := by
    intro best fp
    cases best with
    | none => rfl
    | some b =>
      simp only [Option.map_some, newer, markIf_createdAt]
      split <;> rfl
  have hfold : ∀ (fps : List (Fingerprint D)) (best : Option (Fingerprint D)),
      (fps.map (·.markIf id)).foldl newer (best.map (·.markIf id)) =
        (fps.foldl newer best).map (·.markIf id) := by
    intro fps
    induction fps with
    | nil => exact fun best => rfl
    | cons fp fps ih =>
      intro best
      rw [List.map_cons, List.foldl_cons, List.foldl_cons, hnewer, ih]
  unfold latestFingerprint
  rw [List.filter_map]
  have hfilter : (fun fp : Fingerprint D => decide (fp.imei = imei)) ∘ Fingerprint.markIf id =
      fun fp => decide (fp.imei = imei) := by
    funext fp
    simp only [Function.comp_apply, markIf_imei]
  rw [hfilter]
  exact hfold _ none

/-- `mark_published` leaves the coefficients of each row, and when it was inserted. -/
theorem markPublished_rows {imei : Str} {db : Db D} {fp : Fingerprint D}
    (h : fp ∈ (markPublished imei db).fingerprints) :
    ∃ old ∈ db.fingerprints, fp.toFitParams = old.toFitParams ∧ fp.createdAt = old.createdAt := by
  unfold markPublished at h
  split at h
  · exact ⟨fp, h, rfl, rfl⟩
  · obtain ⟨old, hold, rfl⟩ := List.mem_map.1 h
    exact ⟨old, hold, markIf_toFitParams _ old, markIf_createdAt _ old⟩

/-- The ids are those of a sequence. -/
structure Numbered (db : Db D) : Prop where
  nodup : (db.fingerprints.map (·.id)).Nodup
  lt : ∀ fp ∈ db.fingerprints, fp.id < db.fingerprints.length

theorem Numbered.push {db db' : Db D} {fp : Fingerprint D} (h : Numbered db)
    (hid : fp.id = db.fingerprints.length) (hdb : db'.fingerprints = fp :: db.fingerprints) :
    Numbered db' := by
  constructor
  · rw [hdb, List.map_cons, List.nodup_cons]
    refine ⟨fun hmem => ?_, h.nodup⟩
    obtain ⟨old, hold, heq⟩ := List.mem_map.1 hmem
    have hlt := h.lt old hold
    omega
  · rw [hdb]
    intro old hold
    rw [List.length_cons]
    rcases List.mem_cons.1 hold with rfl | hold
    · omega
    · exact Nat.lt_succ_of_lt (h.lt old hold)

theorem Numbered.marked {db : Db D} (h : Numbered db) (imei : Str) :
    Numbered (markPublished imei db) := by
  unfold markPublished
  split
  · exact h
  · rename_i newest _
    constructor
    · rw [List.map_map]
      have hids :
          (fun fp : Fingerprint D => fp.id) ∘ Fingerprint.markIf newest.id = fun fp => fp.id := by
        funext fp
        exact markIf_id _ _
      show (db.fingerprints.map ((fun fp : Fingerprint D => fp.id) ∘ _)).Nodup
      rw [hids]
      exact h.nodup
    · intro fp hfp
      obtain ⟨old, hold, rfl⟩ := List.mem_map.1 hfp
      rw [markIf_id, List.length_map]
      exact h.lt old hold

/-! ### The fit of a meter -/

variable [Python D]

namespace Config

def fitMinSamples : Nat := 24

end Config

/-- The fit of one meter; `none` where it is skipped, with too few samples or a `ValueError`. -/
def fitMeter (window : Window) (imei : Str) (db : Db D) : Option (FitParams D) :=
  let rows := samplesForFit window imei db
  if rows.length < Config.fitMinSamples then none
  else fit (rows.map fun r => hourOf r.1) (rows.map (·.2)) period1 period2

/-- `"{}/{}/fp".format(config.TOPIC_ROOT, imei)`. -/
def fpTopic (imei : Str) : Str := Config.topicRoot ++ '/' :: imei ++ "/fp".toList

/-! ### The world -/

/-- `_fit_all` of the worker, and `main` of `fit_once`. -/
inductive PassKind
  | worker
  | fitOnce
deriving DecidableEq

/-- Where a pass stands with a meter: it has still to be looked at; it was fitted;
    `save_fingerprint` is done; `mark_published` comes next. -/
inductive Stage (D : Type)
  | reading
  | fitted (params : FitParams D)
  | saved (params : FitParams D)
  | marking
deriving DecidableEq

/-- A pass, with the meters it has still to do. -/
structure Pass (D : Type) where
  kind : PassKind
  window : Window
  todo : List Str
  stage : Stage D

namespace Pass

variable (p : Pass D)

/-- The pass goes on to the next meter. -/
def next : Pass D := { p with todo := p.todo.tail, stage := .reading }

/-- The pass ends. -/
def ended : Pass D := { p with todo := [], stage := .reading }

/-- The pass has come to a stage. -/
def reach (stage : Stage D) : Pass D := { p with stage := stage }

/-- The meter and the coefficients that the next step publishes, where it publishes. -/
def publishes : Option (Str × FitParams D) :=
  match p.todo, p.stage with
  | imei :: _, .saved params => some (imei, params)
  | _, _ => none

/-- The meter for which the next step is `mark_published`. -/
def marks : Option Str :=
  match p.todo, p.stage with
  | imei :: _, .marking => some imei
  | _, _ => none

end Pass

/-- How `client.publish` ends: with `MQTT_ERR_SUCCESS`, with another code, or by raising. -/
inductive Outcome
  | accepted
  | refused
  | raised
deriving DecidableEq

structure World (D : Type) where
  db : Db D
  /-- The retained message of each topic. -/
  retained : Str → Option Str
  /-- The messages that were accepted, new ones first. -/
  accepted : List (Str × Str)
  passes : List (Pass D)

inductive Action
  /-- A message for the worker. -/
  | message (m : Moment) (topic text : Str)
  /-- A pass begins. -/
  | start (kind : PassKind) (window : Window)
  /-- A pass takes its next step, at a time of the server. -/
  | advance (i : Nat) (now : Nat) (outcome : Outcome)
  /-- A pass stops. -/
  | stop (i : Nat)

namespace World

/-- Tables of which no fingerprint was published yet, with no pass running. -/
def init (db : Db D) : World D where
  db := db
  retained := fun _ => none
  accepted := []
  passes := []

def setPass (w : World D) (i : Nat) (p : Pass D) : World D := { w with passes := w.passes.set i p }

/-- The broker accepts a message and retains it. -/
def accept (w : World D) (topic body : Str) : World D :=
  { w with
    retained := fun t => if t = topic then some body else w.retained t
    accepted := (topic, body) :: w.accepted }

/-- paho raises where the topic holds a wildcard. -/
def publishOutcome (topic : Str) (outcome : Outcome) : Outcome :=
  if '+' ∈ topic ∨ '#' ∈ topic then .raised else outcome

/-- The next step of the pass `p`, which has the index `i`. -/
def advance (w : World D) (i now : Nat) (outcome : Outcome) (p : Pass D) : World D :=
  match p.todo with
  | [] => w
  | imei :: _ =>
    match p.stage with
    | .reading =>
      match fitMeter p.window imei w.db with
      -- too few samples, or `fit` raises: the meter is skipped
      | none => w.setPass i p.next
      | some params => w.setPass i (p.reach (.fitted params))
    | .fitted params =>
      match saveFingerprint now imei params w.db with
      | (some _, db) => { w with db := db }.setPass i (p.reach (.saved params))
      -- the exception ends the pass; the meters after this one wait for the next
      | (none, db) => { w with db := db }.setPass i p.ended
    | .saved params =>
      match publishOutcome (fpTopic imei) outcome with
      | .accepted => (w.accept (fpTopic imei) (toMqttJson params)).setPass i (p.reach .marking)
      | .refused =>
        match p.kind with
        -- the worker logs an error; `fit_once` does not look at the result
        | .worker => w.setPass i p.next
        | .fitOnce => w.setPass i (p.reach .marking)
      -- the row is stored, and the pass ends before it is marked
      | .raised => w.setPass i p.ended
    | .marking => { w with db := markPublished imei w.db }.setPass i p.next

variable [Server D]

def step (w : World D) : Action → World D
  | .message m topic text => { w with db := (onMessage m topic text w.db).2 }
  | .start kind window =>
    { w with passes := w.passes ++ [⟨kind, window, meterIds w.db, .reading⟩] }
  | .advance i now outcome =>
    match w.passes[i]? with
    | none => w
    | some p => w.advance i now outcome p
  | .stop i =>
    match w.passes[i]? with
    | none => w
    | some p => w.setPass i p.ended

end World

/-! ### What a step of a pass does -/

namespace World

/-- What the next step of a pass can do. -/
inductive Advanced (w : World D) (i now : Nat) (outcome : Outcome) : Pass D → World D → Prop
  /-- The pass is over. -/
  | idle {kind : PassKind} {window : Window} {stage : Stage D} :
      Advanced w i now outcome ⟨kind, window, [], stage⟩ w
  /-- The meter has too few samples, or `fit` raises. -/
  | skipped {kind : PassKind} {window : Window} {imei : Str} {rest : List Str}
      (hfit : fitMeter window imei w.db = none) :
      Advanced w i now outcome ⟨kind, window, imei :: rest, .reading⟩
        (w.setPass i ⟨kind, window, rest, .reading⟩)
  | fitted {kind : PassKind} {window : Window} {imei : Str} {rest : List Str} {params : FitParams D}
      (hfit : fitMeter window imei w.db = some params) :
      Advanced w i now outcome ⟨kind, window, imei :: rest, .reading⟩
        (w.setPass i ⟨kind, window, imei :: rest, .fitted params⟩)
  /-- A row is new. -/
  | saved {kind : PassKind} {window : Window} {imei : Str} {rest : List Str} {params : FitParams D}
      {row : Meter} (hrow : w.db.meters.lookup imei = some row) :
      Advanced w i now outcome ⟨kind, window, imei :: rest, .fitted params⟩
        ({ w with
          db := { w.db with
            fingerprints := savedRow now imei params w.db :: w.db.fingerprints
            meters := w.db.meters.insert imei
              { row with fpValid := true, lastSeen := now } } }.setPass
          i ⟨kind, window, imei :: rest, .saved params⟩)
  /-- `save_fingerprint` raises, and the pass ends. -/
  | unsaved {kind : PassKind} {window : Window} {imei : Str} {rest : List Str}
      {params : FitParams D}
      (hrow : w.db.meters.lookup imei = none) :
      Advanced w i now outcome ⟨kind, window, imei :: rest, .fitted params⟩
        (w.setPass i ⟨kind, window, [], .reading⟩)
  | accepted {kind : PassKind} {window : Window} {imei : Str} {rest : List Str}
      {params : FitParams D} (hpublish : publishOutcome (fpTopic imei) outcome = .accepted) :
      Advanced w i now outcome ⟨kind, window, imei :: rest, .saved params⟩
        ((w.accept (fpTopic imei) (toMqttJson params)).setPass i
          ⟨kind, window, imei :: rest, .marking⟩)
  /-- The worker goes on to the next meter. -/
  | refused {window : Window} {imei : Str} {rest : List Str} {params : FitParams D}
      (hpublish : publishOutcome (fpTopic imei) outcome = .refused) :
      Advanced w i now outcome ⟨.worker, window, imei :: rest, .saved params⟩
        (w.setPass i ⟨.worker, window, rest, .reading⟩)
  /-- `fit_once` marks a row all the same. -/
  | ignored {window : Window} {imei : Str} {rest : List Str} {params : FitParams D}
      (hpublish : publishOutcome (fpTopic imei) outcome = .refused) :
      Advanced w i now outcome ⟨.fitOnce, window, imei :: rest, .saved params⟩
        (w.setPass i ⟨.fitOnce, window, imei :: rest, .marking⟩)
  | raised {kind : PassKind} {window : Window} {imei : Str} {rest : List Str} {params : FitParams D}
      (hpublish : publishOutcome (fpTopic imei) outcome = .raised) :
      Advanced w i now outcome ⟨kind, window, imei :: rest, .saved params⟩
        (w.setPass i ⟨kind, window, [], .reading⟩)
  | marked {kind : PassKind} {window : Window} {imei : Str} {rest : List Str} :
      Advanced w i now outcome ⟨kind, window, imei :: rest, .marking⟩
        ({ w with db := markPublished imei w.db }.setPass i ⟨kind, window, rest, .reading⟩)

theorem advance_cases (w : World D) (i now : Nat) (outcome : Outcome) (p : Pass D) :
    Advanced w i now outcome p (w.advance i now outcome p) := by
  obtain ⟨kind, window, _ | ⟨imei, rest⟩, stage⟩ := p
  · exact .idle
  cases stage with
  | reading =>
    cases hfit : fitMeter window imei w.db with
    | none =>
      simp only [advance, hfit]
      exact .skipped hfit
    | some params =>
      simp only [advance, hfit]
      exact .fitted hfit
  | fitted params =>
    cases hrow : w.db.meters.lookup imei with
    | none =>
      simp only [advance, saveFingerprint_none now params hrow]
      exact .unsaved hrow
    | some row =>
      simp only [advance, saveFingerprint_eq now params hrow]
      exact .saved hrow
  | saved params =>
    cases hpublish : publishOutcome (fpTopic imei) outcome with
    | accepted =>
      simp only [advance, hpublish]
      exact .accepted hpublish
    | refused =>
      cases kind with
      | worker =>
        simp only [advance, hpublish]
        exact .refused hpublish
      | fitOnce =>
        simp only [advance, hpublish]
        exact .ignored hpublish
    | raised =>
      simp only [advance, hpublish]
      exact .raised hpublish
  | marking => exact .marked

end World

/-- What a message does not change: a rule for facts that survive any row of `meters`, any
    heartbeat, and the readings that messages store. -/
theorem onMessage_keeps [Server D] {I : Db D → Prop} {m : Moment} {topic text : Str}
    (hmeters : ∀ db meters, I db → I { db with meters := meters })
    (hheartbeat : ∀ db row, I db → I { db with heartbeats := row :: db.heartbeats })
    (hreading : ∀ db row, I db → I { db with readings := row :: db.readings }) :
    Cut.Keeps I I (onMessage m topic text : Py D Unit) := by
  have hupsert : ∀ now imei info, Cut.Keeps I I (upsertMeter now imei info : Py D Unit) := by
    intro now imei info db hdb
    rcases upsertMeter_cases now imei info db with ⟨ex, -, heq⟩ | heq
    · simp only [Cut.wp, heq]
      exact hmeters db _ hdb
    · simp only [Cut.wp, heq]
      exact hdb
  have hrow : ∀ {α : Type} (row : Option α), Cut.Keeps I I (Cut.ofOption row : Py D α) := by
    intro α row
    cases row with
    | none => exact Cut.Keeps.halt fun _ h => h
    | some r => exact Cut.Keeps.pure r
  unfold onMessage
  split
  · unfold handlePayload
    refine Cut.Keeps.ite (Cut.Keeps.pure _) (Cut.Keeps.ite (hupsert _ _ _) (Cut.Keeps.ite ?_ ?_))
    · refine Cut.Keeps.bind (hupsert _ _ _) fun _ => Cut.Keeps.bind (hrow _) fun row => ?_
      exact Cut.Keeps.update fun db hdb => hheartbeat db row hdb
    refine Cut.Keeps.ite ?_ (Cut.Keeps.pure _)
    refine Cut.Keeps.bind (Cut.Keeps.read _) fun _ => Cut.Keeps.bind (hrow _) fun _ => ?_
    refine Cut.Keeps.bind (hupsert _ _ _) fun _ => Cut.Keeps.bind (hrow _) fun row => ?_
    exact Cut.Keeps.update fun db hdb => hreading db row hdb
  · exact Cut.Keeps.pure _

theorem onMessage_fingerprints [Server D] (m : Moment) (topic text : Str) (db : Db D) :
    (onMessage m topic text db).2.fingerprints = db.fingerprints :=
  Cut.wp_snd (onMessage_keeps (I := fun db' => db'.fingerprints = db.fingerprints)
    (fun _ _ h => h) (fun _ _ h => h) (fun _ _ h => h) db rfl)

/-! ### A meter with steady flow -/

/-- Noon of the first day of 2026. -/
def newYear : DateTime := noon.wall

theorem hour_lt (h : Fin 24) : (h : Nat) < 24 := h.isLt

/-- A full hour of that day. -/
def hourly (h : Fin 24) : ZonedTime where
  time := ⟨2026, 1, 1, h, 0, 0, newYear.year_range, newYear.month_range,
    newYear.day_range, hour_lt h, newYear.minute_range, newYear.second_range⟩
  microsecond := 0
  zone := Config.timezone

/-- A reading of the meter `1`, of one litre per minute. -/
def steadyReading (h : Fin 24) : Reading Exact where
  imei := "1".toList
  ts := hourly h
  ingestedAt := 0
  lm := some (.finite 1)
  mls := none
  tlMl := none
  valve := none
  wm := none
  wmCloud := none
  lk := 0
  oc := 0
  raw := []

/-- The tables after a day of such readings. -/
def steady : Db Exact where
  meters := AList.insert "1".toList ⟨0, 0, none, none, false⟩ ∅
  readings := (List.finRange 24).map steadyReading
  heartbeats := []
  fingerprints := []

/-- All readings, in the order in which they came. -/
def always : Window where
  recent _ := true
  before _ _ := true

/-- A pass takes all its steps for one meter, its message ending with `outcome`. -/
def onePass (kind : PassKind) (outcome : Outcome) : List Action :=
  [.start kind always, .advance 0 1 outcome, .advance 0 1 outcome, .advance 0 1 outcome,
    .advance 0 1 outcome]

end Cloud

end Waterbox
