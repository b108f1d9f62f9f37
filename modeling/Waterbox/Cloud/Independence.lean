import Waterbox.Cloud.Marks
import Waterbox.Cloud.Retained
import Waterbox.Portal.Accounts

namespace Waterbox

namespace Cloud

/-!
# One pass for all meters

`_fit_all` serves the meters one after the other, and only `fit` is guarded: another exception ends
the pass, and the meters behind wait.

* `fitOne`, `fitAll` — a pass as one computation; `fitAll_steps` — it is a run of its steps.
* `Blocks` — a meter whose turn ends the pass.
* `fitOne_cases` — what the turn of a meter does.
* `Served` — a meter is fitted, saved, published and marked.
* `Produced` — the contents that messages, registrations and passes can leave.
* `served_iff` — a meter is served if and only if no meter up to it ends the pass.
-/

variable {D : Type} [Python D]

/-! ### The pass -/

/-- A statement on the tables. -/
def onDb {α : Type} (m : Py D α) : Cut (World D) α := fun w =>
  let (r, db) := m w.db
  (r, { w with db := db })

/-- `client.publish(topic, body, qos=0, retain=True)`, with the broker available. -/
def publish (topic body : Str) : Cut (World D) Unit :=
  if World.publishOutcome topic .accepted = .raised then Cut.halt
  else Cut.update fun w => w.accept topic body

/-- The end of the loop's body, after `fit` has returned. -/
def saveAndPublish (now : Nat) (imei : Str) (params : FitParams D) : Cut (World D) Unit := do
  onDb (saveFingerprint now imei params)
  publish (fpTopic imei) (toMqttJson params)
  onDb (Cut.update (markPublished imei))

section Pass

variable (loads : ZonedTime → Bool) (window : Window) (now : Str → Nat)

/-- The body of the loop in `_fit_all(tz)`.  Whether psycopg `loads` a time that is stored depends
    on the time: `datetime` ends with the year 9999. -/
def fitOne (imei : Str) : Cut (World D) Unit := do
  let rows ← Cut.read fun w => samplesForFit window imei w.db
  if rows.all fun row => loads row.1 then
    let fitted ← Cut.read fun w => fitMeter window imei w.db
    match fitted with
    -- too few samples, or a `ValueError` of `fit`: `continue`
    | none => pure ()
    | some params => saveAndPublish (now imei) imei params
  else Cut.halt

/-- `_fit_all(tz)`; `now` is the server's time at the turn of each meter. -/
def fitAll : Cut (World D) Unit := do
  let imeis ← Cut.read fun w => meterIds w.db
  Cut.each (fitOne loads window now) imeis

/-! ### Meters that end a pass -/

/-- The IMEI makes its topic one to which paho does not publish. -/
def Wildcard (imei : Str) : Prop := '+' ∈ imei ∨ '#' ∈ imei

instance (imei : Str) : Decidable (Wildcard imei) := inferInstanceAs (Decidable (_ ∨ _))

/-- A meter ends the pass: one of its samples cannot be loaded, or it is fitted and has a topic to
    which paho does not publish. -/
def Blocks (db : Db D) (imei : Str) : Prop :=
  (∃ row ∈ samplesForFit window imei db, loads row.1 = false) ∨
    (fitMeter window imei db).isSome ∧ Wildcard imei

instance (db : Db D) (imei : Str) : Decidable (Blocks loads window db imei) :=
  inferInstanceAs (Decidable ((∃ row ∈ samplesForFit window imei db, _) ∨ _))

end Pass

theorem raised_iff (imei : Str) :
    World.publishOutcome (fpTopic imei) .accepted = .raised ↔ Wildcard imei := by
  have hroot : '+' ∉ Config.topicRoot ∧ '#' ∉ Config.topicRoot := by decide +kernel
  have hend : '+' ∉ "/fp".toList ∧ '#' ∉ "/fp".toList := by decide +kernel
  have hmem (c : Char) (hc : c ≠ '/') (hcroot : c ∉ Config.topicRoot) (hcend : c ∉ "/fp".toList) :
      c ∈ fpTopic imei ↔ c ∈ imei := by
    rw [fpTopic, List.append_assoc, List.mem_append, List.cons_append, List.mem_cons,
      List.mem_append]
    constructor
    · rintro (h | h | h | h)
      · exact absurd h hcroot
      · exact absurd h hc
      · exact h
      · exact absurd h hcend
    · exact fun h => .inr (.inr (.inl h))
  rw [World.publishOutcome, Wildcard, ← hmem '+' (by decide) hroot.1 hend.1,
    ← hmem '#' (by decide) hroot.2 hend.2]
  by_cases h : '+' ∈ fpTopic imei ∨ '#' ∈ fpTopic imei
  · rw [if_pos h]
    exact iff_of_true rfl h
  · rw [if_neg h]
    exact iff_of_false (nofun) h

omit [Python D] in
theorem mem_meterIds {db : Db D} {imei : Str} :
    imei ∈ meterIds db ↔ (db.meters.lookup imei).isSome := by
  rw [meterIds, (List.perm_insertionSort _ _).mem_iff, AList.lookup_isSome, AList.mem_keys]

omit [Python D] in
/-- The samples of a meter are in its own readings. -/
theorem samplesForFit_eq (window : Window) (imei : Str) (db : Db D) :
    samplesForFit window imei db =
      (((db.readings.filter (·.imei = imei)).reverse.filter fun r => window.recent r.ts).filterMap
        fun r => r.lm.map fun lm => (r.ts, lm)).insertionSort fun a b => window.before a.1 b.1 := by
  rw [samplesForFit, ← List.filter_reverse, List.filter_filter]
  simp only [Bool.and_comm]

theorem fitMeter_congr {window : Window} {imei : Str} {db db' : Db D}
    (h : db'.readings.filter (·.imei = imei) = db.readings.filter (·.imei = imei)) :
    fitMeter window imei db' = fitMeter window imei db := by
  rw [fitMeter, fitMeter, samplesForFit_eq, samplesForFit_eq, h]

/-! ### What the turn of a meter leaves -/

/-- The pass can save a row for each of its meters, and the row will be the newest. -/
structure Ready (now : Str → Nat) (w₀ w : World D) : Prop where
  readings : w.db.readings = w₀.db.readings
  meters : ∀ imei ∈ meterIds w₀.db, (w.db.meters.lookup imei).isSome
  numbered : Numbered w.db
  past : ∀ fp ∈ w.db.fingerprints, fp.createdAt ≤ now fp.imei

namespace World

/-- The row of a meter is saved. -/
def saved (w : World D) (now : Nat) (imei : Str) (params : FitParams D) : World D :=
  { w with db := (saveFingerprint now imei params w.db).2 }

/-- The row is saved, published and marked. -/
def served (w : World D) (now : Nat) (imei : Str) (params : FitParams D) : World D :=
  let w := (w.saved now imei params).accept (fpTopic imei) (toMqttJson params)
  { w with db := markPublished imei w.db }

end World

omit [Python D] in
theorem foldl_newer_of_le {a : Fingerprint D} {fps : List (Fingerprint D)}
    (h : ∀ fp ∈ fps, fp.createdAt ≤ a.createdAt) : fps.foldl newer (some a) = some a := by
  induction fps with
  | nil => rfl
  | cons fp fps ih =>
    have hfirst : newer (some a) fp = some a := if_neg (h fp List.mem_cons_self).not_gt
    rw [List.foldl_cons, hfirst]
    exact ih fun b hb => h b (List.mem_cons_of_mem fp hb)

omit [Python D] in
/-- `mark_published` marks the row that has just been saved, and no other. -/
theorem markPublished_saved {db db' : Db D} {now : Nat} {imei : Str} {params : FitParams D}
    (hids : Numbered db) (hpast : ∀ fp ∈ db.fingerprints, fp.imei = imei → fp.createdAt ≤ now)
    (hdb : db'.fingerprints = savedRow now imei params db :: db.fingerprints) :
    markPublished imei db' = { db' with
      fingerprints :=
        { savedRow now imei params db with published := true } :: db.fingerprints } := by
  have hnewest : latestFingerprint imei db' = some (savedRow now imei params db) := by
    have hfilter : db'.fingerprints.filter (fun fp => fp.imei = imei) =
        savedRow now imei params db :: db.fingerprints.filter fun fp => fp.imei = imei := by
      rw [hdb]
      exact List.filter_cons_of_pos (decide_eq_true rfl)
    rw [latestFingerprint, hfilter, List.foldl_cons]
    refine foldl_newer_of_le fun fp hfp => ?_
    obtain ⟨hmem, himei⟩ := List.mem_filter.1 hfp
    exact hpast fp hmem (of_decide_eq_true himei)
  have hrows : db'.fingerprints.map (·.markIf (savedRow now imei params db).id) =
      { savedRow now imei params db with published := true } :: db.fingerprints := by
    rw [hdb, List.map_cons, Fingerprint.markIf, if_pos rfl]
    congr 1
    refine (List.map_congr_left fun fp hfp => ?_).trans (List.map_id _)
    -- the ids of the other rows are smaller
    exact if_neg (hids.lt fp hfp).ne
  simp only [markPublished, hnewest, hrows]

section Turn

variable {loads : ZonedTime → Bool} {window : Window} {now : Str → Nat} {w₀ w : World D}
  {imei : Str}
  {params : FitParams D}

/-- The row is saved; then paho raises, or the row is published and marked. -/
theorem saveAndPublish_eq {time : Nat} (hmeter : (w.db.meters.lookup imei).isSome) :
    saveAndPublish time imei params w =
      if Wildcard imei then (none, w.saved time imei params)
      else (some (), w.served time imei params) := by
  obtain ⟨row, hrow⟩ := Option.isSome_iff_exists.1 hmeter
  have hsave : onDb (saveFingerprint time imei params) w = (some (), w.saved time imei params) := by
    simp only [onDb, World.saved, saveFingerprint_eq time params hrow]
  rw [saveAndPublish, Cut.bind_of_finished hsave, publish]
  by_cases hwildcard : Wildcard imei
  · rw [if_pos hwildcard, if_pos ((raised_iff imei).2 hwildcard)]
    exact Cut.bind_of_cut rfl
  · rw [if_neg hwildcard, if_neg (mt (raised_iff imei).1 hwildcard)]
    rfl

theorem fitOne_eq (w : World D) : fitOne loads window now imei w =
    if ∃ row ∈ samplesForFit window imei w.db, loads row.1 = false then (none, w)
    else match fitMeter window imei w.db with
      | none => (some (), w)
      | some params => saveAndPublish (now imei) imei params w := by
  have hread {α : Type} (f : World D → α) : Cut.read f w = (some (f w), w) := rfl
  rw [fitOne, Cut.bind_of_finished (hread _)]
  by_cases hunread : ∃ row ∈ samplesForFit window imei w.db, loads row.1 = false
  · have hall : ¬ ((samplesForFit window imei w.db).all fun row => loads row.1) = true := by
      obtain ⟨row, hrow, hfalse⟩ := hunread
      intro hall
      rw [List.all_eq_true.1 hall row hrow] at hfalse
      cases hfalse
    rw [if_pos hunread, if_neg hall]
    rfl
  · have hall : ((samplesForFit window imei w.db).all fun row => loads row.1) = true := by
      refine List.all_eq_true.2 fun row hrow => ?_
      by_contra hfalse
      exact hunread ⟨row, hrow, Bool.eq_false_iff.2 hfalse⟩
    rw [if_neg hunread, if_pos hall, Cut.bind_of_finished (hread _)]
    cases fitMeter window imei w.db <;> rfl

/-- The turn of a meter: it ends the pass before anything is done, it is skipped, or its row is
    saved; then the pass ends, or the row is published and marked. -/
theorem fitOne_cases (loads : ZonedTime → Bool) (window : Window) (h : Ready now w₀ w)
    (himei : imei ∈ meterIds w₀.db) :
    (Blocks loads window w₀.db imei ∧ fitOne loads window now imei w = (none, w)) ∨
    (¬ Blocks loads window w₀.db imei ∧ fitMeter window imei w₀.db = none ∧
      fitOne loads window now imei w = (some (), w)) ∨
    ∃ params, fitMeter window imei w₀.db = some params ∧
      ((Blocks loads window w₀.db imei ∧
        fitOne loads window now imei w = (none, w.saved (now imei) imei params)) ∨
      (¬ Blocks loads window w₀.db imei ∧
        fitOne loads window now imei w = (some (), w.served (now imei) imei params))) := by
  -- the pass has not changed the readings, so the meter is fitted as at its start
  have hsamples : samplesForFit window imei w.db = samplesForFit window imei w₀.db := by
    rw [samplesForFit, samplesForFit, h.readings]
  have hfitted : fitMeter window imei w.db = fitMeter window imei w₀.db :=
    fitMeter_congr (by rw [h.readings])
  rw [fitOne_eq, hsamples, hfitted]
  by_cases hunread : ∃ row ∈ samplesForFit window imei w₀.db, loads row.1 = false
  · rw [if_pos hunread]
    exact .inl ⟨.inl hunread, rfl⟩
  rw [if_neg hunread]
  right
  cases hfit : fitMeter window imei w₀.db with
  | none =>
    refine .inl ⟨?_, rfl, rfl⟩
    rintro (hyes | ⟨hsome, -⟩)
    · exact hunread hyes
    · rw [hfit] at hsome
      cases hsome
  | some params =>
    refine .inr ⟨params, rfl, ?_⟩
    simp only [saveAndPublish_eq (h.meters imei himei)]
    by_cases hwildcard : Wildcard imei
    · rw [if_pos hwildcard]
      exact .inl ⟨.inr ⟨Option.isSome_of_eq_some hfit, hwildcard⟩, rfl⟩
    · rw [if_neg hwildcard]
      refine .inr ⟨?_, rfl⟩
      rintro (hyes | ⟨-, hyes⟩)
      · exact hunread hyes
      · exact hwildcard hyes

omit [Python D] in
/-- What is saved. -/
theorem saved_db {time : Nat} {row : Meter} (hrow : w.db.meters.lookup imei = some row) :
    (w.saved time imei params).db = { w.db with
      fingerprints := savedRow time imei params w.db :: w.db.fingerprints
      meters := w.db.meters.insert imei { row with fpValid := true, lastSeen := time } } :=
  congrArg Prod.snd (saveFingerprint_eq time params hrow)

/-- What is saved and then marked. -/
theorem served_db (h : Ready now w₀ w) {row : Meter} (hrow : w.db.meters.lookup imei = some row) :
    (w.served (now imei) imei params).db = { w.db with
      fingerprints :=
        { savedRow (now imei) imei params w.db with published := true } :: w.db.fingerprints
      meters := w.db.meters.insert imei { row with fpValid := true, lastSeen := now imei } } := by
  show markPublished imei (w.saved (now imei) imei params).db = _
  rw [markPublished_saved h.numbered (fun fp hfp himei => himei ▸ h.past fp hfp)
    (by rw [saved_db hrow]), saved_db hrow]

omit [Python D] in
/-- A row more leaves the pass ready. -/
theorem Ready.push (h : Ready now w₀ w) {w' : World D} {fp : Fingerprint D} {row : Meter}
    (hid : fp.id = w.db.fingerprints.length) (hcreated : fp.createdAt ≤ now fp.imei)
    (hdb : w'.db = { w.db with
      fingerprints := fp :: w.db.fingerprints
      meters := w.db.meters.insert imei row }) : Ready now w₀ w' where
  readings := by
    rw [hdb]
    exact h.readings
  meters other hother := by
    rw [hdb]
    by_cases heq : other = imei
    · rw [heq, AList.lookup_insert]
      rfl
    · rw [AList.lookup_insert_ne heq]
      exact h.meters other hother
  numbered := h.numbered.push hid (by rw [hdb])
  past := by
    rw [hdb]
    intro old hold
    rcases List.mem_cons.1 hold with rfl | hold
    · exact hcreated
    · exact h.past old hold

/-! ### What belongs to a meter -/

/-- The rows of a meter. -/
def rowsOf (imei : Str) (w : World D) : List (Fingerprint D) :=
  w.db.fingerprints.filter (·.imei = imei)

/-- The bodies that were accepted on its topic. -/
def sent (imei : Str) (w : World D) : List Str :=
  (w.accepted.filter (·.1 = fpTopic imei)).map Prod.snd

/-- Nothing that belongs to the meter has changed. -/
structure Same (imei : Str) (w w' : World D) : Prop where
  rows : rowsOf imei w' = rowsOf imei w
  sent : sent imei w' = sent imei w
  retained : w'.retained (fpTopic imei) = w.retained (fpTopic imei)

/-- A row of the meter is new and marked as published, and its body was accepted and is retained. -/
structure Served (imei : Str) (params : FitParams D) (w w' : World D) : Prop where
  saved : ∃ fp, rowsOf imei w' = fp :: rowsOf imei w ∧ fp.toFitParams = params ∧ fp.published = true
  sent : sent imei w' = toMqttJson params :: sent imei w
  retained : w'.retained (fpTopic imei) = some (toMqttJson params)

omit [Python D] in
theorem Same.refl (imei : Str) (w : World D) : Same imei w w := ⟨rfl, rfl, rfl⟩

omit [Python D] in
theorem Same.trans {w' w'' : World D} (h : Same imei w w') (h' : Same imei w' w'') :
    Same imei w w'' :=
  ⟨h'.rows.trans h.rows, h'.sent.trans h.sent, h'.retained.trans h.retained⟩

omit [Python D] in
theorem Same.symm {w' : World D} (h : Same imei w w') : Same imei w' w :=
  ⟨h.rows.symm, h.sent.symm, h.retained.symm⟩

theorem Served.of_same {w₁ w₂ w₃ : World D} (h : Served imei params w₁ w₂)
    (hbefore : Same imei w w₁)
    (hafter : Same imei w₂ w₃) : Served imei params w w₃ where
  saved := by
    obtain ⟨fp, hrows, hfp⟩ := h.saved
    exact ⟨fp, by rw [hafter.rows, hrows, hbefore.rows], hfp⟩
  sent := by rw [hafter.sent, h.sent, hbefore.sent]
  retained := hafter.retained.trans h.retained

/-- What happens before and after may be left out, where nothing of the meter changes. -/
theorem served_congr {w₁ w₂ w₃ : World D} (hbefore : Same imei w w₁) (hafter : Same imei w₂ w₃) :
    Served imei params w w₃ ↔ Served imei params w₁ w₂ :=
  ⟨fun h => h.of_same hbefore.symm hafter.symm, fun h => h.of_same hbefore hafter⟩

/-- Without a new row the meter is not served. -/
theorem Same.not_served {w' : World D} (h : Same imei w w') : ¬ Served imei params w w' := by
  rintro ⟨⟨fp, hrows, -⟩, -, -⟩
  rw [h.rows] at hrows
  exact absurd (congrArg List.length hrows) (Nat.ne_of_lt (Nat.lt_succ_self _))

omit [Python D] in
theorem rowsOf_push_own {w' : World D} {fp : Fingerprint D} (himei : fp.imei = imei)
    (h : w'.db.fingerprints = fp :: w.db.fingerprints) :
    rowsOf imei w' = fp :: rowsOf imei w := by
  rw [rowsOf, h]
  exact List.filter_cons_of_pos (decide_eq_true himei)

omit [Python D] in
theorem rowsOf_push_other {w' : World D} {fp : Fingerprint D} (himei : fp.imei ≠ imei)
    (h : w'.db.fingerprints = fp :: w.db.fingerprints) : rowsOf imei w' = rowsOf imei w := by
  rw [rowsOf, h]
  refine List.filter_cons_of_neg ?_
  rw [decide_eq_true_iff]
  exact himei

/-- After each turn the pass is ready for the next. -/
theorem fitOne_ready (h : Ready now w₀ w) (himei : imei ∈ meterIds w₀.db) :
    Ready now w₀ (fitOne loads window now imei w).2 := by
  obtain ⟨row, hrow⟩ := Option.isSome_iff_exists.1 (h.meters imei himei)
  rcases fitOne_cases loads window h himei with
    ⟨-, heq⟩ | ⟨-, -, heq⟩ | ⟨params, -, ⟨-, heq⟩ | ⟨-, heq⟩⟩
  · rw [heq]
    exact h
  · rw [heq]
    exact h
  · rw [heq]
    exact h.push rfl le_rfl (saved_db hrow)
  · rw [heq]
    exact h.push rfl le_rfl (served_db h hrow)

/-- The turn of a meter changes nothing of another one. -/
theorem fitOne_same (h : Ready now w₀ w) (himei : imei ∈ meterIds w₀.db) {other : Str}
    (hne : imei ≠ other) : Same other w (fitOne loads window now imei w).2 := by
  obtain ⟨row, hrow⟩ := Option.isSome_iff_exists.1 (h.meters imei himei)
  rcases fitOne_cases loads window h himei with
    ⟨-, heq⟩ | ⟨-, -, heq⟩ | ⟨params, -, ⟨-, heq⟩ | ⟨-, heq⟩⟩
  · rw [heq]
    exact Same.refl other w
  · rw [heq]
    exact Same.refl other w
  · rw [heq]
    exact ⟨rowsOf_push_other hne (congrArg Db.fingerprints (saved_db hrow)), rfl, rfl⟩
  · have htopic : fpTopic imei ≠ fpTopic other := fun heq => hne (fpTopic_inj heq)
    rw [heq]
    refine ⟨rowsOf_push_other hne (congrArg Db.fingerprints (served_db h hrow)), ?_,
      if_neg htopic.symm⟩
    refine congrArg (List.map Prod.snd) (List.filter_cons_of_neg ?_)
    rw [decide_eq_true_iff]
    exact htopic

/-- So the turns of others change nothing of a meter. -/
theorem fitOne_keeps {w₁ : World D} (himei : imei ∈ meterIds w₀.db) {other : Str}
    (hne : imei ≠ other) : Cut.Keeps (fun w => Ready now w₀ w ∧ Same other w₁ w)
      (fun w => Ready now w₀ w ∧ Same other w₁ w) (fitOne loads window now imei) := by
  rintro w ⟨h, hsame⟩
  have hafter : Ready now w₀ (fitOne loads window now imei w).2 ∧
      Same other w₁ (fitOne loads window now imei w).2 :=
    ⟨fitOne_ready h himei, hsame.trans (fitOne_same h himei hne)⟩
  exact Cut.wp_intro (fun _ _ => hafter) fun _ => hafter

/-- The turn of a meter ends the pass if and only if the meter blocks. -/
theorem fitOne_none_iff (h : Ready now w₀ w) (himei : imei ∈ meterIds w₀.db) :
    (fitOne loads window now imei w).1 = none ↔ Blocks loads window w₀.db imei := by
  rcases fitOne_cases loads window h himei with
    ⟨hblocks, heq⟩ | ⟨hnot, -, heq⟩ | ⟨params, -, ⟨hblocks, heq⟩ | ⟨hnot, heq⟩⟩
  · exact iff_of_true (congrArg Prod.fst heq) hblocks
  · rw [heq]
    exact iff_of_false (nofun) hnot
  · exact iff_of_true (congrArg Prod.fst heq) hblocks
  · rw [heq]
    exact iff_of_false (nofun) hnot

/-- In its turn a meter is served if and only if it does not block. -/
theorem fitOne_served_iff (h : Ready now w₀ w) (himei : imei ∈ meterIds w₀.db)
    (hfit : fitMeter window imei w₀.db = some params) :
    Served imei params w (fitOne loads window now imei w).2 ↔ ¬ Blocks loads window w₀.db imei := by
  obtain ⟨row, hrow⟩ := Option.isSome_iff_exists.1 (h.meters imei himei)
  rcases fitOne_cases loads window h himei with
    ⟨hblocks, heq⟩ | ⟨-, hnone, -⟩ | ⟨params', hfit', hrun⟩
  · rw [heq]
    exact iff_of_false (Same.refl imei w).not_served (not_not.2 hblocks)
  · rw [hfit] at hnone
    cases hnone
  · rw [hfit] at hfit'
    cases hfit'
    rcases hrun with ⟨hblocks, heq⟩ | ⟨hnot, heq⟩
    · -- the row is there, but it is not marked
      rw [heq]
      refine iff_of_false ?_ (not_not.2 hblocks)
      rintro ⟨⟨fp, hrows, -, hpublished⟩, -, -⟩
      have hnew : rowsOf imei (w.saved (now imei) imei params) =
          savedRow (now imei) imei params w.db :: rowsOf imei w :=
        rowsOf_push_own rfl (congrArg Db.fingerprints (saved_db hrow))
      have hfp := (List.cons.inj (hnew.symm.trans hrows)).1
      rw [← hfp] at hpublished
      cases hpublished
    · rw [heq]
      refine iff_of_true ⟨?_, ?_, if_pos rfl⟩ hnot
      · exact ⟨_, rowsOf_push_own rfl (congrArg Db.fingerprints (served_db h hrow)), rfl, rfl⟩
      · exact congrArg (List.map Prod.snd) (List.filter_cons_of_pos (decide_eq_true rfl))

/-! ### Several turns -/

/-- The turns of other meters change nothing of a meter. -/
theorem each_same (loads : ZonedTime → Bool) (window : Window) {imeis : List Str}
    (h : Ready now w₀ w) (himeis : ∀ other ∈ imeis, other ∈ meterIds w₀.db ∧ other ≠ imei) :
    Ready now w₀ (Cut.each (fitOne loads window now) imeis w).2 ∧
      Same imei w (Cut.each (fitOne loads window now) imeis w).2 := by
  have hkeeps : Cut.Keeps (fun w' => Ready now w₀ w' ∧ Same imei w w')
      (fun w' => Ready now w₀ w' ∧ Same imei w w') (Cut.each (fitOne loads window now) imeis) :=
    Cut.Keeps.each fun other hother => fitOne_keeps (himeis other hother).1 (himeis other hother).2
  exact Cut.wp_snd (hkeeps w ⟨h, Same.refl imei w⟩)

/-- The pass ends within them if and only if one of the meters blocks. -/
theorem each_none_iff (loads : ZonedTime → Bool) (window : Window) {imeis : List Str}
    (h : Ready now w₀ w) (himeis : ∀ other ∈ imeis, other ∈ meterIds w₀.db) :
    (Cut.each (fitOne loads window now) imeis w).1 = none ↔
      ∃ other ∈ imeis, Blocks loads window w₀.db other := by
  constructor
  · intro hnone
    -- without a meter that blocks, every turn leaves the pass ready for the next
    by_contra hfree
    have hfinish : Cut.Keeps (Ready now w₀) (fun _ => False)
        (Cut.each (fitOne loads window now) imeis) := by
      refine Cut.Keeps.each fun other hother w' hw' => ?_
      refine Cut.wp_intro (fun _ _ => fitOne_ready hw' (himeis other hother)) fun hcut => hfree ?_
      exact ⟨other, hother, (fitOne_none_iff hw' (himeis other hother)).1 hcut⟩
    have hend := hfinish w h
    rcases hrun : Cut.each (fitOne loads window now) imeis w with ⟨r, w'⟩
    rw [hrun] at hnone
    cases hnone
    rw [Cut.wp, hrun] at hend
    exact hend
  · rintro ⟨other, hother, hblocks⟩
    -- a meter that blocks ends the pass, if it has not ended before
    have hturn : ∀ other ∈ imeis, Cut.Keeps (Ready now w₀) (Ready now w₀)
        (fitOne loads window now other) := fun other hother w' hw' =>
      Cut.wp_intro (fun _ _ => fitOne_ready hw' (himeis other hother))
        fun _ => fitOne_ready hw' (himeis other hother)
    have hcut : Cut.Triple (Ready now w₀) (fitOne loads window now other) (fun _ _ => False)
        (Ready now w₀) := by
      intro w' hw'
      refine Cut.wp_intro (fun u hu => ?_) fun _ => fitOne_ready hw' (himeis other hother)
      rw [(fitOne_none_iff hw' (himeis other hother)).2 hblocks] at hu
      cases hu
    have hend := Cut.Triple.each_cut hother hturn hcut w h
    rcases hrun : Cut.each (fitOne loads window now) imeis w with ⟨r, w'⟩
    rw [Cut.wp, hrun] at hend
    cases r with
    | none => rfl
    | some _ => exact hend.elim

end Turn

/-! ### The pass -/

omit [Python D] in
/-- The meters come in the order of their IMEIs, each once. -/
theorem meterIds_sorted (db : Db D) : (meterIds db).Pairwise fun a b => a < b := by
  have hsorted : meterIds db = db.meters.keys.insertionSort (· ≤ ·) := by
    rw [meterIds]
    congr
    funext a b
    exact propext not_lt
  have hnodup : (meterIds db).Nodup :=
    (List.perm_insertionSort _ _).nodup_iff.2 db.meters.nodupKeys
  rw [hsorted] at hnodup ⊢
  exact (List.pairwise_insertionSort (· ≤ ·) _).imp₂
    (fun a b hle hne => lt_of_le_of_ne hle hne) hnodup

/-- From a state that is ready, a meter is served if and only if no meter up to it ends the pass. -/
theorem fitAll_served_iff {loads : ZonedTime → Bool} {window : Window} {now : Str → Nat}
    {w : World D} {imei : Str} {params : FitParams D} (h : Ready now w w)
    (himei : imei ∈ meterIds w.db) (hfit : fitMeter window imei w.db = some params) :
    Served imei params w (fitAll loads window now w).2 ↔
      ∀ other ∈ meterIds w.db, ¬ imei < other → ¬ Blocks loads window w.db other := by
  have hsorted := meterIds_sorted w.db
  obtain ⟨before, after, hids⟩ := List.append_of_mem himei
  have hmem : ∀ other ∈ before ++ imei :: after, other ∈ meterIds w.db :=
    fun other hother => by rwa [hids]
  rw [hids, List.pairwise_append, List.pairwise_cons] at hsorted
  obtain ⟨-, ⟨hafter, -⟩, hbefore⟩ := hsorted
  have hbefore : ∀ other ∈ before, other ∈ meterIds w.db ∧ other < imei := fun other hother =>
    ⟨hmem other (List.mem_append_left _ hother), hbefore other hother imei List.mem_cons_self⟩
  have hrun : fitAll loads window now w =
      (Cut.each (fitOne loads window now) before >>= fun _ =>
        fitOne loads window now imei >>= fun _ => Cut.each (fitOne loads window now) after) w := by
    show Cut.each (fitOne loads window now) (meterIds w.db) w = _
    rw [hids, Cut.each_append]
    rfl
  -- the meters before this one change nothing of it
  obtain ⟨hready, hsame⟩ := each_same loads window h
    fun other hother => ⟨(hbefore other hother).1, (hbefore other hother).2.ne⟩
  have hnone := each_none_iff loads window h
    fun other hother => (hbefore other hother).1
  rw [hrun]
  rcases hpre : Cut.each (fitOne loads window now) before w with ⟨_ | _, w₁⟩
  · rw [hpre] at hsame hnone
    obtain ⟨other, hother, hblocks⟩ := hnone.1 rfl
    rw [Cut.bind_of_cut hpre]
    refine iff_of_false hsame.not_served fun hall => ?_
    exact hall other (hbefore other hother).1 (hbefore other hother).2.not_gt hblocks
  · rw [hpre] at hready hsame hnone
    have hcondition : (∀ other ∈ meterIds w.db, ¬ imei < other → ¬ Blocks loads window w.db other) ↔
        ¬ Blocks loads window w.db imei := by
      constructor
      · exact fun hall => hall imei himei (lt_irrefl imei)
      · intro hown other hother hle
        rw [hids] at hother
        rcases List.mem_append.1 hother with hother | hother
        · exact fun hblocks => nomatch hnone.2 ⟨other, hother, hblocks⟩
        · rcases List.mem_cons.1 hother with rfl | hother
          · exact hown
          · exact absurd (hafter other hother) hle
    rw [Cut.bind_of_finished hpre, hcondition, ← fitOne_served_iff hready himei hfit]
    have hown : Ready now w (fitOne loads window now imei w₁).2 := fitOne_ready hready himei
    rcases hturn : fitOne loads window now imei w₁ with ⟨_ | _, w₂⟩
    · rw [Cut.bind_of_cut hturn]
      exact served_congr hsame (Same.refl imei w₂)
    · -- those behind change nothing of it either
      rw [Cut.bind_of_finished hturn]
      rw [hturn] at hown
      refine served_congr hsame
        (each_same loads window hown fun other hother => ⟨hmem other ?_, ?_⟩).2
      · exact List.mem_append_right _ (List.mem_cons_of_mem _ hother)
      · exact (hafter other hother).ne'

/-! ### The pass step by step -/

section Steps

variable {window : Window} {now : Str → Nat} {w : World D} {i : Nat}

namespace World

theorem step_setPass [Server D] (hi : i < w.passes.length) (p : Pass D) (now : Nat)
    (outcome : Outcome) :
    (w.setPass i p).step (.advance i now outcome) = (w.setPass i p).advance i now outcome p := by
  have hget : (w.setPass i p).passes[i]? = some p := List.getElem?_set_self hi
  simp only [step, hget]

end World

/-- A pass of the worker. -/
def workerPass (window : Window) (todo : List Str) (stage : Stage D) : Pass D :=
  ⟨.worker, window, todo, stage⟩

/-- The pass `i` takes a step, and if it publishes, its message is accepted. -/
def Advances [Server D] (now : Str → Nat) (i : Nat) (w w' : World D) : Prop :=
  ∃ imei, w.step (.advance i (now imei) .accepted) = w'

variable {imei : Str} {rest : List Str} {params : FitParams D}

theorem Advances.of_eq [Server D] (hi : i < w.passes.length) {p : Pass D} {time : Str → Nat}
    {w' : World D} (imei : Str) (h : (w.setPass i p).advance i (time imei) .accepted p = w') :
    Advances time i (w.setPass i p) w' :=
  ⟨imei, (World.step_setPass hi p _ _).trans h⟩

/-- The end of the loop's body is three steps, two if paho raises, and one if the row is refused. -/
theorem saveAndPublish_steps [Server D] (hi : i < w.passes.length) :
    Relation.ReflTransGen (Advances now i)
      (w.setPass i (workerPass window (imei :: rest) (.fitted params)))
      ((saveAndPublish (now imei) imei params w).2.setPass i (workerPass window
        (if (saveAndPublish (now imei) imei params w).1 = none then [] else rest) .reading)) := by
  rw [saveAndPublish]
  rcases hsave : saveFingerprint (now imei) imei params w.db with ⟨_ | _, db⟩
  · -- the row is refused, and the pass ends
    have hrun : onDb (saveFingerprint (now imei) imei params) w = (none, { w with db := db }) := by
      rw [onDb, hsave]
    rw [Cut.bind_of_cut hrun]
    refine .single (Advances.of_eq hi imei ?_)
    simp only [World.advance, workerPass, World.setPass, hsave, List.set_set, Pass.ended, if_true]
  · have hrun : onDb (saveFingerprint (now imei) imei params) w =
        (some (), { w with db := db }) := by
      rw [onDb, hsave]
    have hsaved : Advances now i (w.setPass i (workerPass window (imei :: rest) (.fitted params)))
        ({ w with db := db }.setPass i (workerPass window (imei :: rest) (.saved params))) := by
      refine Advances.of_eq hi imei ?_
      simp only [World.advance, workerPass, World.setPass, hsave, List.set_set, Pass.reach]
    rw [Cut.bind_of_finished hrun, publish]
    refine .head hsaved ?_
    -- the message ends the pass, or is accepted and then the row is marked
    by_cases hraised : World.publishOutcome (fpTopic imei) .accepted = .raised
    · rw [if_pos hraised]
      refine .single (Advances.of_eq (w := { w with db := db }) hi imei ?_)
      simp only [World.advance, workerPass, World.setPass, hraised, List.set_set, Pass.ended]
      rfl
    · have haccepted : World.publishOutcome (fpTopic imei) .accepted = .accepted := by
        by_cases hwildcard : '+' ∈ fpTopic imei ∨ '#' ∈ fpTopic imei
        · exact absurd (if_pos hwildcard) hraised
        · exact if_neg hwildcard
      let published : World D := { w with db := db }.accept (fpTopic imei) (toMqttJson params)
      have hpublished : Advances now i
          ({ w with db := db }.setPass i (workerPass window (imei :: rest) (.saved params)))
          (published.setPass i (workerPass window (imei :: rest) .marking)) := by
        refine Advances.of_eq (w := { w with db := db }) hi imei ?_
        simp only [World.advance, workerPass, World.setPass, World.accept, haccepted, List.set_set,
          Pass.reach]
        rfl
      have hmarked : Advances now i
          (published.setPass i (workerPass window (imei :: rest) .marking))
          ({ published with db := markPublished imei db }.setPass i
            (workerPass window rest .reading)) := by
        refine Advances.of_eq (w := published) hi imei ?_
        simp only [World.advance, workerPass, World.setPass, List.set_set, Pass.next]
        rfl
      rw [if_neg hraised]
      exact .head hpublished (.single hmarked)

omit [Python D] in
theorem onDb_passes {α : Type} (m : Py D α) (passes : List (Pass D)) :
    Cut.Keeps (fun w : World D => w.passes = passes) (fun w => w.passes = passes) (onDb m) :=
  fun _ h => Cut.wp_intro (fun _ _ => h) fun _ => h

/-- The turn of a meter leaves the passes to the step that takes it. -/
theorem fitOne_passes (loads : ZonedTime → Bool) (window : Window) (now : Str → Nat) (imei : Str)
    (passes : List (Pass D)) : Cut.Keeps (fun w : World D => w.passes = passes)
      (fun w => w.passes = passes) (fitOne loads window now imei) := by
  refine Cut.Keeps.bind (Cut.Keeps.read _) fun rows => ?_
  refine Cut.Keeps.ite (Cut.Keeps.bind (Cut.Keeps.read _) fun fitted => ?_)
    (Cut.Keeps.halt fun _ h => h)
  cases fitted with
  | none => exact Cut.Keeps.pure ()
  | some params =>
    refine Cut.Keeps.bind (onDb_passes _ passes) fun _ => Cut.Keeps.bind ?_ fun _ =>
      onDb_passes _ passes
    exact Cut.Keeps.ite (Cut.Keeps.halt fun _ h => h) (Cut.Keeps.update fun _ h => h)

/-- The turn of a meter is a number of steps, where its samples can be loaded. -/
theorem fitOne_steps [Server D] (hi : i < w.passes.length) :
    Relation.ReflTransGen (Advances now i)
      (w.setPass i (workerPass window (imei :: rest) .reading))
      ((fitOne (fun _ => true) window now imei w).2.setPass i (workerPass window
        (if (fitOne (fun _ => true) window now imei w).1 = none then [] else rest) .reading)) := by
  have hloads : ¬ ∃ row ∈ samplesForFit window imei w.db, true = false := by
    rintro ⟨_, -, hfalse⟩
    cases hfalse
  rw [fitOne_eq, if_neg hloads]
  cases hfit : fitMeter window imei w.db with
  -- one step takes the pass to the next meter
  | none =>
    refine .single (Advances.of_eq hi imei ?_)
    simp only [World.advance, workerPass, World.setPass, hfit, List.set_set, Pass.next]
    rfl
  | some params =>
    refine .head (Advances.of_eq hi imei ?_) (saveAndPublish_steps hi)
    simp only [World.advance, workerPass, World.setPass, hfit, List.set_set, Pass.reach]

/-- The turns of several meters are. -/
theorem each_steps [Server D] (window : Window) (now : Str → Nat) (imeis : List Str)
    (hi : i < w.passes.length) :
    Relation.ReflTransGen (Advances now i)
      (w.setPass i (workerPass window imeis .reading))
      ((Cut.each (fitOne (fun _ => true) window now) imeis w).2.setPass i
        (workerPass window [] .reading)) := by
  induction imeis generalizing w with
  | nil => exact .refl
  | cons imei rest ih =>
    refine (fitOne_steps hi).trans ?_
    show Relation.ReflTransGen _ _ ((((fitOne (fun _ => true) window now imei) >>= fun _ =>
      Cut.each (fitOne (fun _ => true) window now) rest) w).2.setPass i _)
    -- the turn has changed nothing of the passes, so the index still names this one
    have hpasses : (fitOne (fun _ => true) window now imei w).2.passes = w.passes :=
      Cut.wp_snd (fitOne_passes (fun _ => true) window now imei w.passes w rfl)
    rcases hturn : fitOne (fun _ => true) window now imei w with ⟨_ | _, w'⟩
    · rw [Cut.bind_of_cut hturn]
      exact .refl
    · rw [hturn] at hpasses
      rw [Cut.bind_of_finished hturn]
      exact ih (hpasses ▸ hi)

/-- A pass as one computation is a run of its steps, where all samples can be loaded. -/
theorem fitAll_steps [Server D] (w : World D) (window : Window) (now : Str → Nat) :
    Relation.ReflTransGen (Advances now w.passes.length) (w.step (.start .worker window))
      ((fitAll (fun _ => true) window now (w.step (.start .worker window))).2.setPass
        w.passes.length (workerPass window [] .reading)) := by
  have hi : w.passes.length < (w.step (.start .worker window)).passes.length := by
    show w.passes.length < (w.passes ++ [_]).length
    rw [List.length_append]
    exact Nat.lt_succ_self _
  have hstart : w.step (.start .worker window) =
      (w.step (.start .worker window)).setPass w.passes.length
        (workerPass window (meterIds w.db) .reading) := by
    simp only [World.step, World.setPass, workerPass]
    rw [List.set_append_right _ _ le_rfl, Nat.sub_self]
    rfl
  have hsteps := each_steps window now (meterIds w.db) hi
  rw [← hstart] at hsteps
  exact hsteps

end Steps

/-! ### Contents that can occur -/

/-- The action happens at a time of the server, if it has one. -/
def Action.Happens (t : Nat) : Action → Prop
  | .message m _ _ => m.server = t
  | .advance _ now _ => now = t
  | _ => True

/-- What messages, passes and registrations can leave, and the time of the last of them. -/
inductive Produced [Server D] : Nat → World D → Prop
  | empty : Produced 0 (World.init ⟨∅, [], [], []⟩)
  | step {t t' : Nat} {w : World D} {a : Action} : Produced t w → t ≤ t' → a.Happens t' →
      Produced t' (w.step a)
  | registered {t t' : Nat} {w : World D} {fault : Portal.Statement → Option Str} {imei : Str}
      {db db' : Portal.PortalDb D} : Produced t w → t ≤ t' → db.cloud = w.db →
      Portal.ensureMeter fault t' imei db = .ok db' → Produced t' { w with db := db'.cloud }

theorem step_past [Server D] {t t' : Nat} {w : World D} {a : Action}
    (h : ∀ fp ∈ w.db.fingerprints, fp.createdAt ≤ t) (ht : t ≤ t') (ha : a.Happens t') :
    ∀ fp ∈ (w.step a).db.fingerprints, fp.createdAt ≤ t' := by
  have hlater : ∀ fp ∈ w.db.fingerprints, fp.createdAt ≤ t' := fun fp hfp => (h fp hfp).trans ht
  cases a with
  | message m topic text =>
    show ∀ fp ∈ (onMessage m topic text w.db).2.fingerprints, _
    rw [onMessage_fingerprints]
    exact hlater
  | start kind window => exact hlater
  | advance i now outcome =>
    simp only [World.step]
    split
    · exact hlater
    rename_i p _
    have hstep := World.advance_cases w i now outcome p
    generalize w.advance i now outcome p = w' at hstep ⊢
    cases hstep with
    | idle | skipped | fitted | unsaved | accepted | refused | ignored | raised => exact hlater
    | saved =>
      have hnow : now = t' := ha
      intro fp hfp
      rcases List.mem_cons.1 hfp with rfl | hfp
      · exact hnow.le
      · exact hlater fp hfp
    | marked =>
      intro fp hfp
      obtain ⟨old, hold, -, hcreated⟩ := markPublished_rows hfp
      rw [hcreated]
      exact hlater old hold
  | stop i =>
    simp only [World.step]
    split <;> exact hlater

omit [Python D] in
theorem ensureMeter_fingerprints {fault : Portal.Statement → Option Str} {now : Nat} {imei : Str}
    {db db' : Portal.PortalDb D} (h : Portal.ensureMeter fault now imei db = .ok db') :
    db'.cloud.fingerprints = db.cloud.fingerprints := by
  simp only [Portal.ensureMeter, Portal.bind_ok] at h
  obtain ⟨_, _, _, _, h⟩ := h
  split at h
  · cases h
    rfl
  · cases h
    rfl

/-- The ids are those of a sequence, and no row is later than the last action. -/
theorem Produced.spec [Server D] {t : Nat} {w : World D} (h : Produced t w) :
    Numbered w.db ∧ ∀ fp ∈ w.db.fingerprints, fp.createdAt ≤ t := by
  induction h with
  | empty => exact ⟨⟨List.nodup_nil, nofun⟩, nofun⟩
  | step _ ht ha ih => exact ⟨World.step_numbered _ _ ih.1, step_past ih.2 ht ha⟩
  | registered _ ht hcloud hensure ih =>
    rw [← hcloud] at ih
    have hsame := ensureMeter_fingerprints hensure
    refine ⟨⟨?_, ?_⟩, ?_⟩
    · show (Db.fingerprints _ |>.map _).Nodup
      rw [hsame]
      exact ih.1.nodup
    · show ∀ fp ∈ Db.fingerprints _, fp.id < (Db.fingerprints _).length
      rw [hsame]
      exact ih.1.lt
    · show ∀ fp ∈ Db.fingerprints _, _
      rw [hsame]
      exact fun fp hfp => (ih.2 fp hfp).trans ht

theorem Produced.ready [Server D] {t : Nat} {w : World D} {now : Str → Nat} (h : Produced t w)
    (hnow : ∀ imei, t ≤ now imei) : Ready now w w where
  readings := rfl
  meters _ himei := mem_meterIds.1 himei
  numbered := h.spec.1
  past fp hfp := (h.spec.2 fp hfp).trans (hnow fp.imei)

/-- In a pass over contents that can occur, a meter that can be fitted is saved, published and
    marked with what its own readings give if and only if no meter up to it, in the order of the
    IMEIs, has a sample that cannot be loaded, or is fitted and has a wildcard in its IMEI. -/
theorem served_iff [Server D] (loads : ZonedTime → Bool) (window : Window)
    (now : Str → Nat) {t : Nat}
    {w : World D} {imei : Str} {params : FitParams D} (h : Produced t w)
    (hnow : ∀ imei, t ≤ now imei) (himei : imei ∈ meterIds w.db)
    (hfit : fitMeter window imei w.db = some params) :
    (Served imei params w (fitAll loads window now w).2 ↔
      ∀ other ∈ meterIds w.db, ¬ imei < other → ¬ Blocks loads window w.db other) ∧
    ∀ db : Db D, db.readings.filter (·.imei = imei) = w.db.readings.filter (·.imei = imei) →
      fitMeter window imei db = some params :=
  ⟨fitAll_served_iff (h.ready hnow) himei hfit, fun _ hsame => (fitMeter_congr hsame).trans hfit⟩

/-! ### A topic without an IMEI -/

/-- A reading of a full hour, with the IMEI in the payload. -/
def hourText (imei : Str) (hour : Nat) : Str :=
  "\x7b\"imei\":\"".toList ++ imei ++ "\",\"lm\":1,\"ts\":\"2026-01-01T".toList ++
    Text.pad0 2 (Text.udec hour) ++ ":00:00\"\x7d".toList

/-- A day of them; the topic has no IMEI. -/
def dayOf (imei : Str) : List Action :=
  (List.range 24).map fun hour => .message noon "waterbox//data".toList (hourText imei hour)

/-- What the worker has stored after the messages of some meters. -/
def worldOf (imeis : List Str) : World Exact :=
  (imeis.flatMap dayOf).foldl World.step (World.init noMeters)

theorem Produced.steps [Server D] {t : Nat} {w : World D} {actions : List Action}
    (h : Produced t w) (hactions : ∀ a ∈ actions, a.Happens t) :
    Produced t (actions.foldl World.step w) := by
  induction actions generalizing w with
  | nil => exact h
  | cons a actions ih =>
    exact ih (.step h le_rfl (hactions a List.mem_cons_self))
      fun b hb => hactions b (List.mem_cons_of_mem a hb)

theorem produced_worldOf (imeis : List Str) : Produced 0 (worldOf imeis) := by
  refine Produced.empty.steps fun a ha => ?_
  obtain ⟨imei, -, ha⟩ := List.mem_flatMap.1 ha
  obtain ⟨hour, -, rfl⟩ := List.mem_map.1 ha
  exact rfl

/-- The meter `0` is fitted first and blocks nobody, so the meter `1` is served as well. -/
theorem served_second :
    ∃ params, Served "1".toList params (worldOf ["0".toList, "1".toList])
      (fitAll (fun _ => true) always (fun _ => 1) (worldOf ["0".toList, "1".toList])).2 := by
  obtain ⟨params, hfit⟩ := Option.isSome_iff_exists.1
    (by decide +kernel :
      (fitMeter always "1".toList (worldOf ["0".toList, "1".toList]).db).isSome)
  have hiff := (served_iff (fun _ => true) always (fun _ => 1)
    (produced_worldOf ["0".toList, "1".toList]) (fun _ => Nat.zero_le 1) (by decide +kernel)
    hfit).1
  exact ⟨params, hiff.2 (by decide +kernel)⟩

/-- The meter `#` has no topic to which paho publishes.  Its row is saved, and the pass ends before
    the meter `1`, whose own readings are the same as before. -/
theorem blocked_by_wildcard :
    let w := worldOf ["#".toList, "1".toList]
    Produced 0 w ∧ "1".toList ∈ meterIds w.db ∧
    (w.db.readings.filter (·.imei = "1".toList)).length = 24 ∧
    (fitMeter always "1".toList w.db).isSome ∧
    rowsOf "1".toList (fitAll (fun _ => true) always (fun _ => 1) w).2 = [] ∧
    ∀ params, ¬ Served "1".toList params w (fitAll (fun _ => true) always (fun _ => 1) w).2 := by
  intro w
  obtain ⟨hmem, hreadings, hfit, hnone⟩ : "1".toList ∈ meterIds w.db ∧
      (w.db.readings.filter (·.imei = "1".toList)).length = 24 ∧
      (fitMeter always "1".toList w.db).isSome ∧
      rowsOf "1".toList (fitAll (fun _ => true) always (fun _ => 1) w).2 = [] := by
    decide +kernel
  refine ⟨produced_worldOf _, hmem, hreadings, hfit, hnone, ?_⟩
  rintro params ⟨⟨fp, hrows, -⟩, -, -⟩
  rw [hnone] at hrows
  cases hrows

end Cloud

end Waterbox
