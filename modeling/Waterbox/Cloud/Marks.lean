import Waterbox.Cloud.Passes

namespace Waterbox

namespace Cloud

/-!
# The rows that are marked as published

`mark_published` does not name a row: it marks the newest of the meter, which another pass may have
inserted in the meantime, and `fit_once` does not look at how its publish ended.

* `Sound` — a row is marked only if the body built from it has been published.
* `MarkSound` — the condition for one step; `step_sound_iff` says that it is exact.
* `markings_sound_iff` — whole runs.
-/

variable {D : Type} [Python D]

namespace World

/-- The body built from a row has been accepted on the topic of its meter. -/
def Published (w : World D) (fp : Fingerprint D) : Prop :=
  (fpTopic fp.imei, toMqttJson fp.toFitParams) ∈ w.accepted

/-- A row is marked only if its body has been published. -/
def Sound (w : World D) : Prop := ∀ fp ∈ w.db.fingerprints, fp.published = true → w.Published fp

/-- Where the action is a `mark_published`, the newest row of the meter at this moment has been
    published. -/
def MarkSound (w : World D) : Action → Prop
  | .advance i _ _ => ∀ imei ∈ w.passes[i]?.bind Pass.marks,
    ∀ newest ∈ latestFingerprint imei w.db, w.Published newest
  | _ => True

theorem advance_numbered {w : World D} (h : Numbered w.db) (i now : Nat) (outcome : Outcome)
    (p : Pass D) : Numbered (w.advance i now outcome p).db := by
  have hstep := advance_cases w i now outcome p
  generalize w.advance i now outcome p = w' at hstep ⊢
  cases hstep with
  | idle | skipped | fitted | unsaved | accepted | refused | ignored | raised => exact h
  | saved => exact h.push rfl rfl
  | marked => exact h.marked _

theorem step_numbered [Server D] (w : World D) (a : Action) (h : Numbered w.db) :
    Numbered (w.step a).db := by
  cases a with
  | message m topic text =>
    constructor
    · show ((onMessage m topic text w.db).2.fingerprints.map _).Nodup
      rw [onMessage_fingerprints]
      exact h.nodup
    · show ∀ fp ∈ (onMessage m topic text w.db).2.fingerprints, _
      simp only [step, onMessage_fingerprints]
      exact h.lt
  | start kind window => exact h
  | advance i now outcome =>
    simp only [step]
    split
    · exact h
    · exact advance_numbered h i now outcome _
  | stop i =>
    simp only [step]
    split <;> exact h

omit [Python D] in
/-- A marked row is the newest of its meter, or it was marked before. -/
theorem published_markPublished {imei : Str} {db : Db D} {newest fp : Fingerprint D}
    (hids : Numbered db) (hnewest : latestFingerprint imei db = some newest)
    (hfp : fp ∈ (markPublished imei db).fingerprints) (hpublished : fp.published = true) :
    ∃ old ∈ db.fingerprints, fp = old.markIf newest.id ∧ (old = newest ∨ old.published = true) := by
  simp only [markPublished, hnewest] at hfp
  obtain ⟨old, hold, rfl⟩ := List.mem_map.1 hfp
  refine ⟨old, hold, rfl, ?_⟩
  by_cases hid : old.id = newest.id
  · -- the id names one row
    exact .inl (List.inj_on_of_nodup_map hids.nodup hold (latest_mem hnewest).1 hid)
  · rw [Fingerprint.markIf, if_neg hid] at hpublished
    exact .inr hpublished

/-- `mark_published` is sound if and only if the body of the newest row has been published. -/
theorem markPublished_sound_iff {w : World D} (hids : Numbered w.db) (h : w.Sound) (imei : Str) :
    { w with db := markPublished imei w.db }.Sound ↔
      ∀ newest ∈ latestFingerprint imei w.db, w.Published newest := by
  constructor
  · intro hsound newest (hnewest : latestFingerprint imei w.db = some newest)
    have hmem : newest.markIf newest.id ∈ (markPublished imei w.db).fingerprints := by
      simp only [markPublished, hnewest]
      exact List.mem_map_of_mem (latest_mem hnewest).1
    have hpub := hsound _ hmem (by rw [Fingerprint.markIf, if_pos rfl])
    simp only [Published, markIf_imei, markIf_toFitParams] at hpub
    exact hpub
  · intro hok fp hfp hpublished
    have hfp : fp ∈ (markPublished imei w.db).fingerprints := hfp
    cases hnewest : latestFingerprint imei w.db with
    | none =>
      simp only [markPublished, hnewest] at hfp
      exact h fp hfp hpublished
    | some newest =>
      obtain ⟨old, hold, rfl, hmarked⟩ := published_markPublished hids hnewest hfp hpublished
      show (fpTopic _, toMqttJson _) ∈ w.accepted
      rw [markIf_imei, markIf_toFitParams]
      -- the row was marked now, or it was before
      rcases hmarked with rfl | hmarked
      · exact hok old hnewest
      · exact h old hold hmarked

/-- Only `mark_published` can mark a row without its body having been published. -/
theorem advance_sound_iff {w : World D} (hids : Numbered w.db) (h : w.Sound) (i now : Nat)
    (outcome : Outcome) (p : Pass D) : (w.advance i now outcome p).Sound ↔
      ∀ imei ∈ p.marks, ∀ newest ∈ latestFingerprint imei w.db, w.Published newest := by
  have hstep := advance_cases w i now outcome p
  generalize w.advance i now outcome p = w' at hstep ⊢
  cases hstep with
  | idle | skipped | fitted | unsaved | refused | ignored | raised =>
    exact iff_of_true h fun _ hnone => nomatch hnone
  | saved =>
    -- the new row is not marked
    refine iff_of_true (fun fp hfp hpublished => ?_) fun _ hnone => nomatch hnone
    rcases List.mem_cons.1 hfp with rfl | hfp
    · cases hpublished
    · exact h fp hfp hpublished
  | accepted =>
    refine iff_of_true (fun fp hfp hpublished => ?_) fun _ hnone => nomatch hnone
    exact List.mem_cons_of_mem _ (h fp hfp hpublished)
  | marked =>
    refine (markPublished_sound_iff hids h _).trans ⟨?_, fun hall => hall _ rfl⟩
    rintro hok _ ⟨rfl⟩
    exact hok

theorem step_sound_iff [Server D] (w : World D) (a : Action) (hids : Numbered w.db) (h : w.Sound) :
    (w.step a).Sound ↔ w.MarkSound a := by
  cases a with
  | message m topic text =>
    refine iff_of_true ?_ trivial
    intro fp hfp hpublished
    simp only [step, onMessage_fingerprints] at hfp
    exact h fp hfp hpublished
  | start kind window => exact iff_of_true h trivial
  | advance i now outcome =>
    simp only [step]
    cases hp : w.passes[i]? with
    | none =>
      refine iff_of_true h fun imei hmarks => ?_
      rw [hp] at hmarks
      cases hmarks
    | some p =>
      rw [MarkSound, hp]
      exact advance_sound_iff hids h i now outcome p
  | stop i =>
    refine iff_of_true ?_ trivial
    simp only [step]
    split <;> exact h

/-- Passes, messages and stops in any order, from tables without fingerprints on: in all states a
    row is marked only if the body built from it has been published, if and only if at every
    `mark_published` the newest row of the meter has been published. -/
theorem markings_sound_iff [Server D] (db : Db D) (actions : List Action) :
    (∀ w ∈ Runs.states step (init { db with fingerprints := [] }) actions, w.Sound) ↔
      Runs.Meets step MarkSound (init { db with fingerprints := [] }) actions := by
  have hids : Numbered (init { db with fingerprints := [] }).db :=
    ⟨List.nodup_nil, fun fp hfp => nomatch hfp⟩
  exact Runs.invariant_iff (K := fun w => Numbered w.db) step_numbered
    (fun w a hids h => step_sound_iff w a hids h) hids fun fp hfp => nomatch hfp

/-- `fit_once` marks its row although the broker has refused the body. -/
theorem fitOnce_marks_refused : ¬∀ actions : List Action,
    ∀ w ∈ Runs.states step (init { steady with fingerprints := [] }) actions, w.Sound := by
  intro h
  let w := (onePass .fitOnce .refused).foldl step (init { steady with fingerprints := [] })
  have hend : w.db.fingerprints.map (·.published) = [true] ∧ w.accepted = [] := by
    decide +kernel
  obtain ⟨fp, hfp, hpublished⟩ : ∃ fp ∈ w.db.fingerprints, fp.published = true := by
    apply List.mem_map.1
    rw [hend.1]
    exact List.mem_singleton_self true
  have hbody := h (onePass .fitOnce .refused) w (Runs.last_mem _ _) fp hfp hpublished
  rw [Published, hend.2] at hbody
  cases hbody

end World

end Cloud

end Waterbox
