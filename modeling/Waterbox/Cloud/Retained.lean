import Waterbox.Cloud.Passes

namespace Waterbox

namespace Cloud

/-!
# The fingerprint that the broker holds

The worker predicts with the newest row of a meter; the meter gets the message that the broker
retains.  Both are the same where the newest row of each meter was published last.

* `Settled` — the broker holds a body, or a pass will publish it.
* `Following` — this is so for the newest row of each meter.
* `PublishFollows` — the condition for one step; `step_following`.
* `retained_follows` — whole runs.
-/

variable {D : Type} [Python D]

theorem fpTopic_inj {imei imei' : Str} (h : fpTopic imei = fpTopic imei') : imei = imei' := by
  unfold fpTopic at h
  rw [List.append_assoc, List.append_assoc] at h
  have hrest := List.cons.inj (List.append_cancel_left h)
  exact List.append_cancel_right hrest.2

namespace World

/-- The meter and the coefficients that the pass `j` is about to publish. -/
def publishing (w : World D) (j : Nat) : Option (Str × FitParams D) :=
  w.passes[j]?.bind Pass.publishes

/-- The broker holds the body of some coefficients, or a pass is about to publish it. -/
def Settled (w : World D) (imei : Str) (params : FitParams D) : Prop :=
  w.retained (fpTopic imei) = some (toMqttJson params) ∨ ∃ j, w.publishing j = some (imei, params)

/-- Every meter that has a fingerprint is served with the newest. -/
def Following (w : World D) : Prop :=
  ∀ imei newest, latestFingerprint imei w.db = some newest → w.Settled imei newest.toFitParams

/-- Another pass than `i` is about to publish these coefficients. -/
def OtherPublishes (w : World D) (i : Nat) (imei : Str) (params : FitParams D) : Prop :=
  ∃ j < w.passes.length, j ≠ i ∧ w.publishing j = some (imei, params)

/-- The pass `i` may fail to publish: these coefficients are not those of the newest row, or the
    broker holds their body already, or another pass is about to publish them. -/
def MayDrop (w : World D) (i : Nat) (x : Str × FitParams D) : Prop :=
  ∀ newest ∈ latestFingerprint x.1 w.db,
    newest.toFitParams ≠ x.2 ∨
      w.retained (fpTopic x.1) = some (toMqttJson newest.toFitParams) ∨
      w.OtherPublishes i x.1 newest.toFitParams

/-- The pass `i` may publish: these are the coefficients of the newest row, or another pass is about
    to publish that. -/
def MayPublish (w : World D) (i : Nat) (x : Str × FitParams D) : Prop :=
  ∀ newest ∈ latestFingerprint x.1 w.db,
    newest.toFitParams = x.2 ∨ w.OtherPublishes i x.1 newest.toFitParams

/-- A message is accepted only for the newest row, and a pass that stops, or whose message is not
    accepted, was not the one that had to publish the newest row. -/
def PublishFollows (w : World D) : Action → Prop
  | .advance i _ outcome => ∀ x ∈ w.publishing i,
    if publishOutcome (fpTopic x.1) outcome = .accepted then w.MayPublish i x else w.MayDrop i x
  | .stop i => ∀ x ∈ w.publishing i, w.MayDrop i x
  | _ => True

instance [DecidableEq D] (w : World D) (i : Nat) (imei : Str) (params : FitParams D) :
    Decidable (w.OtherPublishes i imei params) :=
  inferInstanceAs (Decidable (∃ j < w.passes.length, _))

instance [DecidableEq D] (w : World D) (i : Nat) (x : Str × FitParams D) :
    Decidable (w.MayDrop i x) :=
  inferInstanceAs (Decidable (∀ newest ∈ latestFingerprint x.1 w.db, _))

instance [DecidableEq D] (w : World D) (i : Nat) (x : Str × FitParams D) :
    Decidable (w.MayPublish i x) :=
  inferInstanceAs (Decidable (∀ newest ∈ latestFingerprint x.1 w.db, _))

instance [DecidableEq D] (w : World D) : (a : Action) → Decidable (w.PublishFollows a)
  | .advance i _ outcome =>
    inferInstanceAs (Decidable (∀ x ∈ w.publishing i,
      if publishOutcome (fpTopic x.1) outcome = .accepted then w.MayPublish i x else w.MayDrop i x))
  | .stop i => inferInstanceAs (Decidable (∀ x ∈ w.publishing i, w.MayDrop i x))
  | .message _ _ _ => isTrue trivial
  | .start _ _ => isTrue trivial

/-- No pass is in progress. -/
def AtRest (w : World D) : Prop := ∀ p ∈ w.passes, p.todo = []

/-! ### One step -/

omit [Python D] in
theorem publishing_setPass_ne {w : World D} {i j : Nat} (h : j ≠ i) (p : Pass D) :
    (w.setPass i p).publishing j = w.publishing j := by
  unfold publishing setPass
  rw [List.getElem?_set_ne (Ne.symm h)]

omit [Python D] in
theorem publishing_setPass_self {w : World D} {i : Nat} {old : Pass D} (h : w.passes[i]? = some old)
    (p : Pass D) : (w.setPass i p).publishing i = p.publishes := by
  have hi : i < w.passes.length := (List.getElem?_eq_some_iff.1 h).1
  unfold publishing setPass
  rw [List.getElem?_set_self hi]
  rfl

/-- What another pass is about to publish stays so. -/
theorem OtherPublishes.settled {w : World D} {i : Nat} {imei : Str} {params : FitParams D}
    (h : w.OtherPublishes i imei params) (p : Pass D) : (w.setPass i p).Settled imei params := by
  obtain ⟨j, -, hne, hj⟩ := h
  refine .inr ⟨j, ?_⟩
  rw [publishing_setPass_ne hne]
  exact hj

/-- A step of the pass `i` that publishes nothing settles what it was not about to publish. -/
theorem Settled.setPass {w : World D} {i : Nat} {imei : Str} {params : FitParams D}
    (h : w.Settled imei params) (hi : w.publishing i ≠ some (imei, params)) (p : Pass D) :
    (w.setPass i p).Settled imei params := by
  rcases h with h | ⟨j, hj⟩
  · exact .inl h
  · refine .inr ⟨j, ?_⟩
    have hne : j ≠ i := by
      rintro rfl
      exact hi hj
    rw [publishing_setPass_ne hne]
    exact hj

/-- A pass that was not about to publish goes on. -/
theorem Following.setPass {w : World D} (h : w.Following) {i : Nat} (hi : w.publishing i = none)
    (p : Pass D) : (w.setPass i p).Following := by
  intro imei newest hnewest
  refine (h imei newest hnewest).setPass ?_ p
  rw [hi]
  exact fun hsome => nomatch hsome

/-- A pass that may drop its message goes on without publishing it. -/
theorem Following.drop {w : World D} (h : w.Following) {i : Nat}
    (hdrop : ∀ x ∈ w.publishing i, w.MayDrop i x) (p : Pass D) : (w.setPass i p).Following := by
  intro imei newest hnewest
  by_cases hi : w.publishing i = some (imei, newest.toFitParams)
  · rcases hdrop _ hi newest hnewest with hne | hheld | hother
    · exact absurd rfl hne
    · exact .inl hheld
    · exact hother.settled p
  · exact (h imei newest hnewest).setPass hi p

/-- A pass that may publish its message publishes it. -/
theorem Following.publish {w : World D} (h : w.Following) {i : Nat} {imei : Str}
    {params : FitParams D} (hi : w.publishing i = some (imei, params))
    (hmay : w.MayPublish i (imei, params)) (p : Pass D) :
    ((w.accept (fpTopic imei) (toMqttJson params)).setPass i p).Following := by
  intro imei' newest hnewest
  have hnewest : latestFingerprint imei' w.db = some newest := hnewest
  by_cases himei : imei' = imei
  · subst himei
    rcases hmay newest hnewest with heq | ⟨j, hj, hother⟩
    · left
      show (if fpTopic imei' = fpTopic imei' then some (toMqttJson params) else _) = _
      rw [if_pos rfl, heq]
    · exact OtherPublishes.settled (w := w.accept (fpTopic imei') (toMqttJson params))
        ⟨j, hj, hother⟩ p
  · -- the message is one of another meter
    have hne : fpTopic imei' ≠ fpTopic imei := fun heq => himei (fpTopic_inj heq)
    have hpublishing : w.publishing i ≠ some (imei', newest.toFitParams) := by
      rw [hi]
      exact fun heq => himei (congrArg Prod.fst (Option.some.inj heq)).symm
    rcases (h imei' newest hnewest).setPass hpublishing p with hheld | hcome
    · left
      show (if fpTopic imei' = fpTopic imei then some (toMqttJson params) else _) = _
      rw [if_neg hne]
      exact hheld
    · exact .inr hcome

/-- A pass has inserted a row, which it is about to publish. -/
theorem Following.save {w : World D} (h : w.Following) {i now : Nat} {old p : Pass D} {imei : Str}
    {params : FitParams D} {db : Db D} (hold : w.passes[i]? = some old)
    (hi : w.publishing i = none) (hp : p.publishes = some (imei, params))
    (hdb : db.fingerprints = savedRow now imei params w.db :: w.db.fingerprints) :
    ({ w with db := db }.setPass i p).Following := by
  intro imei' newest hnewest
  have hpush : latestFingerprint imei' { w.db with
      fingerprints := savedRow now imei params w.db :: w.db.fingerprints } = some newest := by
    rw [← hnewest]
    show latestFingerprint imei' { w.db with fingerprints := _ } = latestFingerprint imei' db
    simp only [latestFingerprint, hdb]
  rcases latest_push hpush with ⟨rfl, himei⟩ | hbefore
  · refine .inr ⟨i, ?_⟩
    have hself := publishing_setPass_self (w := { w with db := db }) hold p
    rw [hself, hp, ← himei]
    rfl
  · refine Settled.setPass (w := { w with db := db }) (h imei' newest hbefore) ?_ p
    show w.publishing i ≠ _
    rw [hi]
    exact fun hsome => nomatch hsome

/-- A pass has marked a row. -/
theorem Following.mark {w : World D} (h : w.Following) (imei : Str) :
    { w with db := markPublished imei w.db }.Following := by
  intro imei' newest hnewest
  have hnewest : latestFingerprint imei' (markPublished imei w.db) = some newest := hnewest
  unfold markPublished at hnewest
  split at hnewest
  · exact h imei' newest hnewest
  · rename_i marked _
    rw [latest_map_markIf] at hnewest
    obtain ⟨fp, hfp, rfl⟩ := Option.map_eq_some_iff.1 hnewest
    rw [markIf_toFitParams]
    exact h imei' fp hfp

theorem advance_following {w : World D} (h : w.Following) {i now : Nat} {outcome : Outcome}
    {p : Pass D} (hp : w.passes[i]? = some p) (hok : w.PublishFollows (.advance i now outcome)) :
    (w.advance i now outcome p).Following := by
  have hpublishing : w.publishing i = p.publishes := by
    rw [publishing, hp]
    rfl
  -- a pass whose message is not accepted drops it
  have hdrop {imei : Str} {params : FitParams D} (hi : p.publishes = some (imei, params))
      (hne : publishOutcome (fpTopic imei) outcome ≠ .accepted) :
      ∀ x ∈ w.publishing i, w.MayDrop i x := by
    intro x hx
    have hmay := hok x hx
    rw [hpublishing, hi] at hx
    cases hx
    rwa [if_neg hne] at hmay
  have hstep := advance_cases w i now outcome p
  generalize w.advance i now outcome p = w' at hstep ⊢
  cases hstep with
  | idle => exact h
  | skipped | fitted | unsaved => exact h.setPass hpublishing _
  | saved => exact h.save hp hpublishing rfl rfl
  | accepted hpublish =>
    have hmay := hok _ hpublishing
    rw [if_pos hpublish] at hmay
    exact h.publish hpublishing hmay _
  | refused hpublish | ignored hpublish | raised hpublish =>
    refine h.drop (hdrop rfl ?_) _
    rw [hpublish]
    decide
  | marked => exact (h.mark _).setPass hpublishing _

theorem step_following [Server D] (w : World D) (a : Action) (h : w.Following)
    (hok : w.PublishFollows a) : (w.step a).Following := by
  cases a with
  | message m topic text =>
    intro imei newest hnewest
    refine h imei newest ?_
    rw [← hnewest]
    simp only [step, latestFingerprint, onMessage_fingerprints]
  | start kind window =>
    intro imei newest hnewest
    rcases h imei newest hnewest with hheld | ⟨j, hj⟩
    · exact .inl hheld
    · refine .inr ⟨j, ?_⟩
      -- the pass that is new comes last, so the others keep their indices
      obtain ⟨p, hp, hpub⟩ := Option.bind_eq_some_iff.1 hj
      have hlt : j < w.passes.length := (List.getElem?_eq_some_iff.1 hp).1
      show ((w.passes ++ [_])[j]?).bind Pass.publishes = _
      rw [List.getElem?_append_left hlt, hp]
      exact hpub
  | advance i now outcome =>
    simp only [step]
    cases hp : w.passes[i]? with
    | none => exact h
    | some p => exact advance_following h hp hok
  | stop i =>
    simp only [step]
    split
    · exact h
    · exact h.drop hok _

/-! ### Runs -/

/-- Passes, messages and stops in any order, from tables without fingerprints on: if a message is
    accepted only for the newest row of its meter, and no pass that had to publish the newest row
    stops before or has its message refused, then whenever no pass is in progress the broker holds
    the body of the row that `latest_fingerprint` returns, for every meter that has one. -/
theorem retained_follows [Server D] (db : Db D) (actions : List Action)
    (h : Runs.Meets step PublishFollows (init { db with fingerprints := [] }) actions) :
    ∀ w ∈ Runs.states step (init { db with fingerprints := [] }) actions, w.AtRest →
      ∀ imei newest, latestFingerprint imei w.db = some newest →
        w.retained (fpTopic imei) = some (toMqttJson newest.toFitParams) := by
  intro w hw hrest imei newest hnewest
  have hinit : (init { db with fingerprints := [] }).Following := fun _ _ hnone => nomatch hnone
  have hfollowing := Runs.invariant step_following hinit h w hw
  rcases hfollowing imei newest hnewest with hheld | ⟨j, hj⟩
  · exact hheld
  · -- at rest no pass is about to publish
    obtain ⟨p, hp, hpub⟩ := Option.bind_eq_some_iff.1 hj
    have htodo := hrest p (List.mem_of_getElem? hp)
    rw [Pass.publishes, htodo] at hpub
    cases hpub

/-- A pass whose message is accepted. -/
theorem retained_follows_pass :
    Runs.Meets step PublishFollows (init { steady with fingerprints := [] })
      (onePass .worker .accepted) ∧
    ∀ w ∈ Runs.states step (init { steady with fingerprints := [] }) (onePass .worker .accepted),
      w.AtRest → ∀ imei newest, latestFingerprint imei w.db = some newest →
        w.retained (fpTopic imei) = some (toMqttJson newest.toFitParams) := by
  have h : Runs.Meets step PublishFollows (init { steady with fingerprints := [] })
      (onePass .worker .accepted) := by
    decide +kernel
  exact ⟨h, retained_follows steady (onePass .worker .accepted) h⟩

/-- The worker's message was refused: the row stays, and the broker holds nothing. -/
theorem refused_not_retained : ¬∀ actions : List Action,
    ∀ w ∈ Runs.states step (init { steady with fingerprints := [] }) actions, w.AtRest →
      ∀ imei newest, latestFingerprint imei w.db = some newest →
        w.retained (fpTopic imei) = some (toMqttJson newest.toFitParams) := by
  intro h
  let w := (onePass .worker .refused).foldl step (init { steady with fingerprints := [] })
  have hend : (∀ p ∈ w.passes, p.todo = []) ∧ (latestFingerprint "1".toList w.db).isSome = true ∧
      w.retained (fpTopic "1".toList) = none := by
    decide +kernel
  obtain ⟨newest, hnewest⟩ := Option.isSome_iff_exists.1 hend.2.1
  have hheld := h (onePass .worker .refused) w (Runs.last_mem _ _) hend.1 _ newest hnewest
  rw [hend.2.2] at hheld
  cases hheld

end World

end Cloud

end Waterbox
