import Mathlib.Logic.Relation
import Mathlib.Order.Basic

namespace Waterbox

/-!
# Runs

A system takes one action after the other; `step` says what an action does.

* `Runs.states` — the states that are reached.
* `Runs.Meets ok` — every action is taken where it meets its condition.
* `Runs.invariant` — what one step preserves where it meets its condition holds in all states of a
  run that meets it throughout.
* `Runs.invariant_iff` — where the condition is exact for one step, it is exact for runs.

A system without actions goes on from a state or rests there.

* `Runs.Settles` — it comes to a state and rests there.
* `Runs.not_settles` — it never rests where it goes on from every state of a set to one of them.
-/

namespace Runs

variable {σ α : Type} {step : σ → α → σ} {ok : σ → α → Prop} {I : σ → Prop}

/-- The states of a run, the first and the last among them. -/
def states (step : σ → α → σ) : σ → List α → List σ
  | s, [] => [s]
  | s, a :: as => s :: states step (step s a) as

/-- Every action meets its condition in the state in which it is taken. -/
def Meets (step : σ → α → σ) (ok : σ → α → Prop) : σ → List α → Prop
  | _, [] => True
  | s, a :: as => ok s a ∧ Meets step ok (step s a) as

instance decidableMeets [∀ s a, Decidable (ok s a)] : ∀ (s : σ) (as : List α),
    Decidable (Meets step ok s as)
  | _, [] => isTrue trivial
  | s, a :: as =>
    have := decidableMeets (step s a) as
    inferInstanceAs (Decidable (ok s a ∧ Meets step ok (step s a) as))

/-- A run that goes on from another one. -/
theorem meets_append {s : σ} {as bs : List α} : Meets step ok s (as ++ bs) ↔
    Meets step ok s as ∧ Meets step ok (as.foldl step s) bs := by
  induction as generalizing s with
  | nil => exact ⟨fun h => ⟨trivial, h⟩, And.right⟩
  | cons a as ih =>
    rw [List.cons_append, Meets, ih, Meets, and_assoc]
    rfl

/-- A run comes through its first state. -/
theorem start_mem (s : σ) (as : List α) : s ∈ states step s as := by
  cases as with
  | nil => exact List.mem_singleton_self s
  | cons a as => exact List.mem_cons_self

/-- And through its last. -/
theorem last_mem (s : σ) (as : List α) : as.foldl step s ∈ states step s as := by
  induction as generalizing s with
  | nil => exact List.mem_singleton_self s
  | cons a as ih => exact List.mem_cons_of_mem _ (ih (step s a))

theorem invariant (hstep : ∀ s a, I s → ok s a → I (step s a)) {s : σ} {as : List α} (hs : I s)
    (h : Meets step ok s as) : ∀ t ∈ states step s as, I t := by
  induction as generalizing s with
  | nil =>
    intro t ht
    rw [List.mem_singleton.1 ht]
    exact hs
  | cons a as ih =>
    intro t ht
    rcases List.mem_cons.1 ht with rfl | ht
    · exact hs
    · exact ih (hstep s a hs h.1) h.2 t ht

/-- `K` is an invariant that every step preserves, under which the condition is exact for `I`. -/
theorem invariant_iff {K : σ → Prop} (hK : ∀ s a, K s → K (step s a))
    (hstep : ∀ s a, K s → I s → (I (step s a) ↔ ok s a)) {s : σ} {as : List α} (hk : K s)
    (hs : I s) : (∀ t ∈ states step s as, I t) ↔ Meets step ok s as := by
  induction as generalizing s with
  | nil => exact iff_of_true (fun t ht => List.mem_singleton.1 ht ▸ hs) trivial
  | cons a as ih =>
    constructor
    · intro h
      have hnext : I (step s a) := h _ (List.mem_cons_of_mem _ (start_mem _ _))
      refine ⟨(hstep s a hk hs).1 hnext, (ih (hK s a hk) hnext).1 fun t ht => ?_⟩
      exact h t (List.mem_cons_of_mem _ ht)
    · rintro ⟨hok, hrest⟩ t ht
      have hnext : I (step s a) := (hstep s a hk hs).2 hok
      rcases List.mem_cons.1 ht with rfl | ht
      · exact hs
      · exact (ih (hK s a hk) hnext).2 hrest t ht

/-! ### Rest -/

section Rest

variable {next : σ → Option σ} {s t u : σ}

/-- From `s` the system comes to `t`, and rests there. -/
def Settles (next : σ → Option σ) (s t : σ) : Prop :=
  Relation.ReflTransGen (fun s t => next s = some t) s t ∧ next t = none

theorem Settles.rest (h : next s = none) : Settles next s s := ⟨.refl, h⟩

theorem Settles.head (h : next s = some t) (hsettles : Settles next t u) : Settles next s u :=
  ⟨.head h hsettles.1, hsettles.2⟩

/-- A system that goes on from every state of a set to one of them never rests. -/
theorem not_settles {S : Set σ} (hS : ∀ s ∈ S, ∃ t ∈ S, next s = some t) (hs : s ∈ S) (t : σ) :
    ¬ Settles next s t := by
  rintro ⟨hreach, hrest⟩
  have hmem : t ∈ S := by
    clear hrest
    induction hreach with
    | refl => exact hs
    | tail _ hstep ih =>
      obtain ⟨u, hu, hnext⟩ := hS _ ih
      rw [hstep, Option.some.injEq] at hnext
      rw [hnext]
      exact hu
  obtain ⟨u, -, hnext⟩ := hS t hmem
  rw [hrest] at hnext
  cases hnext

end Rest

end Runs

end Waterbox
