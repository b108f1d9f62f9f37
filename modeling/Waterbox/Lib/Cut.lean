import Mathlib.Order.Basic

namespace Waterbox

/-!
# Computations that may be cut off

A `Cut σ α` runs on a state of type `σ` and either finishes with a value or is *cut off*
in the state it had reached, as a machine is when its power is lost.  Nothing of the
computation survives a cut except the state.

* `Cut.wp m Q C s` — started in `s`, `m` finishes with `Q` of its value and final state, or
  is cut off in a state with `C`.
* `Cut.Triple P m Q C` — the Hoare triple of that condition, with the rules for sequencing,
  branching and consequence.
* `Cut.Keeps I C m` — the special case of an invariant: `I` is preserved when `m` finishes, and
  `C` holds where it is cut off.  This is the form in which a state machine's invariants are
  carried through its code.
* `Cut.times` — a fixed number of rounds, with or without a guard that each round needs.
* `Cut.each` — one round for each item of a list.
* `Cut.repeatUntil` — a loop whose number of rounds is bounded by a measure of the state, with
  its invariant rule.
* `Cut.mem_of_mapM`, `Cut.map_of_mapM` — the lists that `mapM` gives where no result is missing.
-/

/-- A computation on states `σ` that finishes with a value of type `α` or is cut off. -/
def Cut (σ α : Type) : Type := σ → Option α × σ

namespace Cut

variable {σ α β : Type}

instance : Monad (Cut σ) where
  pure a := fun s => (some a, s)
  bind m f := fun s =>
    match m s with
    | (some a, s') => f a s'
    | (none, s') => (none, s')

/-- The computation that is cut off at once. -/
def halt : Cut σ α := fun s => (none, s)

/-- The value of a part of the computation that may have none, and is cut off there. -/
def ofOption : Option α → Cut σ α
  | some a => Pure.pure a
  | none => halt

/-- Read a part of the state. -/
def read (f : σ → α) : Cut σ α := fun s => (some (f s), s)

/-- Change the state. -/
def update (f : σ → σ) : Cut σ Unit := fun s => (some (), f s)

/-- Run `m` if `c` holds. -/
def when (c : Bool) (m : Cut σ Unit) : Cut σ Unit := if c then m else pure ()

/-- Run `body` until it yields a value, for at most `n` rounds; a loop still running then is
    cut off. -/
def rounds (body : Cut σ (Option α)) : Nat → Cut σ α
  | 0 => halt
  | n + 1 => do
    match ← body with
    | some a => pure a
    | none => rounds body n

/-- Run `body` until it yields a value, for at most `measure s + 1` rounds from the state `s`.
    Where every round lowers the measure this is the unbounded loop. -/
def repeatUntil (measure : σ → Nat) (body : Cut σ (Option α)) : Cut σ α :=
  fun s => rounds body (measure s + 1) s

/-- Run `m` `n` times. -/
def times (m : Cut σ Unit) : Nat → Cut σ Unit
  | 0 => pure ()
  | n + 1 => do
    m
    times m n

/-- Run `body` for each item, one after the other. -/
def each (body : α → Cut σ Unit) : List α → Cut σ Unit
  | [] => pure ()
  | a :: as => do
    body a
    each body as

/-! ### Weakest preconditions -/

/-- `m`, started in `s`, finishes with `Q` or is cut off with `C`. -/
def wp (m : Cut σ α) (Q : α → σ → Prop) (C : σ → Prop) (s : σ) : Prop :=
  match m s with
  | (some a, s') => Q a s'
  | (none, s') => C s'

variable {m : Cut σ α} {f : α → Cut σ β} {Q Q' : α → σ → Prop} {R : β → σ → Prop}
  {P P' C C' I : σ → Prop} {s : σ}

theorem wp_bind : wp (m >>= f) R C s ↔ wp m (fun a s' => wp (f a) R C s') C s := by
  simp only [wp, bind]
  cases m s with
  | mk r s' => cases r <;> rfl

theorem wp_ite {c : Prop} [Decidable c] {m₁ m₂ : Cut σ α} :
    wp (if c then m₁ else m₂) Q C s ↔ (c → wp m₁ Q C s) ∧ (¬ c → wp m₂ Q C s) := by
  by_cases h : c <;> simp [h]

theorem wp_mono (hQ : ∀ a s', Q a s' → Q' a s') (hC : ∀ s', C s' → C' s')
    (h : wp m Q C s) : wp m Q' C' s := by
  simp only [wp] at h ⊢
  split at h
  · exact hQ _ _ h
  · exact hC _ h

theorem wp_and (h : wp m Q C s) (h' : wp m Q' C' s) :
    wp m (fun a s' => Q a s' ∧ Q' a s') (fun s' => C s' ∧ C' s') s := by
  simp only [wp] at h h' ⊢
  split
  · rename_i heq
    rw [heq] at h h'
    exact ⟨h, h'⟩
  · rename_i heq
    rw [heq] at h h'
    exact ⟨h, h'⟩

/-- A postcondition for each way in which a computation may end. -/
theorem wp_intro (hQ : ∀ a, (m s).1 = some a → Q a (m s).2) (hC : (m s).1 = none → C (m s).2) :
    wp m Q C s := by
  simp only [wp]
  split
  · rename_i heq
    rw [heq] at hQ
    exact hQ _ rfl
  · rename_i heq
    rw [heq] at hC
    exact hC rfl

/-- What the final state of a run satisfies, however the run ends. -/
theorem wp_snd (h : wp m (fun _ => I) I s) : I (m s).2 := by
  simp only [wp] at h
  split at h <;> simp_all

/-- The postcondition may speak of the run itself. -/
theorem wp_run (h : wp m Q C s) : wp m (fun a s' => m s = (some a, s') ∧ Q a s') C s := by
  simp only [wp] at h ⊢
  split
  · rename_i heq
    rw [heq] at h
    exact ⟨heq, h⟩
  · rename_i heq
    rw [heq] at h
    exact h

/-- A run that finishes ends in its postcondition. -/
theorem wp_finished {a : α} {s' : σ} (h : wp m Q C s) (hm : m s = (some a, s')) : Q a s' := by
  simpa only [wp, hm] using h

/-! ### Triples -/

/-- From every state with `P`, `m` finishes with `Q` or is cut off with `C`. -/
def Triple (P : σ → Prop) (m : Cut σ α) (Q : α → σ → Prop) (C : σ → Prop) : Prop :=
  ∀ s, P s → wp m Q C s

theorem Triple.pure {a : α} (h : ∀ s, P s → Q a s) : Triple P (Pure.pure a) Q C := h

theorem Triple.halt (h : ∀ s, P s → C s) : Triple P (Cut.halt : Cut σ α) Q C := h

theorem Triple.bind (hm : Triple P m Q C) (hf : ∀ a, Triple (Q a) (f a) R C) :
    Triple P (m >>= f) R C := fun s hs =>
  wp_bind.2 (wp_mono (fun a s' h => hf a s' h) (fun _ h => h) (hm s hs))

theorem Triple.conseq (h : Triple P m Q C) (hP : ∀ s, P' s → P s)
    (hQ : ∀ a s, Q a s → Q' a s) (hC : ∀ s, C s → C' s) : Triple P' m Q' C' := fun s hs =>
  wp_mono hQ hC (h s (hP s hs))

theorem Triple.ite {c : Prop} [Decidable c] {m₁ m₂ : Cut σ α} (h₁ : c → Triple P m₁ Q C)
    (h₂ : ¬ c → Triple P m₂ Q C) : Triple P (if c then m₁ else m₂) Q C := by
  intro s hs
  rw [wp_ite]
  exact ⟨fun hc => h₁ hc s hs, fun hc => h₂ hc s hs⟩

/-- The facts of two triples about one computation hold together. -/
theorem Triple.and (h : Triple P m Q C) (h' : Triple P' m Q' C') :
    Triple (fun s => P s ∧ P' s) m (fun a s => Q a s ∧ Q' a s) (fun s => C s ∧ C' s) :=
  fun s hs => wp_and (h s hs.1) (h' s hs.2)

/-- The loop rule: a round either goes on with the invariant or ends with the postcondition. -/
theorem Triple.repeatUntil {measure : σ → Nat} {body : Cut σ (Option α)}
    (h : Triple P body (fun r s => match r with | some a => Q a s | none => P s) C)
    (hC : ∀ s, P s → C s) : Triple P (Cut.repeatUntil measure body) Q C := by
  intro s hs
  have hrounds : ∀ n, Triple P (rounds body n) Q C := by
    intro n
    induction n with
    | zero => exact Triple.halt hC
    | succ n ih =>
      refine Triple.bind h fun r => ?_
      cases r with
      | some a => exact fun s hs => hs
      | none => exact ih
  exact hrounds _ s hs

/-! ### Invariants -/

/-- `m` preserves `I` when it finishes, and leaves a state with `C` where it is cut off. -/
def Keeps (I C : σ → Prop) (m : Cut σ α) : Prop := Triple I m (fun _ => I) C

theorem Keeps.pure (a : α) : Keeps I C (Pure.pure a : Cut σ α) := fun _ h => h

theorem Keeps.read (g : σ → α) : Keeps I C (Cut.read g) := fun _ h => h

theorem Keeps.update {g : σ → σ} (h : ∀ s, I s → I (g s)) : Keeps I C (Cut.update g) := h

theorem Keeps.halt (h : ∀ s, I s → C s) : Keeps I C (Cut.halt : Cut σ α) := h

theorem Keeps.bind (hm : Keeps I C m) (hf : ∀ a, Keeps I C (f a)) : Keeps I C (m >>= f) :=
  Triple.bind hm hf

theorem Keeps.ite {c : Prop} [Decidable c] {m₁ m₂ : Cut σ α} (h₁ : Keeps I C m₁)
    (h₂ : Keeps I C m₂) : Keeps I C (if c then m₁ else m₂) :=
  Triple.ite (fun _ => h₁) (fun _ => h₂)

theorem Keeps.when {c : Bool} {m : Cut σ Unit} (h : Keeps I C m) : Keeps I C (Cut.when c m) :=
  Keeps.ite h (Keeps.pure ())

/-- The cut-off states of an invariant may be described more weakly. -/
theorem Keeps.weaken (h : Keeps I C m) (hC : ∀ s, C s → C' s) : Keeps I C' m :=
  h.conseq (fun _ h => h) (fun _ _ h => h) hC

theorem Keeps.repeatUntil {measure : σ → Nat} {body : Cut σ (Option α)} (h : Keeps I C body)
    (hC : ∀ s, I s → C s) : Keeps I C (Cut.repeatUntil measure body) :=
  Triple.repeatUntil (h.conseq (fun _ h => h) (fun r _ h => by cases r <;> exact h) (fun _ h => h))
    hC

theorem Keeps.times {m : Cut σ Unit} (h : Keeps I C m) (n : Nat) : Keeps I C (Cut.times m n) := by
  induction n with
  | zero => exact Keeps.pure ()
  | succ n ih => exact Keeps.bind h fun _ => ih

/-- The rule for a number of rounds that each need a guard: it is enough that the guard holds
    wherever a round begins. -/
theorem wp_times_guarded {G : σ → Prop} {m : Cut σ Unit}
    (h : Triple (fun s => I s ∧ G s) m (fun _ => I) C) (n : Nat) (s : σ) (hs : I s)
    (hG : ∀ k < n, ∀ s', times m k s = (some (), s') → G s') :
    wp (times m n) (fun _ => I) C s := by
  induction n generalizing s with
  | zero => exact hs
  | succ n ih =>
    have hm := h s ⟨hs, hG 0 (Nat.succ_pos n) s rfl⟩
    refine wp_bind.2 ?_
    simp only [wp] at hm ⊢
    cases hrun : m s with
    | mk r s₁ =>
      simp only [hrun] at hm ⊢
      cases r with
      | none => exact hm
      | some u =>
        refine ih s₁ hm fun k hk s' hs' => hG (k + 1) (Nat.succ_lt_succ hk) s' ?_
        simp only [times, bind, hrun, hs']

/-- Where a sequence finishes, both of its parts do. -/
theorem bind_finished {f : α → Cut σ β} {b : β} {s t : σ} (h : (m >>= f) s = (some b, t)) :
    ∃ a u, m s = (some a, u) ∧ f a u = (some b, t) := by
  simp only [Bind.bind] at h
  cases hm : m s with
  | mk r u =>
    rw [hm] at h
    cases r with
    | none => cases h
    | some a => exact ⟨a, u, rfl, h⟩

/-- A sequence continues where its first part finishes. -/
theorem bind_of_finished {f : α → Cut σ β} {a : α} {s u : σ} (h : m s = (some a, u)) :
    (m >>= f) s = f a u := by
  simp only [Bind.bind, h]

/-- A sequence is cut off where its first part is. -/
theorem bind_of_cut {f : α → Cut σ β} {s u : σ} (h : m s = (none, u)) :
    (m >>= f) s = (none, u) := by
  simp only [Bind.bind, h]

instance : LawfulMonad (Cut σ) := LawfulMonad.mk' (Cut σ)
  (fun m => by
    funext s
    rcases hm : m s with ⟨_ | a, u⟩
    · exact bind_of_cut hm
    · exact bind_of_finished hm)
  (fun _ _ => rfl)
  (fun m f g => by
    funext s
    rcases hm : m s with ⟨_ | a, u⟩
    · rw [bind_of_cut hm]
      exact bind_of_cut (bind_of_cut hm)
    · rw [bind_of_finished hm]
      simp only [Bind.bind, hm])

/-- One round more may be counted as the last. -/
theorem times_succ (m : Cut σ Unit) (n : Nat) : times m (n + 1) = times m n >>= fun _ => m := by
  induction n with
  | zero =>
    show (m >>= fun _ => pure ()) = (pure () >>= fun _ => m)
    rw [pure_bind]
    exact bind_pure m
  | succ n ih =>
    show (m >>= fun _ => times m (n + 1)) = (m >>= fun _ => times m n) >>= fun _ => m
    rw [ih, bind_assoc]

/-- The last of a number of rounds that finish. -/
theorem times_last {m : Cut σ Unit} {n : Nat} {s t : σ} (h : times m (n + 1) s = (some (), t)) :
    ∃ u, times m n s = (some (), u) ∧ m u = (some (), t) := by
  rw [times_succ] at h
  obtain ⟨_, u, hn, hm⟩ := bind_finished h
  exact ⟨u, hn, hm⟩

theorem each_append (body : α → Cut σ Unit) (as bs : List α) :
    each body (as ++ bs) = each body as >>= fun _ => each body bs := by
  induction as with
  | nil => rfl
  | cons a as ih =>
    show (body a >>= fun _ => each body (as ++ bs)) =
      (body a >>= fun _ => each body as) >>= fun _ => each body bs
    rw [ih, bind_assoc]

/-- The invariant is asked for at the items of the list only. -/
theorem Keeps.each {body : α → Cut σ Unit} {as : List α} (h : ∀ a ∈ as, Keeps I C (body a)) :
    Keeps I C (Cut.each body as) := by
  induction as with
  | nil => exact Keeps.pure ()
  | cons a as ih =>
    exact Keeps.bind (h a List.mem_cons_self) fun _ =>
      ih fun b hb => h b (List.mem_cons_of_mem a hb)

/-- An item at which the body is always cut off ends the loop. -/
theorem Triple.each_cut {body : α → Cut σ Unit} {as : List α} {a : α} (ha : a ∈ as)
    (h : ∀ b ∈ as, Keeps I C (body b)) (hcut : Triple I (body a) (fun _ _ => False) C) :
    Triple I (Cut.each body as) (fun _ _ => False) C := by
  obtain ⟨before, after, rfl⟩ := List.append_of_mem ha
  rw [each_append]
  refine Triple.bind (Keeps.each fun b hb => h b (List.mem_append_left _ hb)) fun _ => ?_
  exact Triple.bind hcut fun _ _ hfalse => hfalse.elim

/-- What a number of rounds adds to a journal was added by one of them. -/
theorem times_entry {ε : Type} {g : σ → List ε} {P : σ → ε → Prop} {m : Cut σ Unit}
    (h : ∀ s, ∃ new, g (m s).2 = new ++ g s ∧ ∀ x ∈ new, P s x) {n : Nat} {s : σ} {x : ε}
    (hx : x ∈ g (times m n s).2) :
    x ∈ g s ∨ ∃ k < n, ∃ u, times m k s = (some (), u) ∧
      (∃ new, g (m u).2 = new ++ g u ∧ x ∈ new) ∧ P u x := by
  induction n with
  | zero => exact .inl hx
  | succ n ih =>
    have hearlier (hx : x ∈ g (times m n s).2) : x ∈ g s ∨ ∃ k < n + 1, ∃ u,
        times m k s = (some (), u) ∧ (∃ new, g (m u).2 = new ++ g u ∧ x ∈ new) ∧ P u x := by
      rcases ih hx with hx | ⟨k, hk, hu⟩
      · exact .inl hx
      · exact .inr ⟨k, Nat.lt_succ_of_lt hk, hu⟩
    rw [times_succ] at hx
    rcases hn : times m n s with ⟨_ | _, u⟩
    · -- an earlier round was the last
      rw [bind_of_cut hn] at hx
      refine hearlier ?_
      rw [hn]
      exact hx
    · rw [bind_of_finished hn] at hx
      obtain ⟨new, hnew, hP⟩ := h u
      rw [hnew] at hx
      rcases List.mem_append.1 hx with hx | hx
      · exact .inr ⟨n, Nat.lt_succ_self n, u, hn, ⟨new, hnew, hx⟩, hP x hx⟩
      · refine hearlier ?_
        rw [hn]
        exact hx

/-- What the second part of a sequence does not change is as the first part left it. -/
theorem proj_bind {γ : Type} {g : σ → γ} {f : α → Cut σ β} (h : ∀ a s, g (f a s).2 = g s)
    (m : Cut σ α) (s : σ) : g ((m >>= f) s).2 = g (m s).2 := by
  simp only [Bind.bind]
  cases m s with
  | mk r t =>
    cases r with
    | none => rfl
    | some a => exact h a t

/-! ### Lists of results that may be missing -/

section Mapped

variable {γ : Type} {f : α → Option β} {as : List α} {bs : List β}

theorem mapM_cons_eq_some_iff {a : α} : (a :: as).mapM f = some bs ↔
    ∃ b rest, f a = some b ∧ as.mapM f = some rest ∧ b :: rest = bs := by
  simp only [List.mapM_cons, Option.bind_eq_bind, Option.bind_eq_some_iff, Option.pure_def,
    Option.some.injEq]
  constructor
  · rintro ⟨b, hb, rest, hrest, rfl⟩
    exact ⟨b, rest, hb, hrest, rfl⟩
  · rintro ⟨b, rest, hb, hrest, rfl⟩
    exact ⟨b, hb, rest, hrest, rfl⟩

/-- Each result comes from one of the arguments. -/
theorem mem_of_mapM (h : as.mapM f = some bs) {b : β} (hb : b ∈ bs) : ∃ a ∈ as, f a = some b := by
  induction as generalizing bs with
  | nil =>
    cases h
    cases hb
  | cons a as ih =>
    obtain ⟨c, rest, hc, hrest, rfl⟩ := mapM_cons_eq_some_iff.1 h
    rcases List.mem_cons.1 hb with rfl | hb
    · exact ⟨a, List.mem_cons_self, hc⟩
    · obtain ⟨a', ha', hfa⟩ := ih hrest hb
      exact ⟨a', List.mem_cons_of_mem a ha', hfa⟩

/-- What each result shares with its argument, the lists share. -/
theorem map_of_mapM {g : α → γ} {k : β → γ} (hk : ∀ a ∈ as, ∀ b, f a = some b → k b = g a)
    (h : as.mapM f = some bs) : bs.map k = as.map g := by
  induction as generalizing bs with
  | nil =>
    cases h
    rfl
  | cons a as ih =>
    obtain ⟨b, rest, hb, hrest, rfl⟩ := mapM_cons_eq_some_iff.1 h
    rw [List.map_cons, List.map_cons, hk a List.mem_cons_self b hb,
      ih (fun a ha => hk a (List.mem_cons_of_mem _ ha)) hrest]

theorem mapM_isSome_iff : (as.mapM f).isSome ↔ ∀ a ∈ as, (f a).isSome := by
  induction as with
  | nil => exact iff_of_true rfl nofun
  | cons a as ih =>
    rw [List.forall_mem_cons, ← ih, List.mapM_cons]
    cases hfa : f a with
    | none => exact iff_of_false (nofun) fun h => absurd h.1 Bool.false_ne_true
    | some b => cases hrest : as.mapM f <;> simp

end Mapped

end Cut

end Waterbox
