import Mathlib.Data.List.Basic

namespace Waterbox

/-!
# Journals

A journal is a list of entries, newest first.

* `Every R` — each entry stands in the relation `R` to what was written before it.
* `every_iff` — the same, said of the places where the journal can be taken apart.
* `first_unique` — the newest entry of a kind is one.
-/

namespace Journal

variable {ε : Type} {R : ε → List ε → Prop} {x y : ε} {log : List ε}

/-- Each entry stands in a relation to what was written before it. -/
def Every (R : ε → List ε → Prop) : List ε → Prop
  | [] => True
  | x :: log => R x log ∧ Every R log

theorem every_nil : Every R [] := trivial

theorem every_cons : Every R (x :: log) ↔ R x log ∧ Every R log := Iff.rfl

/-- The rule, at any place in the log. -/
theorem every_iff : Every R log ↔ ∀ newer x older, log = newer ++ x :: older → R x older := by
  induction log with
  | nil => exact iff_of_true trivial fun newer x older h => by cases newer <;> cases h
  | cons y log ih =>
    rw [every_cons, ih]
    constructor
    · rintro ⟨hy, hlog⟩ newer x older h
      cases newer with
      | nil =>
        cases h
        exact hy
      | cons z newer =>
        cases h
        exact hlog newer x older rfl
    · intro h
      exact ⟨h [] y log rfl, fun newer x older hlog => h (y :: newer) x older (by rw [hlog]; rfl)⟩

/-- The newest entry of a kind, with what was written after it and before it. -/
theorem first_unique {p : ε → Bool} {l l' r r' : List ε} (h : l ++ x :: r = l' ++ y :: r')
    (hl : ∀ z ∈ l, p z = false) (hl' : ∀ z ∈ l', p z = false) (hx : p x = true) (hy : p y = true) :
    l = l' ∧ x = y ∧ r = r' := by
  induction l generalizing l' with
  | nil =>
    cases l' with
    | nil =>
      cases h
      exact ⟨rfl, rfl, rfl⟩
    | cons z l' =>
      cases h
      exact absurd hx (by rw [hl' x List.mem_cons_self]; exact Bool.false_ne_true)
  | cons z l ih =>
    cases l' with
    | nil =>
      cases h
      exact absurd hy (by rw [hl y List.mem_cons_self]; exact Bool.false_ne_true)
    | cons z' l' =>
      obtain ⟨rfl, htail⟩ := List.cons.inj h
      obtain ⟨rfl, hrest⟩ := ih htail (fun w hw => hl w (List.mem_cons_of_mem _ hw))
        (fun w hw => hl' w (List.mem_cons_of_mem _ hw))
      exact ⟨rfl, hrest⟩

end Journal

end Waterbox
