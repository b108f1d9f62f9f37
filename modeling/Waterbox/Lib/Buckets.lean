import Mathlib.Algebra.BigOperators.Group.Finset.Basic
import Mathlib.Algebra.BigOperators.Ring.Finset
import Mathlib.Order.Monotone.Basic

namespace Waterbox

/-!
# Histories in buckets

A history is a list of samples in the order of a key and of a value, such as the readings of a
counter.  Each bucket holds the samples of one key.

* `spread` — the largest value of a list minus the smallest.
* `growth` — the last value of a history minus the first.
* `crossings` — the part of it that falls between two buckets.
* `sum_spread` — the spreads of the buckets add up to the growth without the crossings.
-/

namespace Buckets

/-- Two filters, one after the other. -/
theorem filter_and {α : Type} {p q r : α → Prop} [DecidablePred p] [DecidablePred q]
    [DecidablePred r] {xs : List α} (h : ∀ x, r x ↔ p x ∧ q x) :
    (xs.filter fun x => p x).filter (fun x => q x) = xs.filter fun x => r x := by
  rw [List.filter_filter]
  refine List.filter_congr fun x _ => ?_
  rw [← Bool.decide_and, decide_eq_decide, h x, and_comm]

/-- The largest number minus the smallest. -/
def spread (ns : List Int) : Int :=
  match ns.max?, ns.min? with
  | some hi, some lo => hi - lo
  | _, _ => 0

theorem spread_singleton (n : Int) : spread [n] = 0 := sub_self n

/-- The smallest and the largest number of a list. -/
theorem exists_bounds {ns : List Int} (h : ns ≠ []) :
    ∃ lo hi, (lo ∈ ns ∧ hi ∈ ns) ∧ (∀ k ∈ ns, lo ≤ k ∧ k ≤ hi) ∧ spread ns = hi - lo := by
  obtain ⟨hi, hmax⟩ := Option.ne_none_iff_exists'.1 (mt List.max?_eq_none_iff.1 h)
  obtain ⟨lo, hmin⟩ := Option.ne_none_iff_exists'.1 (mt List.min?_eq_none_iff.1 h)
  obtain ⟨hhi, hupper⟩ := List.max?_eq_some_iff.1 hmax
  obtain ⟨hlo, hlower⟩ := List.min?_eq_some_iff.1 hmin
  refine ⟨lo, hi, ⟨hlo, hhi⟩, fun k hk => ⟨hlower k hk, hupper k hk⟩, ?_⟩
  simp only [spread, hmax, hmin]

/-- The spread is known from two values that have all others between them. -/
theorem spread_eq {ns : List Int} {lo hi : Int} (hlo : lo ∈ ns) (hhi : hi ∈ ns)
    (hall : ∀ k ∈ ns, lo ≤ k ∧ k ≤ hi) : spread ns = hi - lo := by
  obtain ⟨lo', hi', ⟨hlo', hhi'⟩, hall', hspread⟩ := exists_bounds (List.ne_nil_of_mem hlo)
  have hlow := hall lo' hlo'
  have hhigh := hall hi' hhi'
  have hlow' := hall' lo hlo
  have hhigh' := hall' hi hhi
  omega

/-- The spread depends on which values there are. -/
theorem spread_congr {ns ms : List Int} (h : ∀ n, n ∈ ns ↔ n ∈ ms) : spread ns = spread ms := by
  have hmax : ns.max? = ms.max? := by
    refine Option.ext fun hi => ?_
    simp only [List.max?_eq_some_iff, h]
  have hmin : ns.min? = ms.min? := by
    refine Option.ext fun lo => ?_
    simp only [List.min?_eq_some_iff, h]
  rw [spread, spread, hmax, hmin]

theorem spread_nonneg (ns : List Int) : 0 ≤ spread ns := by
  by_cases h : ns = []
  · rw [h]
    exact le_rfl
  · obtain ⟨lo, hi, ⟨hlo, -⟩, hall, hspread⟩ := exists_bounds h
    have := (hall lo hlo).2
    omega

theorem spread_le_append {ns : List Int} (h : ns ≠ []) (ms : List Int) :
    spread ns ≤ spread (ns ++ ms) := by
  obtain ⟨lo, hi, ⟨hlo, hhi⟩, -, hspread⟩ := exists_bounds h
  obtain ⟨lo', hi', -, hall', hspread'⟩ :=
    exists_bounds (List.append_ne_nil_of_left_ne_nil h ms)
  have hlow := (hall' lo (List.mem_append_left ms hlo)).1
  have hhigh := (hall' hi (List.mem_append_left ms hhi)).2
  omega

/-- More numbers leave the spread as it is if and only if none is outside of the others. -/
theorem spread_append_eq_iff {ns ms : List Int} (h : ns ≠ []) :
    spread (ns ++ ms) = spread ns ↔ ∀ k ∈ ms, (∃ a ∈ ns, a ≤ k) ∧ ∃ b ∈ ns, k ≤ b := by
  obtain ⟨lo, hi, ⟨hlo, hhi⟩, hall, hspread⟩ := exists_bounds h
  obtain ⟨lo', hi', ⟨hlo', hhi'⟩, hall', hspread'⟩ :=
    exists_bounds (List.append_ne_nil_of_left_ne_nil h ms)
  have hlow := (hall' lo (List.mem_append_left ms hlo)).1
  have hhigh := (hall' hi (List.mem_append_left ms hhi)).2
  rw [hspread, hspread']
  constructor
  · intro heq k hk
    have hk' := hall' k (List.mem_append_right ns hk)
    exact ⟨⟨lo, hlo, by omega⟩, ⟨hi, hhi, by omega⟩⟩
  · intro hbetween
    -- neither bound moves, since each is one of the old values or between two of them
    have hfirst : lo ≤ lo' := by
      rcases List.mem_append.1 hlo' with hmem | hmem
      · exact (hall lo' hmem).1
      · obtain ⟨⟨a, ha, hle⟩, -⟩ := hbetween lo' hmem
        exact (hall a ha).1.trans hle
    have hlast : hi' ≤ hi := by
      rcases List.mem_append.1 hhi' with hmem | hmem
      · exact (hall hi' hmem).2
      · obtain ⟨-, b, hb, hle⟩ := hbetween hi' hmem
        exact hle.trans (hall b hb).2
    omega

/-- A smaller number in front of the smallest. -/
theorem spread_cons {m n : Int} {ns : List Int} (hmn : m ≤ n) (hn : ∀ k ∈ ns, n ≤ k) :
    spread (m :: n :: ns) = spread (n :: ns) + (n - m) := by
  obtain ⟨hi, hmax⟩ := Option.ne_none_iff_exists'.1
    (mt List.max?_eq_none_iff.1 (List.cons_ne_nil n ns))
  obtain ⟨hmem, hall⟩ := List.max?_eq_some_iff.1 hmax
  have hnhi : n ≤ hi := hall n List.mem_cons_self
  have hmax' : (m :: n :: ns).max? = some hi := by
    refine List.max?_eq_some_iff.2 ⟨List.mem_cons_of_mem _ hmem, fun k hk => ?_⟩
    rcases List.mem_cons.1 hk with rfl | hk
    · exact hmn.trans hnhi
    · exact hall k hk
  -- `m` is the new minimum, and the maximum stays
  have hmin : (n :: ns).min? = some n := by
    refine List.min?_eq_some_iff.2 ⟨List.mem_cons_self, fun k hk => ?_⟩
    rcases List.mem_cons.1 hk with rfl | hk
    · exact le_refl _
    · exact hn k hk
  have hmin' : (m :: n :: ns).min? = some m := by
    refine List.min?_eq_some_iff.2 ⟨List.mem_cons_self, fun k hk => ?_⟩
    rcases List.mem_cons.1 hk with rfl | hk
    · exact le_refl _
    · rcases List.mem_cons.1 hk with rfl | hk
      · exact hmn
      · exact hmn.trans (hn k hk)
  simp only [spread, hmax, hmax', hmin, hmin']
  omega

section History

variable {α β : Type} [LinearOrder β] (key : α → β) (value : α → Int)

/-- The keys of the samples. -/
def keys (xs : List α) : Finset β := (xs.map key).toFinset

/-- The samples of one key. -/
def bucket (b : β) (xs : List α) : List α := xs.filter fun x => key x = b

/-- The last value minus the first. -/
def growth (xs : List α) : Int :=
  match xs.head?, xs.getLast? with
  | some a, some b => value b - value a
  | _, _ => 0

/-- The steps from a sample to the next one in another bucket. -/
def crossings : List α → Int
  | a :: b :: xs => (if key a = key b then 0 else value b - value a) + crossings (b :: xs)
  | _ => 0

/-- Samples in the order of keys and values. -/
def Ordered (xs : List α) : Prop := xs.Pairwise fun a b => key a ≤ key b ∧ value a ≤ value b

variable {key value} {a b : α} {xs ys : List α}

theorem keys_cons : keys key (a :: xs) = insert (key a) (keys key xs) := by
  simp only [keys, List.map_cons, List.toFinset_cons]

theorem mem_keys {k : β} : k ∈ keys key xs ↔ ∃ x ∈ xs, key x = k := by
  simp only [keys, List.mem_toFinset, List.mem_map]

theorem keys_perm (h : xs.Perm ys) : keys key xs = keys key ys :=
  List.toFinset_eq_of_perm _ _ (h.map key)

theorem bucket_perm (h : xs.Perm ys) (k : β) : (bucket key k xs).Perm (bucket key k ys) :=
  h.filter _

theorem bucket_cons_eq {k : β} (h : key a = k) : bucket key k (a :: xs) = a :: bucket key k xs :=
  List.filter_cons_of_pos (decide_eq_true h)

theorem bucket_cons_ne {k : β} (h : key a ≠ k) : bucket key k (a :: xs) = bucket key k xs :=
  List.filter_cons_of_neg (by simpa using h)

theorem growth_cons :
    growth value (a :: b :: xs) = growth value (b :: xs) + (value b - value a) := by
  simp only [growth, List.head?_cons, List.getLast?_cons_cons]
  cases hlast : (b :: xs).getLast? with
  | none => exact absurd (List.getLast?_eq_none_iff.1 hlast) (List.cons_ne_nil b xs)
  | some c =>
    show value c - value a = value c - value b + (value b - value a)
    omega

/-- The spreads of the buckets add up to the growth without the crossings. -/
theorem sum_spread (h : Ordered key value xs) :
    ∑ k ∈ keys key xs, spread ((bucket key k xs).map value) =
      growth value xs - crossings key value xs := by
  induction xs with
  | nil => rfl
  | cons a xs ih =>
    have ih := ih h.of_cons
    have hfirst : ∀ x ∈ xs, key a ≤ key x ∧ value a ≤ value x := fun _ hx =>
      List.rel_of_pairwise_cons h hx
    cases xs with
    | nil =>
      have hkeys : keys key [a] = {key a} := rfl
      rw [hkeys, Finset.sum_singleton, bucket_cons_eq rfl]
      simp [bucket, spread_singleton, growth, crossings]
    | cons b xs =>
      have hsecond : ∀ x ∈ xs, key b ≤ key x ∧ value b ≤ value x := fun _ hx =>
        List.rel_of_pairwise_cons h.of_cons hx
      rw [growth_cons, crossings]
      by_cases hkey : key a = key b
      · -- the bucket of `a` grows by the step to `b`
        have hmem : key a ∈ keys key (b :: xs) :=
          mem_keys.2 ⟨b, List.mem_cons_self, hkey.symm⟩
        have hstep : ∀ k ∈ keys key (b :: xs),
            spread ((bucket key k (a :: b :: xs)).map value) =
              spread ((bucket key k (b :: xs)).map value) +
                if key a = k then value b - value a else 0 := by
          intro k _
          by_cases hk : key a = k
          · rw [bucket_cons_eq hk, bucket_cons_eq (hkey ▸ hk), if_pos hk, List.map_cons,
              List.map_cons]
            refine spread_cons (hfirst b List.mem_cons_self).2 fun v hv => ?_
            obtain ⟨x, hx, rfl⟩ := List.mem_map.1 hv
            exact (hsecond x (List.mem_of_mem_filter hx)).2
          · rw [bucket_cons_ne hk, if_neg hk, add_zero]
        rw [keys_cons, Finset.insert_eq_of_mem hmem, Finset.sum_congr rfl hstep,
          Finset.sum_add_distrib, Finset.sum_ite_eq, if_pos hmem, if_pos hkey, ih]
        omega
      · -- `a` is alone in its bucket, and the step to `b` is a crossing
        have hnot : key a ∉ keys key (b :: xs) := by
          intro hmem
          obtain ⟨x, hx, hxa⟩ := mem_keys.1 hmem
          have hab := (hfirst b List.mem_cons_self).1
          rcases List.mem_cons.1 hx with rfl | hx
          · exact hkey hxa.symm
          · exact hkey (le_antisymm hab (hxa ▸ (hsecond x hx).1))
        have halone : bucket key (key a) (b :: xs) = [] := by
          refine List.filter_eq_nil_iff.2 fun x hx hxa => ?_
          exact hnot (mem_keys.2 ⟨x, hx, of_decide_eq_true hxa⟩)
        have hrest : ∀ k ∈ keys key (b :: xs),
            spread ((bucket key k (a :: b :: xs)).map value) =
              spread ((bucket key k (b :: xs)).map value) := by
          intro k hk
          have hak : key a ≠ k := by
            rintro rfl
            exact hnot hk
          rw [bucket_cons_ne hak]
        rw [keys_cons, Finset.sum_insert hnot, Finset.sum_congr rfl hrest, bucket_cons_eq rfl,
          halone, List.map_singleton, spread_singleton, if_neg hkey, ih]
        omega

end History

end Buckets

end Waterbox
