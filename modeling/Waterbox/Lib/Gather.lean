import Mathlib.Data.List.Basic

namespace Waterbox

/-!
# Reading from a port until enough has come

A loop polls a port: each round it takes at most one element from what has arrived, until what it
has read satisfies a test, a limit is reached, or the wait is over.

* `Shortest` — the prefix of a text at which the test is passed first.
* `gather_eq` — in a wait that is long enough, how the elements are spread over the rounds makes no
  difference: the loop reads the shortest prefix that passes the test.
-/

namespace Gather

variable {α : Type*}

/-- One round of the loop: whether the wait is over, and what has arrived since the last round. -/
structure Poll (α : Type*) where
  late : Bool
  arrived : List α

/-- Everything that arrives in some rounds. -/
def arrivals (polls : List (Poll α)) : List α := polls.flatMap (·.arrived)

@[simp] theorem arrivals_nil : arrivals ([] : List (Poll α)) = [] := rfl

@[simp] theorem arrivals_cons (p : Poll α) (ps : List (Poll α)) :
    arrivals (p :: ps) = p.arrived ++ arrivals ps := rfl

/-- What the loop leaves: the elements read, those still in the port, the rounds not used, and
    whether the test was passed. -/
structure Outcome (α : Type*) where
  buffer : List α
  port : List α
  rest : List (Poll α)
  passed : Bool

/-- The loop, with `port` arrived and `buffer` read; `none` where the rounds run out first. -/
def gather (test : List α → Bool) (limit : Nat) :
    List (Poll α) → List α → List α → Option (Outcome α)
  | [], _, _ => none
  | p :: ps, port, buffer =>
    if !p.late && decide (buffer.length < limit) then
      match port ++ p.arrived with
      | [] => gather test limit ps [] buffer
      | c :: port =>
        if test (buffer ++ [c]) then some ⟨buffer ++ [c], port, ps, true⟩
        else gather test limit ps port (buffer ++ [c])
    else some ⟨buffer, port ++ p.arrived, ps, false⟩

variable {test : List α → Bool} {limit : Nat}

/-- A round in which nothing is there to read. -/
theorem gather_idle {p : Poll α} {ps : List (Poll α)} {port buffer : List α}
    (hlate : p.late = false) (hlimit : buffer.length < limit) (hport : port ++ p.arrived = []) :
    gather test limit (p :: ps) port buffer = gather test limit ps [] buffer := by
  rw [gather, hlate, if_pos (by simp [hlimit]), hport]

/-- A round in which an element is read. -/
theorem gather_read {p : Poll α} {ps : List (Poll α)} {port port' buffer : List α} {c : α}
    (hlate : p.late = false) (hlimit : buffer.length < limit)
    (hport : port ++ p.arrived = c :: port') :
    gather test limit (p :: ps) port buffer =
      if test (buffer ++ [c]) then some ⟨buffer ++ [c], port', ps, true⟩
      else gather test limit ps port' (buffer ++ [c]) := by
  rw [gather, hlate, if_pos (by simp [hlimit]), hport]

/-- A round in which the loop ends without a read. -/
theorem gather_end {p : Poll α} {ps : List (Poll α)} {port buffer : List α}
    (h : ¬ (p.late = false ∧ buffer.length < limit)) :
    gather test limit (p :: ps) port buffer = some ⟨buffer, port ++ p.arrived, ps, false⟩ := by
  rw [gather, if_neg (by simpa using h)]

/-- The first `k` elements are the shortest part of a text that passes the test. -/
structure Shortest (test : List α → Bool) (text : List α) (k : Nat) : Prop where
  pos : 0 < k
  le : k ≤ text.length
  passes : test (text.take k) = true
  first : ∀ j, 0 < j → j < k → test (text.take j) = false

/-- What comes behind makes no difference. -/
theorem Shortest.append {text : List α} (h : Shortest test text text.length) (later : List α) :
    Shortest test (text ++ later) text.length where
  pos := h.pos
  le := by
    rw [List.length_append]
    omega
  passes := by
    have hall := h.passes
    rw [List.take_length] at hall
    rwa [List.take_left]
  first := fun j hj hj' => by
    rw [List.take_append_of_le_length (Nat.le_of_lt hj')]
    exact h.first j hj hj'

/-- The loop reads the shortest part of the text that passes, and no more. -/
def Finds (test : List α → Bool) (limit k : Nat) (text : List α) (polls : List (Poll α))
    (port buffer : List α) : Prop :=
  ∃ port' rest, gather test limit polls port buffer = some ⟨text.take k, port', rest, true⟩ ∧
    port' ++ arrivals rest = text.drop k

/-- One round that is not late, with what the next rounds find. -/
theorem finds_round {p : Poll α} {ps : List (Poll α)} {port buffer text : List α} {k : Nat}
    (hlate : p.late = false) (hk : Shortest test text k) (hlimit : k ≤ limit)
    (hbuffer : buffer.length < k) (htext : buffer ++ (port ++ arrivals (p :: ps)) = text)
    (hnext : ∀ port' buffer', buffer' ++ port' = buffer ++ (port ++ p.arrived) →
      buffer'.length < k → (port ++ p.arrived ≠ [] → buffer'.length = buffer.length + 1) →
        Finds test limit k text ps port' buffer') :
    Finds test limit k text (p :: ps) port buffer := by
  have hgo : buffer.length < limit := Nat.lt_of_lt_of_le hbuffer hlimit
  rw [arrivals_cons, ← List.append_assoc port] at htext
  rw [Finds]
  cases hport : port ++ p.arrived with
  | nil =>
    rw [gather_idle hlate hgo hport]
    exact hnext [] buffer (by rw [hport]) hbuffer (absurd hport)
  | cons c port' =>
    have hlen : (buffer ++ [c]).length = buffer.length + 1 := List.length_append
    rw [hport, List.cons_append, List.append_cons] at htext
    have htake : text.take (buffer.length + 1) = buffer ++ [c] := by
      rw [← htext, ← hlen, List.take_left]
    rw [gather_read hlate hgo hport]
    by_cases hlast : buffer.length + 1 = k
    · have hpass : test (buffer ++ [c]) = true := by
        rw [← htake, hlast]
        exact hk.passes
      refine ⟨port', ps, ?_, ?_⟩
      · rw [if_pos hpass, ← htake, hlast]
      · rw [← htext, ← hlast, ← hlen, List.drop_left]
    · have hfail : test (buffer ++ [c]) = false := by
        rw [← htake]
        exact hk.first _ (Nat.succ_pos _) (by omega)
      rw [if_neg (Bool.eq_false_iff.1 hfail)]
      exact hnext port' (buffer ++ [c]) (by rw [hport, ← List.append_cons]) (by omega) fun _ => hlen

/-- With the text in the port, `k` rounds are enough. -/
theorem finds_of_port {polls : List (Poll α)} {port buffer text : List α} {k : Nat}
    (hlate : ∀ p ∈ polls, p.late = false) (hk : Shortest test text k) (hlimit : k ≤ limit)
    (hbuffer : buffer.length < k) (htext : buffer ++ (port ++ arrivals polls) = text)
    (hport : k ≤ (buffer ++ port).length) (hpolls : k ≤ buffer.length + polls.length) :
    Finds test limit k text polls port buffer := by
  induction polls generalizing port buffer with
  | nil =>
    rw [List.length_nil] at hpolls
    omega
  | cons p ps ih =>
    apply finds_round (hlate p List.mem_cons_self) hk hlimit hbuffer htext
    intro port' buffer' hsame hshort hread
    have hsome : port ++ p.arrived ≠ [] := by
      intro hnil
      rw [List.append_eq_nil_iff] at hnil
      rw [hnil.1, List.append_nil] at hport
      omega
    have hcount := congrArg List.length hsame
    rw [arrivals_cons, ← List.append_assoc port, ← List.append_assoc, ← hsame,
      List.append_assoc] at htext
    simp only [List.length_append, List.length_cons] at hcount hport hpolls
    apply ih (fun q hq => hlate q (List.mem_cons_of_mem p hq)) hshort htext
    · rw [List.length_append]
      omega
    · have := hread hsome
      omega

/-- Where the elements have arrived after the rounds `ps`, and `k` rounds follow, it makes no
    difference how they are spread over these rounds. -/
theorem gather_eq {ps qs : List (Poll α)} {text : List α} {k : Nat}
    (hlate : ∀ p ∈ ps ++ qs, p.late = false) (hk : Shortest test text k) (hlimit : k ≤ limit)
    (htext : arrivals (ps ++ qs) = text) (hps : k ≤ (arrivals ps).length) (hqs : k ≤ qs.length) :
    Finds test limit k text (ps ++ qs) [] [] := by
  suffices h : ∀ port buffer : List α, buffer.length < k →
      buffer ++ (port ++ arrivals (ps ++ qs)) = text →
      k ≤ (buffer ++ (port ++ arrivals ps)).length →
        Finds test limit k text (ps ++ qs) port buffer by
    exact h [] [] hk.pos htext hps
  clear htext hps
  induction ps with
  | nil =>
    intro port buffer hbuffer htext hport
    rw [arrivals_nil, List.append_nil] at hport
    exact finds_of_port hlate hk hlimit hbuffer htext hport (Nat.le_add_left_of_le hqs)
  | cons p ps ih =>
    intro port buffer hbuffer htext hport
    apply finds_round (hlate p List.mem_cons_self) hk hlimit hbuffer htext
    intro port' buffer' hsame hshort _
    have hcount := congrArg List.length hsame
    rw [arrivals_cons, ← List.append_assoc port, ← List.append_assoc, ← hsame,
      List.append_assoc] at hport
    rw [List.cons_append, arrivals_cons, ← List.append_assoc port, ← List.append_assoc, ← hsame,
      List.append_assoc] at htext
    exact ih (fun q hq => hlate q (List.mem_cons_of_mem p hq)) port' buffer' hshort htext hport

end Gather

end Waterbox
