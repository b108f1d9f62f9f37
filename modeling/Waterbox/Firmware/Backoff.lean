import Waterbox.Lib.Journal
import Waterbox.Firmware.Duty
import Waterbox.Firmware.Single
import Waterbox.Firmware.Timers

namespace Waterbox

/-!
# The pause after a failed call of the radio

After a `radio_.connect()` that fails the FSM waits in Idle, and after a `radio_.begin()` that fails
it waits in WaitModem.  The stamp from which it waits is the round's reading of the clock, which is
older than the call: `tickDisconnect` takes a fresh one after its call, these two do not.

* `BackoffRule` — a pause of the interval between the return of a failed call and the next call.
* `Hasty` — a round comes an interval after the beginning of the call, but not after its return.
* `WaterboxFsm.tick_backed` — a round that is not hasty keeps the rule.
* `WaterboxFsm.backoff_kept` — so does a run without hasty rounds.
-/

open Cut Clock

variable {F : Type}

/-! ### The rule -/

/-- What `radio_.connect()` returned. -/
def Event.connected? : Event F → Option Bool
  | .radioConnected ok => some ok
  | _ => none

/-- What `radio_.begin()` returned. -/
def Event.begun? : Event F → Option Bool
  | .radioBegun ok => some ok
  | _ => none

/-- What the last call returned, and when. -/
def lastReturn (returned : Event F → Option Bool) (log : List (Event F × Board F)) :
    Option (Bool × Nat) :=
  log.findSome? fun x => (returned x.1).map fun ok => (ok, x.2.time)

/-- The FSM is in Idle from `a`, where `connect()` has failed, to `c`, with the radio down from `a`
    on. -/
structure Paused (a c : Board F) (wait : List (Event F × Board F)) : Prop where
  idle : ∃ rest idle b, wait = rest ++ (.entered .connect, c) :: (idle ++ [(.entered .idle, b)]) ∧
    b.time = a.time ∧ ∀ y ∈ idle, y.2.fsm.state = .idle
  failed : Torn a
  torn : ∀ y ∈ wait, Torn y.2

/-- After a call that failed, the next call comes an interval later; after `connect()` the FSM
    spends the interval in Idle with the radio down. -/
structure BackoffRule (x : Event F × Board F) (past : List (Event F × Board F)) : Prop where
  connect : x.1 = .radioConnect → ∀ wait a older,
    past = wait ++ (.radioConnected false, a) :: older → (∀ y ∈ wait, y.1.connected? = none) →
    ∃ c, Paused a c wait ∧ a.time + Settings.publishIntervalMs.toNat ≤ c.time ∧ c.time ≤ x.2.time
  begun : x.1 = .radioBegin → ∀ wait a older,
    past = wait ++ (.radioBegun false, a) :: older → (∀ y ∈ wait, y.1.begun? = none) →
    a.time + Settings.simRetryMs.toNat ≤ x.2.time

/-- When the last call of the radio was made, if that was `radio_.connect()`. -/
def lastConnect (log : List (Event F × Board F)) : Option Nat :=
  match lastCall log with
  | some (.connect time) => some time
  | _ => none

/-- A call has failed, and at the time `time` the interval since its beginning has been over for
    less than the call lasted. -/
def TooSoon (interval time : Nat) : (called : Option Nat) → (last : Option (Bool × Nat)) → Prop
  | some called, some (false, returned) =>
    called + interval ≤ time ∧ time - (called + interval) < returned - called
  | _, _ => False

instance (interval time : Nat) (called : Option Nat) (last : Option (Bool × Nat)) :
    Decidable (TooSoon interval time called last) := by
  unfold TooSoon
  split <;> infer_instance

/-- The round that reads the clock in this state, after a call that failed, is late for the wait
    from the beginning of the call, but by less than the call lasted.  After a call that takes no
    time no round is. -/
def Hasty (s : Sys F) : Prop :=
  match s.board.fsm.state with
  | .waitModem =>
    TooSoon Settings.simRetryMs.toNat s.board.time (lastTry s.log)
      (lastReturn Event.begun? s.log)
  | .idle =>
    TooSoon Settings.publishIntervalMs.toNat s.board.time (lastConnect s.log)
      (lastReturn Event.connected? s.log)
  | _ => False

instance (s : Sys F) : Decidable (Hasty s) := by
  unfold Hasty
  split <;> infer_instance

/-- The last return in a log that shows it. -/
theorem lastReturn_split {returned : Event F → Option Bool} {wait older : List (Event F × Board F)}
    {x : Event F × Board F} {ok : Bool} (hx : returned x.1 = some ok)
    (hwait : ∀ y ∈ wait, returned y.1 = none) :
    lastReturn returned (wait ++ x :: older) = some (ok, x.2.time) := by
  have hnone : lastReturn returned wait = none := by
    simp only [lastReturn, List.findSome?_eq_none_iff]
    intro y hy
    rw [hwait y hy]
    rfl
  unfold lastReturn at hnone ⊢
  rw [List.findSome?_append, hnone, Option.none_or, List.findSome?_cons, hx]
  rfl

/-- A round that is not too soon after the beginning of the call comes an interval after its
    return. -/
theorem le_of_not_tooSoon {interval time called returned : Nat}
    (h : ¬TooSoon interval time (some called) (some (false, returned)))
    (hdue : called + interval ≤ time) : returned + interval ≤ time := by
  have hlate : ¬time - (called + interval) < returned - called := fun hlt => h ⟨hdue, hlt⟩
  omega

theorem TooSoon.late {interval time called : Nat} {last : Option (Bool × Nat)}
    (h : TooSoon interval time (some called) last) : called + interval ≤ time := by
  match last, h with
  | some (false, _), h => exact h.1

/-- Where in the log the last return stands. -/
theorem exists_of_lastReturn {returned : Event F → Option Bool} {past : List (Event F × Board F)}
    {ok : Bool} {time : Nat} (h : lastReturn returned past = some (ok, time)) :
    ∃ wait x older, past = wait ++ x :: older ∧ returned x.1 = some ok ∧ x.2.time = time ∧
      ∀ y ∈ wait, returned y.1 = none := by
  obtain ⟨wait, x, older, hpast, hx, hwait⟩ := List.findSome?_eq_some_iff.1 h
  obtain ⟨_, hret, heq⟩ := Option.map_eq_some_iff.1 hx
  cases heq
  exact ⟨wait, x, older, hpast, hret, rfl, fun y hy => Option.map_eq_none_iff.1 (hwait y hy)⟩

section

variable {x : Event F × Board F} {past : List (Event F × Board F)} (h : BackoffRule x past)
  {time : Nat}
include h

/-- The rule, for the call that returned last. -/
theorem BackoffRule.connect_le (hx : x.1 = .radioConnect)
    (hlast : lastReturn Event.connected? past = some (false, time)) :
    time + Settings.publishIntervalMs.toNat ≤ x.2.time := by
  obtain ⟨wait, ⟨ev, a⟩, older, hpast, hret, rfl, hwait⟩ := exists_of_lastReturn hlast
  cases ev <;> try cases hret
  obtain ⟨c, -, hlong, hle⟩ := h.connect hx wait a older hpast hwait
  exact hlong.trans hle

theorem BackoffRule.begin_le (hx : x.1 = .radioBegin)
    (hlast : lastReturn Event.begun? past = some (false, time)) :
    time + Settings.simRetryMs.toNat ≤ x.2.time := by
  obtain ⟨wait, ⟨ev, a⟩, older, hpast, hret, rfl, hwait⟩ := exists_of_lastReturn hlast
  cases ev <;> try cases hret
  exact h.begun hx wait a older hpast hwait

end

/-! ### Between two rounds -/

/-- The log keeps to the rule. -/
def Rules (s : Sys F) : Prop := Journal.Every BackoffRule s.log

/-- The last `connect()` did not fail. -/
def Unfailed (log : List (Event F × Board F)) : Prop :=
  ∀ wait a older, log = wait ++ (.radioConnected false, a) :: older →
    ∃ y ∈ wait, y.1.connected? ≠ none

/-- An event while the FSM waits. -/
def Uneventful (st : State) (y : Event F × Board F) : Prop :=
  y.1.isCycle = false ∧ y.1.entered? = none ∧ y.2.fsm.state = st ∧ Torn y.2

/-- After a `connect()` that failed: in Idle, and in Connect before the next one. -/
def Waiting (st : State) (s : Sys F) : Prop :=
  match st with
  | .idle => ∃ idle b a older called,
      s.log = idle ++ (.entered .idle, b) :: (.radioConnected false, a) :: older ∧
      (∀ y ∈ idle, Uneventful .idle y) ∧ b.time = a.time ∧ Torn a ∧ Torn b ∧
      lastCall older = some (.connect called)
  | .connect => ∃ rest c wait a older, s.log = rest ++ wait ++ (.radioConnected false, a) :: older ∧
      (∀ y ∈ rest, Uneventful .connect y) ∧ Paused a c wait ∧ (∀ y ∈ wait, y.1.connected? = none) ∧
      a.time + Settings.publishIntervalMs.toNat ≤ c.time ∧ c.time ≤ s.board.time
  | _ => False

/-- Between two rounds: the log keeps to the cycle and to the rule, and if the last `connect()`
    failed, the FSM waits. -/
structure Backed (st : State) (s : Sys F) : Prop extends Cycling st s where
  rules : Rules s
  pending : Unfailed s.log ∨ Waiting st s

section Rules

variable {s t : Sys F} {ev : Event F} {log : List (Event F × Board F)} {b : Board F}

theorem Uneventful.connected? {st : State} {y : Event F × Board F} (h : Uneventful st y) :
    y.1.connected? = none := by
  obtain ⟨⟨ev, b⟩, hev⟩ : ∃ x, x = y := ⟨y, rfl⟩
  have hcycle := h.1
  rw [← hev] at hcycle ⊢
  cases ev <;> first | rfl | cases hcycle

theorem Uneventful.isCall {st : State} {y : Event F × Board F} (h : Uneventful st y) :
    y.1.isCall = false := by
  obtain ⟨⟨ev, b⟩, hev⟩ : ∃ x, x = y := ⟨y, rfl⟩
  have hcycle := h.1
  rw [← hev] at hcycle ⊢
  cases ev <;> first | rfl | cases hcycle

/-- While the FSM waits, no call of the radio is made. -/
theorem lastCall_uneventful {st : State} {quiet : List (Event F × Board F)}
    (h : ∀ y ∈ quiet, Uneventful st y) : lastCall (quiet ++ log) = lastCall log := by
  induction quiet with
  | nil => rfl
  | cons y quiet ih =>
    rw [List.cons_append, lastCall_cons _ _ (h y List.mem_cons_self).isCall]
    exact ih fun z hz => h z (List.mem_cons_of_mem _ hz)

/-- Nor is a state entered, so the stamp stands. -/
theorem publishTime_uneventful {st : State} {quiet : List (Event F × Board F)}
    (h : ∀ y ∈ quiet, Uneventful st y) : publishTime (quiet ++ log) = publishTime log := by
  induction quiet with
  | nil => rfl
  | cons y quiet ih =>
    rw [List.cons_append, publishTime_cons _ _ (h y List.mem_cons_self).2.1]
    exact ih fun z hz => h z (List.mem_cons_of_mem _ hz)

/-- Only the two calls can break the rule. -/
theorem Rules.logged (h : Rules s) (hconnect : ev ≠ .radioConnect) (hbegin : ev ≠ .radioBegin) :
    Rules (s.logged ev) := ⟨⟨fun hev => absurd hev hconnect, fun hev => absurd hev hbegin⟩, h⟩

theorem Rules.other (h : Rules s) (hev : ev.isCycle = false) : Rules (s.logged ev) := by
  refine h.logged ?_ ?_
  · rintro rfl
    cases hev
  · rintro rfl
    cases hev

theorem Unfailed.cons (h : Unfailed log) (hev : ev ≠ .radioConnected false) :
    Unfailed ((ev, b) :: log) := by
  intro wait a older hlog
  cases wait with
  | nil =>
    cases hlog
    exact absurd rfl hev
  | cons x wait =>
    cases hlog
    obtain ⟨y, hy, hconnected⟩ := h wait a older rfl
    exact ⟨y, List.mem_cons_of_mem _ hy, hconnected⟩

theorem unfailed_connected : Unfailed ((.radioConnected true, b) :: log) := by
  intro wait a older hlog
  cases wait with
  | nil => cases hlog
  | cons x wait =>
    cases hlog
    exact ⟨_, List.mem_cons_self, nofun⟩

/-- While the last `connect()` did not fail, the rule asks nothing of the next one. -/
theorem Unfailed.rule (h : Unfailed log) (hbegin : ev ≠ .radioBegin) :
    BackoffRule (ev, b) log := by
  refine ⟨fun _ wait a older hlog hwait => ?_, fun hev => absurd hev hbegin⟩
  obtain ⟨y, hy, hconnected⟩ := h wait a older hlog
  exact absurd (hwait y hy) hconnected

/-- The log keeps to the rule, and the last `connect()` did not fail. -/
def Clear (s : Sys F) : Prop := Rules s ∧ Unfailed s.log

/-- As long as `connect()` does not fail, everything but a call of `begin()` keeps the log clear. -/
theorem Clear.logged (h : Clear s) (hbegin : ev ≠ .radioBegin)
    (hconnected : ev ≠ .radioConnected false) : Clear (s.logged ev) :=
  ⟨⟨h.2.rule hbegin, h.1⟩, h.2.cons hconnected⟩

theorem Clear.other (h : Clear s) (hev : ev.isCycle = false) : Clear (s.logged ev) := by
  refine h.logged ?_ ?_
  · rintro rfl
    cases hev
  · rintro rfl
    cases hev

theorem Clear.rules (s : Sys F) (h : Clear s) : Rules s := h.1

/-- An invariant of the log that survives all events outside the cycle. -/
structure LogStable (I : Sys F → Prop) : Prop where
  frame : ∀ s t : Sys F, t.log = s.log → I s → I t
  other : ∀ (s : Sys F) ev, ev.isCycle = false → I s → I (s.logged ev)

section LogStable

variable {I : Sys F → Prop} (hI : LogStable I)
include hI

theorem LogStable.radioStable : RadioStable I where
  after s _ _ _ h := hI.frame s _ rfl h
  later s _ h := hI.frame s _ rfl h
  radio s _ _ h := hI.frame s _ rfl h
  packet s h := hI.other s _ rfl h
  command s _ h := hI.other s _ rfl h
  lowered s _ _ _ h := hI.frame s _ rfl h
  registered s _ _ h := hI.frame s _ rfl h
  opened s _ h := hI.frame s _ rfl h

theorem LogStable.serviceStable : ServiceStable I where
  toCommandStable := hI.radioStable.toCommandStable
  fsm s _ _ h := hI.frame s _ rfl h
  led s _ h := hI.frame s _ rfl h

theorem LogStable.deviceStable : DeviceStable I where
  flow s _ h := hI.frame s _ rfl h
  valve s _ _ h := hI.frame s _ rfl h
  store s _ h := hI.frame s _ rfl h
  eeprom s _ h := hI.frame s _ rfl h
  signature s _ h := hI.frame s _ rfl h
  own s ev hev h := hI.other s ev (by cases ev <;> simp_all [Event.isOwn, Event.isCycle]) h

end LogStable

theorem Rules.logStable : LogStable (F := F) Rules where
  frame s t hlog h := by
    show Journal.Every BackoffRule t.log
    rw [hlog]
    exact h
  other _ _ hev h := h.other hev

theorem Clear.logStable : LogStable (F := F) Clear where
  frame s t hlog h := by
    show Journal.Every BackoffRule t.log ∧ Unfailed t.log
    rw [hlog]
    exact h
  other _ _ hev h := h.other hev

/-- The last call of the radio. -/
def Called (k : RadioCall) (s : Sys F) : Prop := lastCall s.log = some k

theorem Called.logStable (k : RadioCall) : LogStable (F := F) (Called k) where
  frame s t hlog h := by
    show lastCall t.log = some k
    rw [hlog]
    exact h
  other s ev hev h := by
    have hcall : ev.isCall = false := by cases ev <;> first | rfl | cases hev
    exact (lastCall_cons _ _ hcall).trans h

/-- Since the state `s₀` the radio has been down and the log has grown by quiet events only. -/
structure Resting (st : State) (s₀ s : Sys F) : Prop extends Off st s where
  rules : Rules s
  grown : Grown (Uneventful st) s₀.log s
  since : s₀.board.time ≤ s.board.time

variable {st : State} {s₀ : Sys F}

theorem Resting.cut (s : Sys F) (h : Resting st s₀ s) : Rules s := h.rules

theorem Resting.frame (h : Resting st s₀ s) (hlog : t.log = s.log)
    (hstate : t.board.fsm.state = s.board.fsm.state)
    (hmodem : t.board.radio.modem = s.board.radio.modem) (htime : s.board.time ≤ t.board.time) :
    Resting st s₀ t := by
  refine ⟨h.toOff.frame hlog hstate hmodem, Rules.logStable.frame s t hlog h.rules, ?_,
    h.since.trans htime⟩
  obtain ⟨new, hnew, hquiet⟩ := h.grown
  exact ⟨new, hlog.trans hnew, hquiet⟩

theorem Resting.other (h : Resting st s₀ s) (hev : ev.isCycle = false)
    (hentered : ev.entered? = none) : Resting st s₀ (s.logged ev) :=
  ⟨h.toOff.other hev, h.rules.other hev, h.grown.logged ⟨hev, hentered, h.state, h.torn⟩, h.since⟩

theorem Resting.commandStable : CommandStable (F := F) (Resting st s₀) where
  after _ _ _ _ h := h.frame rfl (congrArg WaterboxFsm.state (Board.after_fsm _ _))
    (congrArg GsmMqttClient.modem (Board.after_radio _ _))
    (by simp only [Sys.after, Board.after_time, Nat.le_add_right])
  later _ _ h := h.frame rfl rfl rfl (Nat.le_add_right _ _)
  radio _ _ hr h := h.frame rfl rfl hr le_rfl
  packet _ h := h.other rfl rfl
  command _ _ h := h.other rfl rfl

theorem Resting.verdictStable : VerdictStable (F := F) (Resting st s₀) where
  toCommandStable := Resting.commandStable
  verdict _ _ _ _ h := h.frame rfl rfl rfl le_rfl
  led _ _ h := h.frame rfl rfl rfl le_rfl

theorem Resting.deviceStable : DeviceStable (F := F) (Resting st s₀) where
  flow _ _ h := h.frame rfl rfl rfl le_rfl
  valve _ _ _ h := h.frame rfl rfl rfl le_rfl
  store _ _ h := h.frame rfl rfl rfl le_rfl
  eeprom _ _ h := h.frame rfl rfl rfl le_rfl
  signature _ _ h := h.frame rfl rfl rfl le_rfl
  own _ ev hev h := by
    refine h.other ?_ ?_
    · cases ev <;> first | rfl | cases hev
    · cases ev <;> first | rfl | cases hev

/-- Uneventful events prolong the wait. -/
theorem Waiting.grown (h : Waiting st s) (hgrown : Grown (Uneventful st) s.log t)
    (htime : s.board.time ≤ t.board.time) : Waiting st t := by
  obtain ⟨new, hnew, hquiet⟩ := hgrown
  cases st with
  | idle =>
    obtain ⟨idle, b, a, older, called, hlog, hidle, hrest⟩ := h
    refine ⟨new ++ idle, b, a, older, called, ?_, fun y hy => ?_, hrest⟩
    · rw [hnew, hlog, List.append_assoc]
    · rcases List.mem_append.1 hy with hy | hy
      · exact hquiet y hy
      · exact hidle y hy
  | connect =>
    obtain ⟨rest, c, wait, a, older, hlog, hrest, hpaused, hwait, hlong, hle⟩ := h
    refine ⟨new ++ rest, c, wait, a, older, ?_, fun y hy => ?_, hpaused, hwait, hlong,
      hle.trans htime⟩
    · rw [hnew, hlog, List.append_assoc, List.append_assoc, List.append_assoc]
    · rcases List.mem_append.1 hy with hy | hy
      · exact hquiet y hy
      · exact hrest y hy
  | _ => exact h.elim

/-- In Connect the next `connect()` may come. -/
theorem Waiting.rule (h : Waiting .connect s) : BackoffRule (.radioConnect, s.board) s.log := by
  obtain ⟨rest, c, wait, a, older, hlog, hrest, hpaused, hwait, hlong, hle⟩ := h
  refine ⟨fun _ wait' a' older' hlog' hwait' => ?_, nofun⟩
  rw [hlog] at hlog'
  have hnone : ∀ y ∈ rest ++ wait, y.1.connected? = none := by
    intro y hy
    rcases List.mem_append.1 hy with hy | hy
    · exact (hrest y hy).connected?
    · exact hwait y hy
  have hkind : ∀ l : List (Event F × Board F), (∀ y ∈ l, y.1.connected? = none) →
      ∀ y ∈ l, y.1.connected?.isSome = false := by
    intro l hl y hy
    rw [hl y hy]
    rfl
  -- the failed call is the newest one
  obtain ⟨hsame, hfailed, -⟩ := Journal.first_unique hlog' (p := fun y => y.1.connected?.isSome)
    (hkind _ hnone) (hkind _ hwait') rfl rfl
  cases hfailed
  obtain ⟨⟨closing, idle, b, hsplit, htime, hidle⟩, hfailed, htorn⟩ := hpaused
  refine ⟨c, ⟨⟨rest ++ closing, idle, b, ?_, htime, hidle⟩, hfailed, fun y hy => ?_⟩, hlong, hle⟩
  · rw [← hsame, hsplit, List.append_assoc]
  · rw [← hsame] at hy
    rcases List.mem_append.1 hy with hy | hy
    · exact (hrest y hy).2.2.2
    · exact htorn y hy

end Rules

/-! ### Rounds -/

namespace WaterboxFsm

variable [CFloat F] {st : State} {now : U32}

/-- The part of `tick()` before the `switch`. -/
def decision : Fw F U32 := do
  service
  millis

theorem tick_eq : (tick : Fw F Unit) =
    decision >>= fun now => look (·.fsm) >>= fun fsm => step now fsm.state := by
  rw [decision, bind_assoc]
  rfl

/-- Callbacks are outside the cycle. -/
theorem kept_clear : Kept (F := F) Clear Rules :=
  Kept.of_stable Clear.logStable.serviceStable.verdictStable Clear.rules
    Clear.logStable.deviceStable

theorem kept_rules : Kept (F := F) Rules Rules :=
  Kept.of_stable Rules.logStable.serviceStable.verdictStable (fun _ h => h)
    Rules.logStable.deviceStable

theorem kept_resting {s₀ : Sys F} : Kept (F := F) (Resting st s₀) Rules :=
  Kept.of_stable Resting.verdictStable Resting.cut Resting.deviceStable

omit [CFloat F] in
theorem waiting_down {s : Sys F} (h : Waiting st s) : st.phase = .down := by
  cases st <;> first | rfl | exact h.elim

/-- So is all that `service()` does. -/
theorem service_backed : Keeps (Backed st) Rules (service : Fw F Unit) := by
  intro s hs
  rcases hs.pending with hclear | hwaiting
  · refine wp_mono (fun _ t ht => ?_) (fun t ht => ?_)
      ((service_cycling.and kept_clear.service) s ⟨hs.toCycling, hs.rules, hclear⟩)
    · exact ⟨ht.1, ht.2.1, .inl ht.2.2⟩
    · exact ht.2
  · have hphase := waiting_down hwaiting
    refine wp_mono (fun _ t ht => ?_) (fun _ ht => ht)
      (kept_resting.service s ⟨hs.toCycling.off hphase, hs.rules, .refl s, le_rfl⟩)
    exact ⟨ht.toOff.cycling hphase, ht.rules, .inr (hwaiting.grown ht.grown ht.since)⟩

omit [CFloat F] in
theorem after_backed (s : Sys F) (e : Env) (rest : List Env) (_ : s.tape = e :: rest)
    (h : Backed st s) : Backed st (s.after e rest) := by
  have htime : s.board.time ≤ (s.board.after e).time := by
    rw [Board.after_time]
    exact Nat.le_add_right _ _
  have hgrown : Grown (Uneventful st) s.log (s.after e rest) := Grown.refl s
  refine ⟨h.toCycling.after e rest, Rules.logStable.frame s _ rfl h.rules, ?_⟩
  rcases h.pending with hclear | hwaiting
  · exact .inl hclear
  · exact .inr (hwaiting.grown hgrown htime)

/-- Up to the reading of the clock nothing happens that the rule is about. -/
theorem decision_backed : Triple (Backed st) (decision : Fw F U32)
    (fun now s => Backed st s ∧ now = BitVec.ofNat 32 s.board.time) Rules :=
  Triple.bind service_backed fun _ => millis_triple (fun _ h => h.rules) after_backed

/-- The stamps are as the log shows them when the clock is read. -/
theorem decision_ticks : Triple Ticks (decision : Fw F U32) (fun _ => Ticks) TickLog := by
  rintro s ⟨c, hsent, hs⟩
  refine Triple.bind kept_ticking.service (fun _ => ?_) s hs
  refine (millis_triple Ticking.tickLog Ticking.after).conseq (fun _ h => h) ?_ (fun _ h => h)
  exact fun _ t ht => ⟨c, hsent, ht.1⟩

/-- Between two rounds. -/
def Rested (s : Sys F) : Prop := ∃ st, Backed st s

omit [CFloat F] in
/-- Outside a wait. -/
theorem rested_of_clear {s : Sys F} (h : Cycles s ∧ Clear s) : Rested s := by
  obtain ⟨⟨st, hcycling⟩, hrules, hclear⟩ := h
  exact ⟨st, hcycling, hrules, .inl hclear⟩

omit [CFloat F] in
theorem enter_clear (next : State) : Keeps Clear Rules (enter next : Fw F Unit) :=
  Triple.bind (Q := fun _ => Clear) (fun _ h => h) fun _ => emit_keeps fun _ h => h.other rfl

omit [CFloat F] in
/-- A retry of `begin()` comes an interval after the beginning of the last call. -/
theorem Ticks.tried {s : Sys F} (h : Ticks s) {ok : Bool} {returned : Nat}
    (hlast : lastReturn Event.begun? s.log = some (ok, returned))
    (hover : Settings.simRetryMs ≤ BitVec.ofNat 32 s.board.time - s.board.fsm.lastModemTryMs) :
    ∃ called, lastTry s.log = some called ∧
      called + Settings.simRetryMs.toNat ≤ s.board.time := by
  obtain ⟨c, -, hc⟩ := h
  obtain ⟨wait, ⟨ev, a⟩, older, hlog, hret, -, -⟩ := exists_of_lastReturn hlast
  have htried : lastTry s.log ≠ none := by
    refine hc.begun (ev, a) ?_ ok ?_
    · rw [hlog]
      exact List.mem_append_right _ List.mem_cons_self
    · cases ev <;> cases hret
      rfl
  cases hc.modem with
  | halted x hnone => exact absurd hnone htried
  | armed b t hnone => exact absurd hnone htried
  | tried called htry hpassed =>
    have hdue := hpassed.stamp.due hpassed.le hover
    exact ⟨called, htry, by omega⟩

omit [CFloat F] in
/-- After a `connect()` that failed, the stamp is the beginning of the call. -/
theorem waiting_called {s : Sys F} (h : Waiting .idle s) (hticks : Ticks s) :
    ∃ called : Nat, lastConnect s.log = some called ∧
      Passed s.board.fsm.lastPublishMs called s.board.time := by
  obtain ⟨idle, b, a, older, called, hlog, hidle, -, -, -, hcalled⟩ := h
  obtain ⟨c, -, hc⟩ := hticks
  refine ⟨called, ?_, ?_⟩
  · have hcall : lastCall s.log = some (.connect called) := by
      rw [hlog, lastCall_uneventful hidle]
      exact hcalled
    simp only [lastConnect, hcall]
  · have htime : publishTime s.log = called := by
      rw [hlog, publishTime_uneventful hidle]
      show (lastCall older).elim 0 (RadioCall.idleTime b.time) = called
      rw [hcalled]
      rfl
    exact htime ▸ hc.publish

/-- The retry of `begin()`. -/
theorem tickWaitModem_clear (now : U32) :
    Triple (fun s => Clear s ∧ s.board.fsm.state = .waitModem ∧ Ticks s ∧ ¬Hasty s ∧
        now = BitVec.ofNat 32 s.board.time)
      (tickWaitModem now : Fw F Unit) (fun _ => Clear) Rules := by
  -- where the wait is over, the last call is an interval ago
  let Due (s : Sys F) : Prop := Clear s ∧ ∀ returned,
    lastReturn Event.begun? s.log = some (false, returned) →
    returned + Settings.simRetryMs.toNat ≤ s.board.time
  have hkeep : Triple Due (do
      emit .radioBegin
      let ok ← GsmMqttClient.begin handlers
      emit (.radioBegun ok)
      if ok then
        set fun fsm =>
          { fsm with
            lastPublishMs := now - Settings.publishIntervalMs
            lastHeartbeatMs := now - Settings.heartbeatIntervalMs }
        enter .idle
      else pure () : Fw F Unit) (fun _ => Clear) Rules := by
    refine Triple.bind (Q := fun _ => Clear) ?_ fun _ => ?_
    · rintro s ⟨hclear, hdue⟩
      have hrule : BackoffRule (.radioBegin, s.board) s.log := by
        refine ⟨nofun, fun _ wait a older hlog hwait => hdue _ ?_⟩
        rw [hlog]
        exact lastReturn_split rfl hwait
      exact ⟨⟨hrule, hclear.1⟩, hclear.2.cons nofun⟩
    refine Triple.bind (GsmMqttClient.begin_keeps Clear.logStable.radioStable.toModemStable
      Clear.rules kept_clear.service) fun ok => ?_
    refine Triple.bind (emit_keeps fun _ h => h.logged nofun nofun) fun _ => ?_
    refine Triple.ite (fun _ => ?_) fun _ => Keeps.pure ()
    exact Triple.bind (set_keeps Clear.logStable.serviceStable _ fun _ => rfl) fun _ =>
      enter_clear .idle
  refine look_bind fun b => Triple.ite (fun hover => ?_) fun _ => ?_
  · refine Triple.bind (Q := fun _ => Due) ?_ fun _ => hkeep
    rintro s ⟨⟨hclear, hstate, hticks, hhasty, rfl⟩, rfl⟩
    refine ⟨hclear, fun returned hlast => ?_⟩
    have hlast : lastReturn Event.begun? s.log = some (false, returned) := hlast
    obtain ⟨called, htry, hdue⟩ := hticks.tried hlast hover
    simp only [Hasty, hstate, hlast, htry] at hhasty
    exact le_of_not_tooSoon hhasty hdue
  · rintro s ⟨⟨hclear, -⟩, -⟩
    exact hclear

omit [CFloat F] in
/-- A wait that begins. -/
theorem waiting_idle {s : Sys F} {a : Board F} {older : List (Event F × Board F)} {called : Nat}
    (hlog : s.log = (.radioConnected false, a) :: older) (htime : s.board.time = a.time)
    (hfailed : Torn a) (hentered : Torn s.board)
    (hcalled : lastCall older = some (.connect called)) :
    Waiting .idle (s.logged (.entered .idle)) := by
  refine ⟨[], s.board, a, older, called, ?_, fun y hy => (nomatch hy), htime, hfailed, hentered,
    hcalled⟩
  show (Event.entered State.idle, s.board) :: s.log = _
  rw [hlog]
  rfl

omit [CFloat F] in
/-- A wait that ends. -/
theorem waiting_connect {s : Sys F} (h : Backed .idle s) (hwaiting : Waiting .idle s)
    (hticks : Ticks s) (hhasty : ¬Hasty s)
    (hover : Settings.publishIntervalMs ≤
      BitVec.ofNat 32 s.board.time - s.board.fsm.lastPublishMs) :
    Waiting .connect
      ((s.withFsm { s.board.fsm with state := .connect }).logged (.entered .connect)) := by
  obtain ⟨called, hconnect, hpassed⟩ := waiting_called hwaiting hticks
  obtain ⟨idle, b, a, older, -, hlog, hidle, htime, hfailed, hentered, -⟩ := hwaiting
  generalize hc : (s.withFsm { s.board.fsm with state := .connect }).board = c
  have htorn : Torn c := by
    rw [← hc]
    exact h.torn rfl
  have hsince : c.time = s.board.time := by
    rw [← hc]
    rfl
  have hsplit : s.log = (idle ++ [(.entered .idle, b)]) ++ (.radioConnected false, a) :: older := by
    rw [hlog, List.append_assoc]
    rfl
  have hquiet : ∀ y ∈ idle ++ [(.entered .idle, b)], y.1.connected? = none ∧ Torn y.2 := by
    intro y hy
    rcases List.mem_append.1 hy with hy | hy
    · exact ⟨(hidle y hy).connected?, (hidle y hy).2.2.2⟩
    · rw [List.mem_singleton.1 hy]
      exact ⟨rfl, hentered⟩
  have hpaused : Paused a c ((.entered .connect, c) :: (idle ++ [(.entered .idle, b)])) := by
    refine ⟨⟨[], idle, b, rfl, htime, fun y hy => (hidle y hy).2.2.1⟩, hfailed, fun y hy => ?_⟩
    rcases List.mem_cons.1 hy with rfl | hy
    · exact htorn
    · exact (hquiet y hy).2
  -- not `Hasty`: the pause was as long as the interval
  have hlong : a.time + Settings.publishIntervalMs.toNat ≤ c.time := by
    have hlast : lastReturn Event.connected? s.log = some (false, a.time) := by
      rw [hsplit]
      exact lastReturn_split rfl fun y hy => (hquiet y hy).1
    have hdue := hpassed.stamp.due hpassed.le hover
    simp only [Hasty, h.state, hlast, hconnect] at hhasty
    rw [hsince]
    exact le_of_not_tooSoon hhasty (by omega)
  refine ⟨[], c, (.entered .connect, c) :: (idle ++ [(.entered .idle, b)]), a, older, ?_,
    fun y hy => (nomatch hy), hpaused, fun y hy => ?_, hlong, hsince.le⟩
  · show (Event.entered State.connect, (s.withFsm { s.board.fsm with state := .connect }).board) ::
      s.log = _
    rw [hc, hsplit]
    rfl
  · rcases List.mem_cons.1 hy with rfl | hy
    · rfl
    · exact (hquiet y hy).1

omit [CFloat F] in
/-- A round in Idle that is not hasty goes on to Connect, if at all, an interval after the return of
    the failed call. -/
theorem tickIdle_backed (now : U32) :
    Triple (fun s => Backed .idle s ∧ Ticks s ∧ ¬Hasty s ∧ now = BitVec.ofNat 32 s.board.time)
      (tickIdle now : Fw F Unit) (fun _ => Rested) Rules := by
  rintro s ⟨hs, hticks, hhasty, hnow⟩
  rcases hs.pending with hclear | hwaiting
  · have hkeep : Keeps Clear Rules (tickIdle now : Fw F Unit) :=
      Keeps.bind (look_keeps _) fun _ => Keeps.ite (enter_clear _) (Keeps.pure _)
    refine wp_mono (fun _ t ht => rested_of_clear ht) (fun _ ht => ht.2)
      (((tickIdle_cycling now).and hkeep) s ⟨hs.toCycling.off rfl, hs.rules, hclear⟩)
  · have hwait : Triple (fun t => t = s) (tickIdle now : Fw F Unit)
        (fun _ t => Rules t ∧ Waiting t.board.fsm.state t) Rules := by
      refine look_bind fun b => Triple.ite (fun hover => ?_) fun _ => ?_
      · rintro t ⟨rfl, rfl⟩
        rw [hnow] at hover
        have hrules : Rules (t.withFsm { t.board.fsm with state := .connect }) := hs.rules
        exact ⟨hrules.other rfl, waiting_connect hs hwaiting hticks hhasty hover⟩
      · rintro _ ⟨rfl, -⟩
        exact ⟨hs.rules, hs.state ▸ hwaiting⟩
    refine wp_mono (fun _ t ht => ?_) (fun _ ht => ht.2)
      (((tickIdle_cycling now).and hwait) s ⟨hs.toCycling.off rfl, rfl⟩)
    obtain ⟨⟨st, hcycling⟩, hrules, hstill⟩ := ht
    exact ⟨st, hcycling, hrules, .inr (hcycling.state ▸ hstill)⟩

omit [CFloat F] in
/-- A hasty round in Idle does end the wait, where the clock has not come around since the call. -/
theorem idle_due_of_hasty {s : Sys F} (hwaiting : Waiting .idle s)
    (hstate : s.board.fsm.state = .idle) (hticks : Ticks s) (hhasty : Hasty s)
    (hwrap : ∀ called, lastConnect s.log = some called → s.board.time < called + 2 ^ 32) :
    Settings.publishIntervalMs ≤ BitVec.ofNat 32 s.board.time - s.board.fsm.lastPublishMs := by
  obtain ⟨called, hconnect, hpassed⟩ := waiting_called hwaiting hticks
  simp only [Hasty, hstate, hconnect] at hhasty
  have hlate := hhasty.late
  have hshort := hwrap called hconnect
  exact hpassed.stamp.due_of_le (by omega) (by omega)

omit [CFloat F] in
/-- So does one in WaitModem. -/
theorem waitModem_due_of_hasty {s : Sys F} (hstate : s.board.fsm.state = .waitModem)
    (hticks : Ticks s) (hhasty : Hasty s)
    (hwrap : ∀ called, lastTry s.log = some called → s.board.time < called + 2 ^ 32) :
    Settings.simRetryMs ≤ BitVec.ofNat 32 s.board.time - s.board.fsm.lastModemTryMs := by
  obtain ⟨c, -, hc⟩ := hticks
  simp only [Hasty, hstate] at hhasty
  cases hc.modem with
  | halted x hnone =>
    rw [hnone] at hhasty
    exact hhasty.elim
  | armed b t hnone =>
    rw [hnone] at hhasty
    exact hhasty.elim
  | tried t htry hpassed =>
    rw [htry] at hhasty
    have hlate := hhasty.late
    have hshort := hwrap t htry
    exact hpassed.stamp.due_of_le (by omega) (by omega)

/-- A call of `connect()`, and what follows when it fails. -/
theorem tickConnect_backed (now : U32) :
    Triple (Backed .connect) (tickConnect now : Fw F Unit) (fun _ => Rested) Rules := by
  -- what the call records, next to the state of the connection
  have hcall : Triple (Backed .connect) (tickConnect now : Fw F Unit)
      (fun _ t => Rules t ∧ (Unfailed t.log ∨ Waiting t.board.fsm.state t)) Rules := by
    refine Triple.bind (Q := fun _ s => ∃ called, (Off .connect s ∧ Rules s) ∧
      Called (.connect called) s) ?_ fun _ => ?_
    · intro s hs
      have hrule : BackoffRule (.radioConnect, s.board) s.log := by
        rcases hs.pending with hclear | hwaiting
        · exact hclear.rule nofun
        · exact hwaiting.rule
      exact ⟨s.board.time, ⟨(hs.toCycling.off rfl).logged rfl, hrule, hs.rules⟩, rfl⟩
    rintro s ⟨called, hs⟩
    have hcalled : RadioStable (F := F) (Called (.connect called)) :=
      (Called.logStable _).radioStable
    have hservice : Keeps (Called (.connect called)) (fun _ => True) (service : Fw F Unit) :=
      (Kept.of_stable (Called.logStable _).serviceStable.verdictStable (fun _ _ => trivial)
        (Called.logStable _).deviceStable).service
    refine Triple.bind ((((GsmMqttClient.connect_torn kept_at.service kept_off.service).and
      (GsmMqttClient.connect_keeps Rules.logStable.radioStable (fun _ h => h)
        kept_rules.service)).and (GsmMqttClient.connect_keeps hcalled (fun _ _ => trivial)
        hservice)).conseq (fun _ h => h) (fun _ _ h => h) fun _ h => h.1.2) (fun ok => ?_) s hs
    cases ok with
    | true =>
      refine Triple.bind (Q := fun _ => Clear) ?_ fun _ => ?_
      · exact fun s hs => ⟨hs.1.2.logged nofun nofun, unfailed_connected⟩
      · exact (enter_clear .publish).conseq (fun _ h => h) (fun _ _ h => ⟨h.1, .inl h.2⟩)
          fun _ h => h
    -- the failure opens a pause, which the state `idle` waits for
    | false =>
      rintro s ⟨⟨hoff, hrules⟩, hcalled⟩
      have hlogged : Rules ((s.logged (.radioConnected false)).withFsm
          { s.board.fsm with lastPublishMs := now, state := .idle }) := hrules.logged nofun nofun
      exact ⟨hlogged.other rfl, .inr (waiting_idle rfl rfl hoff.torn hoff.torn hcalled)⟩
  intro s hs
  refine wp_mono (fun _ t ht => ?_) (fun _ ht => ht.2)
    (((tickConnect_cycling now).and hcall) s ⟨hs.toCycling.off rfl, hs⟩)
  obtain ⟨⟨st, hcycling⟩, hrules, hpending⟩ := ht
  exact ⟨st, hcycling, hrules, hcycling.state ▸ hpending⟩

theorem tickPublish_clear (now : U32) : Keeps Clear Rules (tickPublish now : Fw F Unit) := by
  have hM : ModemStable (F := F) Clear := Clear.logStable.radioStable.toModemStable
  have hS : ServiceStable (F := F) Clear := Clear.logStable.serviceStable
  refine Keeps.bind (publishInfo_triple hM Clear.rules (fun _ _ _ h => h.other rfl)
    fun _ h => h.logged nofun nofun) fun _ => ?_
  refine Keeps.bind (publishTelemetry_triple hM Clear.rules (fun _ _ _ h => h.other rfl)
    fun _ h => h.logged nofun nofun) fun _ => ?_
  refine Keeps.bind (Keeps.when (persistNow_stable hM.toPortStable Clear.rules
    Clear.logStable.deviceStable)) fun _ => ?_
  refine Keeps.bind (heartbeatIfDue_keeps hM Clear.rules (fun _ _ _ h => h.other rfl) hS
    (fun _ _ h => h.other rfl) now) fun _ => ?_
  refine Keeps.bind (hM.millis Clear.rules) fun _ => ?_
  exact Keeps.bind (set_keeps hS _ fun _ => rfl) fun _ => enter_clear _

theorem tickListen_clear (now : U32) : Keeps Clear Rules (tickListen now : Fw F Unit) := by
  refine Keeps.bind (emit_keeps fun _ h => h.other rfl) fun _ => ?_
  refine Keeps.bind (GsmMqttClient.loop_keeps Clear.logStable.radioStable.toModemStable Clear.rules
    kept_clear.handlers) fun _ => ?_
  exact Keeps.bind (look_keeps _) fun _ => Keeps.ite (enter_clear _) (Keeps.pure _)

omit [CFloat F] in
theorem tickDisconnect_clear : Keeps Clear Rules (tickDisconnect : Fw F Unit) := by
  have hM : ModemStable (F := F) Clear := Clear.logStable.radioStable.toModemStable
  refine Keeps.bind (emit_keeps fun _ h => h.logged nofun nofun) fun _ => ?_
  refine Keeps.bind (GsmMqttClient.disconnect_keeps hM Clear.rules) fun _ => ?_
  refine Keeps.bind (hM.millis Clear.rules) fun _ => ?_
  exact Keeps.bind (set_keeps Clear.logStable.serviceStable _ fun _ => rfl) fun _ => enter_clear _

/-- Wherever `service()` and the reading of the clock leave the round, it is not hasty. -/
def Patient (s : Sys F) : Prop := ∀ now t, decision s = (some now, t) → ¬Hasty t

instance (s : Sys F) : Decidable (Patient s) :=
  match h : decision s with
  | (some now, t) => decidable_of_iff (¬Hasty t) <| by
      refine ⟨fun hhasty now' t' hrun => ?_, fun hpatient => hpatient now t h⟩
      rw [h] at hrun
      cases hrun
      exact hhasty
  | (none, t) => isTrue fun now' t' hrun => by
      rw [h] at hrun
      cases hrun

/-- One round. -/
theorem tick_backed :
    Triple (fun s => Rested s ∧ Ticks s ∧ Patient s) (tick : Fw F Unit) (fun _ => Rested)
      Rules := by
  rintro s ⟨⟨st, hs⟩, hticks, hpatient⟩
  rw [tick_eq]
  refine wp_bind.2 (wp_mono ?_ (fun _ h => h.1)
    (wp_run ((decision_backed.and decision_ticks) s ⟨hs, hticks⟩)))
  rintro now t ⟨hrun, ⟨ht, hnow⟩, hticks⟩
  have hhasty : ¬Hasty t := hpatient now t hrun
  show wp (step now t.board.fsm.state) _ _ t
  rw [ht.state]
  -- outside Idle and Connect the rule asks nothing of `connect()`
  have hclear : ∀ {m : Fw F Unit} {P : Sys F → Prop}, Triple P m (fun _ => Cycles) OnCycle → P t →
      Triple (fun u => u = t) m (fun _ => Clear) Rules → wp m (fun _ => Rested) Rules t := by
    intro m P hcycling hP hm
    exact wp_mono (fun _ u hu => rested_of_clear hu) (fun _ hu => hu.2)
      ((hcycling.and hm) t ⟨hP, rfl⟩)
  have hkeep : ∀ {m : Fw F Unit}, ¬Waiting st t → Keeps Clear Rules m →
      Triple (fun u => u = t) m (fun _ => Clear) Rules := by
    rintro m hwaiting hm _ rfl
    exact hm _ ⟨ht.rules, ht.pending.resolve_right hwaiting⟩
  cases st with
  | haltAuth => exact hclear (stay_off rfl) (ht.toCycling.off rfl) (hkeep id (Keeps.pure ()))
  | waitModem =>
    refine hclear (tickWaitModem_cycling now) (ht.toCycling.off rfl) ?_
    rintro t rfl
    exact tickWaitModem_clear now t
      ⟨⟨ht.rules, ht.pending.resolve_right id⟩, ht.state, hticks, hhasty, hnow⟩
  | idle => exact tickIdle_backed now t ⟨ht, hticks, hhasty, hnow⟩
  | connect => exact tickConnect_backed now t ht
  | publish => exact hclear (tickPublish_cycling now) ht.toAt (hkeep id (tickPublish_clear now))
  | listen => exact hclear (tickListen_cycling now) ht.toAt (hkeep id (tickListen_clear now))
  | disconnect => exact hclear tickDisconnect_cycling ht.toAt (hkeep id tickDisconnect_clear)

/-! ### Runs -/

omit [CFloat F] in
theorem clear_nil {s : Sys F} (h : s.log = []) : Clear s := by
  refine ⟨?_, ?_⟩
  · show Journal.Every BackoffRule s.log
    rw [h]
    exact Journal.every_nil
  · rw [h]
    intro wait a older hlog
    cases wait <;> cases hlog

/-- After the boot nothing has failed yet. -/
theorem begin_rested : Triple (fun s : Sys F => s.log = [] ∧ Torn s.board) (begin : Fw F Unit)
    (fun _ => Rested) Rules := by
  have hkeep : Triple (fun s : Sys F => s.log = []) (begin : Fw F Unit) (fun _ => Clear) Rules := by
    refine begin_cleared ?_
    refine Triple.bind (Q := fun _ => Clear) ?_ fun _ => Keeps.ite ?_ (enter_clear _)
    · refine Triple.conseq (restore_keeps (I := Clear) Clear.rules (fun _ _ _ _ h => h)
        (fun _ _ h => h) (fun _ _ _ h => h) (fun _ _ h => h) (fun _ h => h) (fun _ _ h => h)
        (fun _ _ h => h)) ?_ (fun _ _ h => h) (fun _ h => h)
      rintro _ ⟨s₀, hs, rfl⟩
      exact clear_nil hs
    · refine Keeps.bind (enter_clear _) fun _ => ?_
      refine Keeps.bind (Clear.logStable.radioStable.millis Clear.rules) fun _ => ?_
      exact set_keeps Clear.logStable.serviceStable _ fun _ => rfl
  exact fun s hs => wp_mono (fun _ _ ht => rested_of_clear ht) (fun _ ht => ht.2)
    ((begin_cycling.and hkeep) s ⟨hs, hs.1⟩)

/-- In every run in which no round comes, after the interval from the beginning of a failed call,
    by less than the call lasted too late: after a `connect()` that fails, `PUBLISH_INTERVAL_MS`
    pass in Idle with the radio down before the next one, and after a `begin()` that fails,
    `SIM_RETRY_MS` pass before the next one. -/
theorem backoff_kept (eeprom : Nat → U8) (latch : Bool) (start : Nat) (tape : List Env) (n : Nat)
    (hpatient : ∀ k < n, ∀ s,
      firmware (F := F) k (Sys.powerUp eeprom latch start tape) = (some (), s) → Patient s) :
    let log := (firmware (F := F) n (Sys.powerUp eeprom latch start tape)).2.log
    ∀ newer x past, log = newer ++ x :: past → BackoffRule x past := by
  intro log
  have hrules : Rules (firmware (F := F) n (Sys.powerUp eeprom latch start tape)).2 := by
    have hbegin := begin_rested (F := F) (Sys.powerUp eeprom latch start tape) ⟨rfl, rfl, rfl⟩
    rcases hrun : begin (F := F) (Sys.powerUp eeprom latch start tape) with ⟨_ | _, u⟩
    · rw [wp, hrun] at hbegin
      rw [firmware, bind_of_cut hrun]
      exact hbegin
    · rw [wp, hrun] at hbegin
      rw [firmware, bind_of_finished hrun]
      refine wp_snd (wp_mono (fun _ _ h => Exists.elim h fun _ h => h.rules) (fun _ h => h)
        (wp_times_guarded tick_backed n u hbegin fun k hk s hs => ?_))
      have hs' : firmware (F := F) k (Sys.powerUp eeprom latch start tape) = (some (), s) := by
        rw [firmware, bind_of_finished hrun]
        exact hs
      have hticks := firmware_ticks (F := F) eeprom latch start tape k
      rw [wp, hs'] at hticks
      exact ⟨hticks, hpatient k hk s hs'⟩
  exact Journal.every_iff.1 hrules

/-- A broker that refuses every connection, over a network that answers at once or slowly. -/
def refusing (elapsed : Nat) : Env :=
  { willing with packet := some (.connack 5), elapsed := elapsed }

/-- The radio answers at once, and the round after the first `connect()` takes more than
    a minute. -/
def lateRound : List Env :=
  List.replicate 271 (refusing 100) ++ refusing 70000 :: List.replicate 60 (refusing 100)

theorem backoff_kept_lateRound :
    let log := (firmware (F := Single) 7 (Sys.powerUp blank false 0 lateRound)).2.log
    ∀ newer x past, log = newer ++ x :: past → BackoffRule x past := by
  refine backoff_kept blank false 0 lateRound 7 fun k hk s hs => ?_
  have hall : ∀ k < 7,
      Patient (firmware (F := Single) k (Sys.powerUp blank false 0 lateRound)).2 := by
    decide +kernel
  have hk := hall k hk
  rw [hs] at hk
  exact hk

/-- Whether the log has come to a call of `connect()`, resp. of `begin()`, and when. -/
def called (log : List (Event F × Board F)) : Option (Bool × Nat) :=
  log.head?.bind fun x =>
    match x.1 with
    | .radioConnect => some (true, x.2.time)
    | .radioBegin => some (false, x.2.time)
    | _ => none

omit [CFloat F] in
theorem called_spec {log : List (Event F × Board F)} {radio : Bool} {t : Nat}
    (h : called log = some (radio, t)) :
    ∃ b past, log = (if radio then .radioConnect else .radioBegin, b) :: past ∧ b.time = t := by
  cases log with
  | nil => cases h
  | cons x past =>
    obtain ⟨ev, b⟩ := x
    cases ev <;> simp [called] at h
    all_goals
      obtain ⟨rfl, rfl⟩ := h
      exact ⟨b, past, rfl, rfl⟩

/-- The log of a run with a network whose every answer takes a second. -/
def slowRun (e : Env) (n : Nat) : List (Event Single × Board Single) :=
  (firmware 9 (Sys.powerUp blank false 0 (List.replicate n { e with elapsed := 1000 }))).2.log

/-- With a broker that refuses every connection, a `connect()` of 190 s is repeated after 14 s; with
    a modem that does not answer, a `begin()` of 579 s after 7 s. -/
theorem backoff_broken :
    (¬∀ newer x past, slowRun (refusing 0) 242 = newer ++ x :: past → BackoffRule x past) ∧
    ¬∀ newer x past, slowRun { willing with ok := false } 369 = newer ++ x :: past →
      BackoffRule x past := by
  constructor
  · intro h
    have hcalled : called (slowRun (refusing 0) 242) = some (true, 267600) := by decide +kernel
    have hlast : lastReturn Event.connected? (slowRun (refusing 0) 242).tail =
        some (false, 253600) := by decide +kernel
    obtain ⟨b, past, hlog, htime⟩ := called_spec hcalled
    rw [hlog] at hlast
    have hle : 253600 + 60000 ≤ b.time := (h [] _ past hlog).connect_le rfl hlast
    omega
  · intro h
    have hcalled : called (slowRun { willing with ok := false } 369) = some (false, 598000) := by
      decide +kernel
    have hlast : lastReturn Event.begun? (slowRun { willing with ok := false } 369).tail =
        some (false, 591000) := by decide +kernel
    obtain ⟨b, past, hlog, htime⟩ := called_spec hcalled
    rw [hlog] at hlast
    have hle : 591000 + 30000 ≤ b.time := (h [] _ past hlog).begin_le rfl hlast
    omega

end WaterboxFsm

end Waterbox
