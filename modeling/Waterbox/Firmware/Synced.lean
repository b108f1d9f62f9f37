import Waterbox.Firmware.Pulses

namespace Waterbox

/-!
# The EEPROM image and the live total and valve position

Three places save: `service()` when a save is due, a valve command, and the Publish state.  Two
dirty flags remember in between that the total has moved.

* `Synced` — outside `service()` and the handlers the image holds the live valve position, and
  the live total unless the store's dirty flag is set; where the flag is set, the image is behind.
* `sentRecords`, `unsavedRecords` — the records whose packets were written, and those whose packets
  were written after the image.
* `Ledger` — the records that were handed over while the flag was clear, and those that were sent
  before the last save, are covered by the image wherever the power fails, as long as no write is
  torn.
* `WaterboxFsm.firmware_inStep` — every boot of the firmware preserves both.
-/

open Cut

variable {F : Type}

/-- The valve position a boot restores: closed where `load()` fails. -/
def MeterStore.restoredValve (eeprom : Nat → U8) : Bool :=
  match MeterStore.stored eeprom with
  | some (_, valveOpen) => valveOpen
  | none => false

/-- `load()` after a `save()` that was written whole. -/
theorem MeterStore.restored_image (eeprom : Nat → U8) (pulses : U32) (v : Bool) :
    restoredTotal (writeBytes eeprom eepromBase (image pulses v)) = pulses ∧
      restoredValve (writeBytes eeprom eepromBase (image pulses v)) = v := by
  rw [restoredTotal, restoredValve, stored_image]
  exact ⟨rfl, rfl⟩

/-- A record of a volume, handed over while nothing was unsaved. -/
def Event.CleanRecord (x : Event F × Board F) : Prop :=
  x.1.totalMl?.isSome ∧ x.2.store.dirty = false

/-- A record of a volume, handed over while the total was unsaved. -/
def Event.DirtyRecord (x : Event F × Board F) : Prop :=
  x.1.totalMl?.isSome ∧ x.2.store.dirty = true

/-! ### Packets -/

/-- The record of a volume whose packet may follow: since it was handed over only AT commands, those
    of the clock, were sent. -/
def pendingRecord : List (Event F × Board F) → Option (Event F × Board F)
  | (.telemetry r, b) :: _ => some (.telemetry r, b)
  | (.heartbeat r, b) :: _ => some (.heartbeat r, b)
  | (.atCommand _, _) :: log => pendingRecord log
  | _ => none

/-- The records of volumes whose PUBLISH packets have been written. -/
def sentRecords : List (Event F × Board F) → List (Event F × Board F)
  | [] => []
  | (.published _ _, _) :: log => (pendingRecord log).toList ++ sentRecords log
  | _ :: log => sentRecords log

/-- Those of them whose packets have been written since the image was. -/
def unsavedRecords : List (Event F × Board F) → List (Event F × Board F)
  | [] => []
  | (.saved, _) :: _ => []
  | (.published _ _, _) :: log => (pendingRecord log).toList ++ unsavedRecords log
  | _ :: log => unsavedRecords log

def Event.isPublished : Event F → Bool
  | .published _ _ => true
  | _ => false

section Packets

variable {x : Event F × Board F} {log : List (Event F × Board F)} {ev : Event F} {b : Board F}

/-- Only a packet can add to what was sent. -/
theorem sentRecords_cons (h : ev.isPublished = false) :
    sentRecords ((ev, b) :: log) = sentRecords log := by
  cases ev <;> first | rfl | cases h

/-- And only a packet or a save changes what was sent since the last save. -/
theorem unsavedRecords_cons (h : ev.isPublished = false) (hsaved : ev ≠ .saved) :
    unsavedRecords ((ev, b) :: log) = unsavedRecords log := by
  cases ev <;> first | cases h; done | exact absurd rfl hsaved | rfl

theorem pendingRecord_mem (h : pendingRecord log = some x) : x ∈ log ∧ x.1.totalMl?.isSome := by
  induction log with
  | nil => cases h
  | cons y log ih =>
    obtain ⟨ev, b⟩ := y
    cases ev with
    | telemetry r =>
      cases h
      exact ⟨List.mem_cons_self, rfl⟩
    | heartbeat r =>
      cases h
      exact ⟨List.mem_cons_self, rfl⟩
    | atCommand c =>
      obtain ⟨hmem, hvolume⟩ := ih h
      exact ⟨List.mem_cons_of_mem _ hmem, hvolume⟩
    | _ => cases h

/-- Only records of volumes are sent. -/
theorem sentRecords_mem (h : x ∈ sentRecords log) : x ∈ log ∧ x.1.totalMl?.isSome := by
  induction log with
  | nil => cases h
  | cons y log ih =>
    obtain ⟨ev, b⟩ := y
    by_cases hev : ev.isPublished = true
    · cases ev with
      | published topic payload =>
        have hpending : x ∈ log ∧ x.1.totalMl?.isSome := by
          rcases List.mem_append.1 h with h | h
          · exact pendingRecord_mem (Option.mem_toList.1 h)
          · exact ih h
        exact ⟨List.mem_cons_of_mem _ hpending.1, hpending.2⟩
      | _ => cases hev
    · rw [sentRecords_cons (Bool.eq_false_iff.2 hev)] at h
      exact ⟨List.mem_cons_of_mem _ (ih h).1, (ih h).2⟩

/-- What was sent since the last save was sent. -/
theorem sentRecords_of_unsaved (h : x ∈ unsavedRecords log) : x ∈ sentRecords log := by
  induction log with
  | nil => cases h
  | cons y log ih =>
    obtain ⟨ev, b⟩ := y
    cases ev with
    | saved => cases h
    | published topic payload =>
      rcases List.mem_append.1 h with h | h
      · exact List.mem_append_left _ h
      · exact List.mem_append_right _ (ih h)
    | _ => exact ih h

end Packets

/-! ### The image -/

/-- The events after which a power cycle may be considered. -/
def Event.isCallback : Event F → Bool
  | .commanded _ | .fingerprinted => true
  | _ => false

/-- The image holds the valve position, and the total unless the store is dirty. -/
structure Board.Saved (b : Board F) : Prop where
  valve : MeterStore.restoredValve b.eeprom = b.valve.isOpen
  total : b.store.dirty = false → MeterStore.restoredTotal b.eeprom = b.flow.totalPulses

/-- No 32-bit count has wrapped since the boot. -/
def Sys.Unwrapped (base : U32) (s : Sys F) : Prop := base.toNat + s.board.edges < 2 ^ 32

/-- What the log says about the image.  `W` is the assumption that no write is torn. -/
structure Book (W : Prop) (base : U32) (s : Sys F) : Prop where
  whole : W → ∀ e ∈ s.tape, e.torn = none
  clean : W → s.Unwrapped base → ∀ x ∈ s.log, Event.CleanRecord x →
    x.2.flow.totalPulses ≤ MeterStore.restoredTotal s.board.eeprom
  behind : s.Unwrapped base → ∀ x ∈ s.log, Event.DirtyRecord x →
    MeterStore.restoredTotal x.2.eeprom < x.2.flow.totalPulses
  saved : ∀ x ∈ s.log, x.1.isCallback = true → x.2.Saved
  ascending : s.Unwrapped base → (sentRecords s.log).Pairwise fun newer older =>
    older.2.flow.totalPulses ≤ newer.2.flow.totalPulses
  bounded : s.Unwrapped base → ∀ x ∈ sentRecords s.log,
    x.2.flow.totalPulses.toNat ≤ base.toNat + s.board.edges

/-- Also what was sent before the image was written is covered by it, and the image has not changed
    since the others were handed over. -/
structure Ledger (W : Prop) (base : U32) (s : Sys F) : Prop extends Book W base s where
  sent : W → s.Unwrapped base → ∀ x ∈ sentRecords s.log, x ∈ unsavedRecords s.log ∨
    x.2.flow.totalPulses ≤ MeterStore.restoredTotal s.board.eeprom
  kept : W → ∀ x ∈ unsavedRecords s.log,
    MeterStore.restoredTotal x.2.eeprom = MeterStore.restoredTotal s.board.eeprom

/-- No total has been sent that the live one has not reached. -/
def Covers (base : U32) (s : Sys F) : Prop :=
  s.Unwrapped base → ∀ x ∈ sentRecords s.log, x.2.flow.totalPulses ≤ s.board.flow.totalPulses

/-- Outside `service()` and the handlers. -/
structure Synced (base : U32) (s : Sys F) : Prop where
  consumed : s.board.flow.dirty = false
  saved : s.board.Saved
  behind : s.Unwrapped base → s.board.store.dirty = true →
    MeterStore.restoredTotal s.board.eeprom < s.board.flow.totalPulses

section Frames

variable {W : Prop} {base : U32} {s s' : Sys F}

theorem Sys.Unwrapped.mono (h : s'.Unwrapped base) (hedges : s.board.edges ≤ s'.board.edges) :
    s.Unwrapped base := Nat.lt_of_le_of_lt (Nat.add_le_add_left hedges _) h

theorem Covers.frame (h : Covers base s) (hedges : s.board.edges ≤ s'.board.edges)
    (htotal : s'.board.flow.totalPulses = s.board.flow.totalPulses)
    (hsent : sentRecords s'.log = sentRecords s.log) : Covers base s' := by
  intro hu
  rw [hsent, htotal]
  exact h (hu.mono hedges)

theorem Book.frame (h : Book W base s) (htape : s'.tape ⊆ s.tape)
    (hedges : s.board.edges ≤ s'.board.edges) (heeprom : s'.board.eeprom = s.board.eeprom)
    (hlog : s'.log = s.log) : Book W base s' where
  whole hW e he := h.whole hW e (htape he)
  clean hW hu := by
    rw [hlog, heeprom]
    exact h.clean hW (hu.mono hedges)
  behind hu := by
    rw [hlog]
    exact h.behind (hu.mono hedges)
  saved := by
    rw [hlog]
    exact h.saved
  ascending hu := by
    rw [hlog]
    exact h.ascending (hu.mono hedges)
  bounded hu x hx := by
    rw [hlog] at hx
    exact (h.bounded (hu.mono hedges) x hx).trans (Nat.add_le_add_left hedges _)

theorem Ledger.frame (h : Ledger W base s) (htape : s'.tape ⊆ s.tape)
    (hedges : s.board.edges ≤ s'.board.edges) (heeprom : s'.board.eeprom = s.board.eeprom)
    (hlog : s'.log = s.log) : Ledger W base s' where
  toBook := h.toBook.frame htape hedges heeprom hlog
  sent hW hu := by
    rw [hlog, heeprom]
    exact h.sent hW (hu.mono hedges)
  kept := by
    rw [hlog, heeprom]
    exact h.kept

/-- An entry that is no packet. -/
theorem Book.logged (h : Book W base s) {ev : Event F} (hpacket : ev.isPublished = false)
    (hclean : W → s.Unwrapped base → Event.CleanRecord (ev, s.board) →
      s.board.flow.totalPulses ≤ MeterStore.restoredTotal s.board.eeprom)
    (hdirty : s.Unwrapped base → Event.DirtyRecord (ev, s.board) →
      MeterStore.restoredTotal s.board.eeprom < s.board.flow.totalPulses)
    (hcallback : ev.isCallback = true → s.board.Saved) : Book W base (s.logged ev) := by
  have hsent : sentRecords (s.logged ev).log = sentRecords s.log := sentRecords_cons hpacket
  refine ⟨h.whole, fun hW hu x hx hK => ?_, fun hu x hx hK => ?_, fun x hx hc => ?_, fun hu => ?_,
    fun hu x hx => ?_⟩
  · rcases List.mem_cons.1 hx with rfl | hx
    · exact hclean hW hu hK
    · exact h.clean hW hu x hx hK
  · rcases List.mem_cons.1 hx with rfl | hx
    · exact hdirty hu hK
    · exact h.behind hu x hx hK
  · rcases List.mem_cons.1 hx with rfl | hx
    · exact hcallback hc
    · exact h.saved x hx hc
  · rw [hsent]
    exact h.ascending hu
  · rw [hsent] at hx
    exact h.bounded hu x hx

/-- An entry that is neither a packet nor a write. -/
theorem Ledger.noted (h : Ledger W base s) {ev : Event F} (hpacket : ev.isPublished = false)
    (hsaved : ev ≠ .saved) (hbook : Book W base (s.logged ev)) : Ledger W base (s.logged ev) where
  toBook := hbook
  sent hW hu x hx := by
    have hlog : (s.logged ev).log = (ev, s.board) :: s.log := rfl
    rw [hlog, sentRecords_cons hpacket] at hx
    rw [hlog, unsavedRecords_cons hpacket hsaved]
    exact h.sent hW hu x hx
  kept hW x hx := by
    have hlog : (s.logged ev).log = (ev, s.board) :: s.log := rfl
    rw [hlog, unsavedRecords_cons hpacket hsaved] at hx
    exact h.kept hW x hx

/-- An event that reports no volume leaves the books balanced; a callback may only come when the
    store is saved. -/
theorem Ledger.logged (h : Ledger W base s) {ev : Event F} (hev : ev.totalMl? = none)
    (hpacket : ev.isPublished = false) (hsaved : ev ≠ .saved)
    (hcallback : ev.isCallback = true → s.board.Saved) : Ledger W base (s.logged ev) := by
  have hnone : ¬ (ev.totalMl?.isSome = true) := by simp [hev]
  exact h.noted hpacket hsaved (h.toBook.logged hpacket (fun _ _ hK => absurd hK.1 hnone)
    (fun _ hK => absurd hK.1 hnone) hcallback)

/-- A record may be handed over where the image and the total are synced. -/
theorem Ledger.recorded (h : Ledger W base s) (hs : Synced base s) {ev : Event F}
    (hpacket : ev.isPublished = false) (hsaved : ev ≠ .saved) (hev : ev.isCallback = false) :
    Ledger W base (s.logged ev) := by
  refine h.noted hpacket hsaved (h.toBook.logged hpacket (fun _ _ hK => ?_) (fun hu hK => ?_)
    fun hc => ?_)
  · exact (hs.saved.total hK.2).symm ▸ BitVec.le_refl _
  · exact hs.behind hu hK.2
  · rw [hev] at hc
    cases hc

/-- The packet of the record in hand, if there is one, reports the live total. -/
theorem Ledger.published (h : Ledger W base s) (hcovers : Covers base s)
    (hbound : s.Unwrapped base → s.board.flow.totalPulses.toNat ≤ base.toNat + s.board.edges)
    (hpending : ∀ x, pendingRecord s.log = some x →
      x.2.flow.totalPulses = s.board.flow.totalPulses ∧
        MeterStore.restoredTotal x.2.eeprom = MeterStore.restoredTotal s.board.eeprom)
    (topic payload : CString) : Ledger W base (s.logged (.published topic payload)) := by
  have hnew : ∀ x ∈ (pendingRecord s.log).toList, x.2.flow.totalPulses = s.board.flow.totalPulses ∧
      MeterStore.restoredTotal x.2.eeprom = MeterStore.restoredTotal s.board.eeprom :=
    fun x hx => hpending x (Option.mem_toList.1 hx)
  refine ⟨⟨h.whole, fun hW hu x hx hK => ?_, fun hu x hx hK => ?_, fun x hx hc => ?_, fun hu => ?_,
    fun hu x hx => ?_⟩, fun hW hu x hx => ?_, fun hW x hx => ?_⟩
  · rcases List.mem_cons.1 hx with rfl | hx
    · exact absurd hK.1 Bool.false_ne_true
    · exact h.clean hW hu x hx hK
  · rcases List.mem_cons.1 hx with rfl | hx
    · exact absurd hK.1 Bool.false_ne_true
    · exact h.behind hu x hx hK
  · rcases List.mem_cons.1 hx with rfl | hx
    · cases hc
    · exact h.saved x hx hc
  · refine List.pairwise_append.2 ⟨?_, h.ascending hu, fun x hx y hy => ?_⟩
    · cases pendingRecord s.log with
      | none => exact List.Pairwise.nil
      | some x => exact List.pairwise_singleton _ x
    · rw [(hnew x hx).1]
      exact hcovers hu y hy
  · rcases List.mem_append.1 hx with hx | hx
    · rw [(hnew x hx).1]
      exact hbound hu
    · exact h.bounded hu x hx
  · rcases List.mem_append.1 hx with hx | hx
    · exact .inl (List.mem_append_left _ hx)
    · exact (h.sent hW hu x hx).imp_left (List.mem_append_right _)
  · rcases List.mem_append.1 hx with hx | hx
    · exact (hnew x hx).2
    · exact h.kept hW x hx

theorem Synced.frame (h : Synced base s) (hdirty : s'.board.flow.dirty = s.board.flow.dirty)
    (htotal : s'.board.flow.totalPulses = s.board.flow.totalPulses)
    (hedges : s.board.edges ≤ s'.board.edges)
    (hstore : s'.board.store.dirty = s.board.store.dirty)
    (heeprom : s'.board.eeprom = s.board.eeprom) (hvalve : s'.board.valve = s.board.valve) :
    Synced base s' where
  consumed := hdirty.trans h.consumed
  saved := ⟨by rw [heeprom, hvalve, h.saved.valve], by
    rw [hstore, heeprom, htotal]
    exact h.saved.total⟩
  behind hu := by
    rw [hstore, heeprom, htotal]
    exact h.behind (Nat.lt_of_le_of_lt (Nat.add_le_add_left hedges _) hu)

end Frames

/-- The sensor's edges are only counted up. -/
theorem Board.edges_le_after (b : Board F) (e : Env) : b.edges ≤ (b.after e).edges := by
  unfold Board.after
  split
  · exact Nat.le_add_right _ _
  · exact Nat.le_refl _

/-- The invariant of the FSM between its calls. -/
structure InStep (W : Prop) (old : List (Event F × Board F)) (base : U32) (s : Sys F) : Prop where
  metered : Settled Event.CleanRecord old base s
  ledger : Ledger W base s
  covers : Covers base s
  synced : Synced base s

/-- Where a boot can be cut off after `begin()`. -/
structure CutOff (W : Prop) (old : List (Event F × Board F)) (base : U32) (s : Sys F) : Prop where
  metered : Counting Event.CleanRecord old base s
  ledger : Ledger W base s

variable {W : Prop} {old : List (Event F × Board F)} {base : U32}

/-- The power may fail wherever the books are balanced. -/
theorem InStep.cutOff (s : Sys F) (h : InStep W old base s) : CutOff W old base s :=
  ⟨⟨0, h.metered⟩, h.ledger⟩

theorem Ledger.after {s : Sys F} (h : Ledger W base s) {e : Env} {rest : List Env}
    (htape : s.tape = e :: rest) : Ledger W base (s.after e rest) := by
  refine h.frame (fun x hx => ?_) (Board.edges_le_after _ _) (Board.after_eeprom _ _) rfl
  rw [htape]
  exact List.mem_cons_of_mem _ hx

theorem Synced.after {s : Sys F} (h : Synced base s) (e : Env) (rest : List Env) :
    Synced base (s.after e rest) :=
  h.frame (Board.after_dirty _ _) (Board.after_totalPulses _ _) (Board.edges_le_after _ _)
    (congrArg MeterStore.dirty (Board.after_store _ _)) (Board.after_eeprom _ _)
    (Board.after_valve _ _)

namespace InStep

variable {s s' : Sys F}

/-- Statements on other members leave the invariant alone. -/
theorem frame (h : InStep W old base s) (hflow : s'.board.flow = s.board.flow)
    (hattached : s'.board.attached = s.board.attached) (hedges : s'.board.edges = s.board.edges)
    (htape : s'.tape = s.tape) (hstore : s'.board.store.dirty = s.board.store.dirty)
    (heeprom : s'.board.eeprom = s.board.eeprom) (hvalve : s'.board.valve = s.board.valve)
    (hlog : s'.log = s.log) : InStep W old base s' where
  metered := h.metered.frame (by rw [hflow]) hattached hedges hlog
  ledger := h.ledger.frame (by rw [htape]; exact List.Subset.refl _) (by rw [hedges]) heeprom hlog
  covers := h.covers.frame (by rw [hedges]) (by rw [hflow]) (by rw [hlog])
  synced := h.synced.frame (by rw [hflow]) (by rw [hflow]) (by rw [hedges]) hstore heeprom hvalve

theorem after (h : InStep W old base s) {e : Env} {rest : List Env} (htape : s.tape = e :: rest) :
    InStep W old base (s.after e rest) where
  metered := h.metered.after e rest
  ledger := h.ledger.after htape
  covers := h.covers.frame (Board.edges_le_after _ _) (Board.after_totalPulses _ _) rfl
  synced := h.synced.after e rest

theorem logged (h : InStep W old base s) {ev : Event F} (hev : ev.totalMl? = none)
    (hpacket : ev.isPublished = false) (hsaved : ev ≠ .saved) :
    InStep W old base (s.logged ev) where
  metered := h.metered.logged (fun _ => rfl) (fun _ ht => by rw [hev] at ht; cases ht)
  ledger := h.ledger.logged hev hpacket hsaved fun _ => h.synced.saved
  covers := h.covers.frame (Nat.le_refl _) rfl (sentRecords_cons hpacket)
  synced := h.synced.frame rfl rfl (Nat.le_refl _) rfl rfl rfl

/-- A record of the current total leaves the total and the store in step. -/
theorem recorded (h : InStep W old base s) {ev : Event F} (hpacket : ev.isPublished = false)
    (hsaved : ev ≠ .saved) (hev : ev.isCallback = false)
    (hr : ∀ t, ev.totalMl? = some t → t = s.board.flow.totalMilliLitres) :
    InStep W old base (s.logged ev) where
  metered := h.metered.logged (fun _ => rfl) hr
  ledger := h.ledger.recorded h.synced hpacket hsaved hev
  covers := h.covers.frame (Nat.le_refl _) rfl (sentRecords_cons hpacket)
  synced := h.synced.frame rfl rfl (Nat.le_refl _) rfl rfl rfl

theorem note (h : InStep W old base s) {ev : Event F} (hev : ev.isNote = true) :
    InStep W old base (s.logged ev) := by
  refine h.logged ?_ ?_ ?_
  · cases ev <;> first | rfl | cases hev
  · cases ev <;> first | rfl | cases hev
  · rintro rfl
    cases hev

theorem fsmStable : FsmStable (F := F) (InStep W old base) := by
  refine .of_unseen ?_ ?_ ?_ ?_ ?_ fun s ev hev h => h.note hev
  · exact fun _ e rest htape h => h.after htape
  · exact fun _ _ h => h.frame rfl rfl rfl rfl rfl rfl rfl rfl
  · exact fun _ _ h => h.frame rfl rfl rfl rfl rfl rfl rfl rfl
  · exact fun _ _ h => h.frame rfl rfl rfl rfl rfl rfl rfl rfl
  · exact fun _ _ h => h.frame rfl rfl rfl rfl rfl rfl rfl rfl

end InStep

/-- In a function that publishes: the record in hand, if there is one, reports the live total. -/
structure Handing (W : Prop) (old : List (Event F × Board F)) (base : U32) (s : Sys F) : Prop
    extends InStep W old base s where
  pending : ∀ x, pendingRecord s.log = some x →
    x.2.flow.totalPulses = s.board.flow.totalPulses ∧
      MeterStore.restoredTotal x.2.eeprom = MeterStore.restoredTotal s.board.eeprom

namespace Handing

variable {s s' : Sys F}

theorem cutOff (s : Sys F) (h : Handing W old base s) : CutOff W old base s :=
  h.toInStep.cutOff

/-- The record of the moment. -/
theorem telemetry (h : InStep W old base s) :
    Handing W old base (s.logged (.telemetry s.board.telemetry)) where
  toInStep := h.recorded rfl nofun rfl fun _ ht => (Option.some.inj ht).symm
  pending x hx := by
    cases hx
    exact ⟨rfl, rfl⟩

theorem heartbeat (h : InStep W old base s) (up : U32) :
    Handing W old base (s.logged (.heartbeat (s.board.heartbeat up))) where
  toInStep := h.recorded rfl nofun rfl fun _ ht => (Option.some.inj ht).symm
  pending x hx := by
    cases hx
    exact ⟨rfl, rfl⟩

/-- No volume is in hand. -/
theorem info (h : InStep W old base s) (record : Info) :
    Handing W old base (s.logged (.info record)) where
  toInStep := h.logged rfl rfl nofun
  pending _ hx := nomatch hx

theorem published (h : Handing W old base s) (topic payload : CString) :
    Handing W old base (s.logged (.published topic payload)) where
  metered := h.metered.logged (fun _ => rfl) nofun
  ledger := h.ledger.published h.covers (fun hu => h.metered.account.total_le hu) h.pending topic
    payload
  covers hu x hx := by
    rcases List.mem_append.1 hx with hx | hx
    · exact (h.pending x (Option.mem_toList.1 hx)).1.symm ▸ BitVec.le_refl _
    · exact h.covers hu x hx
  synced := h.synced.frame rfl rfl (Nat.le_refl _) rfl rfl rfl
  pending _ hx := nomatch hx

theorem modemStable : ModemStable (F := F) (Handing W old base) where
  after s e rest htape h :=
    { toInStep := h.toInStep.after htape
      pending := by
        simpa only [Sys.after, Board.after_totalPulses, Board.after_eeprom] using h.pending }
  later s ms h := ⟨InStep.fsmStable.later s ms h.toInStep, h.pending⟩
  radio s r hr h := ⟨InStep.fsmStable.radio s r hr h.toInStep, h.pending⟩
  packet s h := ⟨h.toInStep.note rfl, fun _ hx => nomatch hx⟩
  command s c h := ⟨h.toInStep.note rfl, h.pending⟩
  lowered s r hr ht h := ⟨InStep.fsmStable.lowered s r hr ht h.toInStep, h.pending⟩

end Handing

/-! ### Metering and the dirty flags -/

namespace FlowMeter

variable [CFloat F] {K : Event F × Board F → Prop} {total : U32}

/-- After `update()` the total is what it was, or it has grown and the flag says so. -/
def Advanced (base total : U32) (s : Sys F) : Prop :=
  s.board.flow.dirty = false ∧ s.board.flow.totalPulses = total ∨
    s.board.flow.dirty = true ∧ (s.Unwrapped base → total < s.board.flow.totalPulses)

omit [CFloat F] in
theorem Advanced.after {s : Sys F} (h : Advanced base total s) (e : Env) (rest : List Env) :
    Advanced base total (s.after e rest) := by
  rcases h with ⟨hd, ht⟩ | ⟨hd, ht⟩
  · exact .inl ⟨(Board.after_dirty _ _).trans hd, (Board.after_totalPulses _ _).trans ht⟩
  · refine .inr ⟨(Board.after_dirty _ _).trans hd, fun hu => ?_⟩
    have hle := Board.edges_le_after s.board e
    have hlt := ht (Nat.lt_of_le_of_lt (Nat.add_le_add_left hle _) hu)
    exact (Board.after_totalPulses s.board e).symm ▸ hlt

omit [CFloat F] in
/-- Adding the pulses in hand: nothing to add, or a larger total. -/
theorem fold_advanced (pulses : U32) :
    Triple (fun s => Metered K old base pulses s ∧
        s.board.flow.dirty = false ∧ s.board.flow.totalPulses = total)
      (fold pulses : Fw F Unit)
      (fun _ s => Settled K old base s ∧ Advanced base total s) (Counting K old base) := by
  refine Triple.ite (fun hp => ?_) fun hp => ?_
  · refine Triple.bind (Q := fun _ s => Settled K old base s ∧
      (s.Unwrapped base → total < s.board.flow.totalPulses)) ?_ fun _ => ?_
    · rintro s ⟨hs, -, htotal⟩
      refine ⟨hs.fold rfl, fun hu => ?_⟩
      have hle := hs.account.le_fold hu
      rw [hs.taken, htotal] at hle
      show total < s.board.flow.totalPulses + pulses
      rw [htotal]
      refine BitVec.lt_of_le_ne hle fun heq => hp ?_
      exact (left_eq_add.1 heq)
    · refine Triple.bind (Q := fun _ s => Settled K old base s ∧
        (s.Unwrapped base → total < s.board.flow.totalPulses)) ?_ fun _ => ?_
      · refine preempt_keeps (fun s hs => ⟨0, hs.1⟩) fun s e rest _ hs => ⟨hs.1.after e rest, ?_⟩
        intro hu
        have hle := Board.edges_le_after s.board e
        have hlt := hs.2 (Nat.lt_of_le_of_lt (Nat.add_le_add_left hle _) hu)
        exact (Board.after_totalPulses s.board e).symm ▸ hlt
      · exact fun s hs => ⟨hs.1.frame rfl rfl rfl rfl, .inr ⟨rfl, hs.2⟩⟩
  · have hp : pulses = 0 := not_not.1 hp
    subst hp
    rintro s ⟨hs, hd, ht⟩
    exact ⟨hs.frame (by rw [counters, counters, hs.taken]) rfl rfl rfl, .inl ⟨hd, ht⟩⟩

/-- `update()` that found the flag clear sets it if it raises the total. -/
theorem update_advanced :
    Triple (fun s => Settled K old base s ∧
        s.board.flow.dirty = false ∧ s.board.flow.totalPulses = total)
      (update : Fw F Unit)
      (fun _ s => Settled K old base s ∧ Advanced base total s) (Counting K old base) := by
  -- up to the fold neither the flag nor the total moves
  let P (k : U32) (s : Sys F) : Prop := Metered K old base k s ∧
    s.board.flow.dirty = false ∧ s.board.flow.totalPulses = total
  have hafter : ∀ k (s : Sys F) e rest, s.tape = e :: rest → P k s → P k (s.after e rest) :=
    fun k s e rest _ hs => ⟨hs.1.after e rest, (Board.after_dirty _ _).trans hs.2.1,
      (Board.after_totalPulses _ _).trans hs.2.2⟩
  have hcut : ∀ k (s : Sys F), P k s → Counting K old base s := fun k s hs => ⟨k, hs.1⟩
  have hpre : ∀ k, Keeps (P k) (Counting K old base) (preempt : Fw F Unit) := fun k =>
    preempt_keeps (hcut k) (hafter k)
  refine Triple.bind (Q := fun _ => P 0) (millis_keeps (hcut 0) (hafter 0)) fun now => ?_
  refine Triple.bind (Q := fun _ => P 0) (look_keeps _) fun fm => ?_
  refine Triple.ite (fun _ => Triple.pure fun s hs => ⟨hs.1, .inl hs.2⟩) fun _ => ?_
  refine Triple.bind (Q := fun pulses => P pulses) ?_ fun pulses => ?_
  · refine look_bind fun b => Triple.bind (Q := fun _ s => P b.flow.pulseCount s) ?_
      fun _ _ h => h
    rintro s ⟨hs, rfl⟩
    exact ⟨hs.1.take rfl, hs.2⟩
  refine Triple.bind (Q := fun _ => P pulses) (fun s hs => ?_) fun _ => ?_
  · exact ⟨hs.1.logged (fun h => absurd rfl h) (fun _ ht => nomatch ht), hs.2⟩
  refine Triple.bind (hpre _) fun _ => ?_
  refine Triple.bind (Q := fun _ => P pulses) (fun s hs => ?_) fun _ => ?_
  · exact ⟨hs.1.frame rfl rfl rfl rfl, hs.2⟩
  refine Triple.bind (hpre _) fun _ => ?_
  refine Triple.bind (fold_advanced pulses) fun _ => ?_
  refine Triple.bind (Q := fun _ s => Settled K old base s ∧ Advanced base total s) ?_ fun _ => ?_
  · exact preempt_keeps (fun s hs => ⟨0, hs.1⟩) fun s e rest _ hs =>
      ⟨hs.1.after e rest, hs.2.after e rest⟩
  · unfold measure
    intro s hs
    refine ⟨hs.1.frame ?_ rfl rfl rfl, ?_⟩
    · simp only [counters]
      split <;> rfl
    · simp only [Advanced] at hs ⊢
      split <;> exact hs.2

end FlowMeter

/-! ### Saving -/

/-- Inside `service()` and the handlers: metered and on the record, whatever the image holds. -/
structure Ready (W : Prop) (old : List (Event F × Board F)) (base : U32) (s : Sys F) : Prop where
  metered : Settled Event.CleanRecord old base s
  ledger : Ledger W base s
  covers : Covers base s
  consumed : s.board.flow.dirty = false

theorem Ready.cutOff (s : Sys F) (h : Ready W old base s) : CutOff W old base s :=
  ⟨⟨0, h.metered⟩, h.ledger⟩

theorem InStep.ready {s : Sys F} (h : InStep W old base s) : Ready W old base s :=
  ⟨h.metered, h.ledger, h.covers, h.synced.consumed⟩

/-- The image holds the live values, and the write is about to be recorded. -/
structure Written (W : Prop) (old : List (Event F × Board F)) (base : U32) (s : Sys F) : Prop where
  metered : Settled Event.CleanRecord old base s
  book : Book W base s
  covers : Covers base s
  consumed : s.board.flow.dirty = false
  total : MeterStore.restoredTotal s.board.eeprom = s.board.flow.totalPulses
  valve : MeterStore.restoredValve s.board.eeprom = s.board.valve.isOpen

/-- Writing the live total covers every record: the totals in the log have not passed it. -/
theorem Ready.write {s : Sys F} (h : Ready W old base s) (bytes : List U8)
    (htotal : MeterStore.restoredTotal (writeBytes s.board.eeprom MeterStore.eepromBase bytes) =
      s.board.flow.totalPulses)
    (hvalve : MeterStore.restoredValve (writeBytes s.board.eeprom MeterStore.eepromBase bytes) =
      s.board.valve.isOpen) :
    Written W old base
      (s.withEeprom (writeBytes s.board.eeprom MeterStore.eepromBase bytes)) where
  metered := h.metered.frame rfl rfl rfl rfl
  book :=
    { whole := h.ledger.whole
      clean := fun _ hu x hx hK => by
        have hle := (h.metered.ascending hu).2 x hx hK
        rw [← htotal] at hle
        exact hle
      behind := h.ledger.behind
      saved := h.ledger.saved
      ascending := h.ledger.ascending
      bounded := h.ledger.bounded }
  covers := h.covers.frame (Nat.le_refl _) rfl rfl
  consumed := h.consumed
  total := htotal
  valve := hvalve

/-- The write is recorded, and nothing is unsaved. -/
theorem Written.saved {s : Sys F} (h : Written W old base s) (st : MeterStore)
    (hst : st.dirty = false) : InStep W old base ((s.withStore st).logged .saved) where
  metered := by
    have hmetered : Settled Event.CleanRecord old base (s.withStore st) :=
      h.metered.frame rfl rfl rfl rfl
    exact hmetered.logged (fun _ => rfl) nofun
  ledger :=
    { toBook := by
        have hbook : Book W base (s.withStore st) :=
          h.book.frame (List.Subset.refl _) (Nat.le_refl _) rfl rfl
        exact hbook.logged rfl (fun _ _ hK => nomatch hK.1) (fun _ hK => nomatch hK.1) nofun
      sent := fun _ hu x hx => .inr (h.total.symm ▸ h.covers hu x hx)
      kept := fun _ x hx => nomatch hx }
  covers := h.covers.frame (Nat.le_refl _) rfl rfl
  synced := ⟨h.consumed, ⟨h.valve, fun _ => h.total⟩, fun _ hd => by
    have hd : st.dirty = true := hd
    rw [hst] at hd
    cases hd⟩

namespace WaterboxFsm

/-- `EEPROM.put` of the current image. -/
theorem put_triple (pulses : U32) (v : Bool) :
    Triple (fun s => Ready W old base s ∧
        s.board.flow.totalPulses = pulses ∧ s.board.valve.isOpen = v)
      (eepromPut MeterStore.eepromBase (MeterStore.image pulses v) : Fw F Unit)
      (fun _ => Written W old base) (CutOff W old base) := by
  intro s ⟨hs, ht, hv⟩
  rw [eepromPut, wp_bind, wp, next]
  cases htape : s.tape with
  | nil => exact hs.cutOff
  | cons e rest =>
    have hready : Ready W old base (s.after e rest) :=
      ⟨hs.metered.after e rest, hs.ledger.after htape,
        hs.covers.frame (Board.edges_le_after _ _) (Board.after_totalPulses _ _) rfl,
        (Board.after_dirty _ _).trans hs.consumed⟩
    have htotal : (s.after e rest).board.flow.totalPulses = pulses :=
      (Board.after_totalPulses _ _).trans ht
    have hvalve : (s.after e rest).board.valve.isOpen = v := by
      rw [← hv]
      exact congrArg LatchingValve.isOpen (Board.after_valve _ _)
    have himage := MeterStore.restored_image (s.after e rest).board.eeprom pulses v
    cases htorn : e.torn with
    | none =>
      simp only [htorn]
      exact hready.write _ (himage.1.trans htotal.symm) (himage.2.trans hvalve.symm)
    | some k =>
      -- a torn write: excluded where no write is torn
      simp only [htorn]
      have hwhole : ¬W := by
        intro hW
        have hnone := hs.ledger.whole hW e (by rw [htape]; exact List.mem_cons_self)
        rw [hnone] at htorn
        cases htorn
      refine ⟨⟨0, hready.metered.frame rfl rfl rfl rfl⟩, ?_⟩
      exact ⟨⟨hready.ledger.whole, fun hW => absurd hW hwhole, hready.ledger.behind,
        hready.ledger.saved, hready.ledger.ascending, hready.ledger.bounded⟩,
        fun hW => absurd hW hwhole, fun hW => absurd hW hwhole⟩

/-- From any state in which the total may be written, `save()` brings the image up to date. -/
theorem save_triple (pulses : U32) (v : Bool) :
    Triple (fun s => Ready W old base s ∧
        s.board.flow.totalPulses = pulses ∧ s.board.valve.isOpen = v)
      (MeterStore.save pulses v : Fw F Unit) (fun _ => InStep W old base)
      (CutOff W old base) := by
  refine Triple.bind (put_triple pulses v) fun _ => ?_
  -- the flag is cleared and the write recorded at one moment
  refine Triple.bind (Q := fun _ t => ∃ s, Written W old base s ∧
    t = s.withStore { s.board.store with dirty := false }) (fun s hs => ⟨s, hs, rfl⟩) fun _ => ?_
  refine Triple.bind (Q := fun _ => InStep W old base) ?_ fun _ => ?_
  · rintro _ ⟨s, hs, rfl⟩
    exact hs.saved _ rfl
  refine Triple.bind (InStep.fsmStable.millis InStep.cutOff) fun _ => ?_
  exact change_keeps fun s hs => hs.frame rfl rfl rfl rfl rfl rfl rfl rfl

variable [CFloat F]

omit [CFloat F] in
/-- So does `persistNow()`, with the total and the valve of the moment. -/
theorem persistNow_triple : Triple (Ready W old base) (persistNow : Fw F Unit)
    (fun _ => InStep W old base) (CutOff W old base) := by
  refine look_bind fun b => (save_triple _ _).conseq ?_ (fun _ _ h => h) (fun _ h => h)
  rintro s ⟨hs, rfl⟩
  exact ⟨hs, rfl, rfl⟩

/-! ### `service()` -/

/-- Between `update()` and the end of `service()`: `d` says whether the total has moved since the
    flow meter's flag was last consumed. -/
structure Pending (d : Bool) (base : U32) (s : Sys F) : Prop where
  covers : Covers base s
  valve : MeterStore.restoredValve s.board.eeprom = s.board.valve.isOpen
  total : d = false → s.board.store.dirty = false →
    MeterStore.restoredTotal s.board.eeprom = s.board.flow.totalPulses
  behind : s.Unwrapped base → d = true ∨ s.board.store.dirty = true →
    MeterStore.restoredTotal s.board.eeprom < s.board.flow.totalPulses

omit [CFloat F] in
theorem Pending.after {d : Bool} {s : Sys F} (h : Pending d base s) (e : Env) (rest : List Env) :
    Pending d base (s.after e rest) where
  covers := h.covers.frame (Board.edges_le_after _ _) (Board.after_totalPulses _ _) rfl
  valve := by simpa only [Sys.after, Board.after_eeprom, Board.after_valve] using h.valve
  total := by
    simpa only [Sys.after, Board.after_eeprom, Board.after_store, Board.after_totalPulses] using
      h.total
  behind hu := by
    have hle := Board.edges_le_after s.board e
    simpa only [Sys.after, Board.after_eeprom, Board.after_store, Board.after_totalPulses] using
      h.behind (Nat.lt_of_le_of_lt (Nat.add_le_add_left hle _) hu)

/-- A pulse that `update()` adds to the total is pending until the store is marked. -/
theorem update_pending : Triple (InStep W old base) (FlowMeter.update : Fw F Unit)
    (fun _ s => (Settled Event.CleanRecord old base s ∧ Ledger W base s) ∧
      Pending s.board.flow.dirty base s) (CutOff W old base) := by
  intro s hs
  -- what `update()` does not touch
  let I (t : Sys F) : Prop := Ledger W base t ∧ t.board.store = s.board.store ∧
    t.board.eeprom = s.board.eeprom ∧ t.board.valve = s.board.valve ∧
    s.board.edges ≤ t.board.edges ∧ sentRecords t.log = sentRecords s.log
  have hI : PortStable I :=
    { after := fun t e rest htape ht => ⟨ht.1.after htape, (Board.after_store _ _).trans ht.2.1,
        (Board.after_eeprom _ _).trans ht.2.2.1, (Board.after_valve _ _).trans ht.2.2.2.1,
        ht.2.2.2.2.1.trans (Board.edges_le_after _ _), ht.2.2.2.2.2⟩
      later := fun t _ ht => ⟨ht.1.frame (List.Subset.refl _) (Nat.le_refl _) rfl rfl, ht.2⟩
      radio := fun t _ _ ht => ⟨ht.1.frame (List.Subset.refl _) (Nat.le_refl _) rfl rfl, ht.2⟩
      packet := fun t ht => ⟨ht.1.logged rfl rfl nofun nofun, ht.2⟩ }
  have hstatic : Keeps I I (FlowMeter.update : Fw F Unit) :=
    FlowMeter.update_keeps hI (fun _ h => h)
      (fun t _ ht => ⟨ht.1.frame (List.Subset.refl _) (Nat.le_refl _) rfl rfl, ht.2⟩)
      (fun t ht => ⟨ht.1.logged rfl rfl nofun nofun, ht.2⟩)
  have hboth := Triple.and FlowMeter.update_advanced hstatic s
    ⟨⟨hs.metered, hs.synced.consumed, rfl⟩, hs.ledger, rfl, rfl, rfl, Nat.le_refl _, rfl⟩
  refine wp_mono (fun _ t ht => ?_) (fun _ ht => ⟨ht.1, ht.2.1⟩) hboth
  obtain ⟨⟨hm, hadv⟩, hl, hstore, heeprom, hvalve, hedges, hsent⟩ := ht
  have hbehind : t.Unwrapped base → s.board.store.dirty = true →
      MeterStore.restoredTotal s.board.eeprom < s.board.flow.totalPulses := fun hu =>
    hs.synced.behind (hu.mono hedges)
  refine ⟨⟨hm, hl⟩, ⟨fun hu x hx => ?_, by rw [heeprom, hvalve, hs.synced.saved.valve], ?_, ?_⟩⟩
  · rw [hsent] at hx
    have hle := hs.covers (hu.mono hedges) x hx
    rcases hadv with ⟨-, ht⟩ | ⟨-, hlt⟩
    · exact ht.symm ▸ hle
    · exact BitVec.le_trans hle (BitVec.le_of_lt (hlt hu))
  · intro hd hst
    rw [hstore] at hst
    rcases hadv with ⟨-, ht⟩ | ⟨hd', -⟩
    · rw [heeprom, ht, hs.synced.saved.total hst]
    · rw [hd] at hd'
      cases hd'
  · intro hu hor
    rw [hstore] at hor
    rw [heeprom]
    rcases hadv with ⟨hd', ht⟩ | ⟨-, hlt⟩
    · rw [hd'] at hor
      rw [ht]
      exact hbehind hu (hor.resolve_left (by simp))
    · -- the total has grown past an image that was not ahead of it
      have hlt := hlt hu
      cases hst : s.board.store.dirty with
      | false => rw [hs.synced.saved.total hst]; exact hlt
      | true => exact BitVec.lt_trans (hbehind hu hst) hlt

omit [CFloat F] in
/-- `consumeDirty()` hands the flag of the meter over to the caller. -/
theorem consumeDirty_pending :
    Triple (fun s => (Settled Event.CleanRecord old base s ∧ Ledger W base s) ∧
        Pending s.board.flow.dirty base s)
      (FlowMeter.consumeDirty : Fw F Bool)
      (fun d s => Ready W old base s ∧ Pending d base s) (CutOff W old base) := by
  refine look_bind fun b => ?_
  refine Triple.bind (Q := fun _ s => (Settled Event.CleanRecord old base s ∧ Ledger W base s) ∧
    Pending b.flow.dirty base s) ?_ fun _ => ?_
  · refine Triple.conseq (preempt_keeps (I := fun s => (Settled Event.CleanRecord old base s ∧
      Ledger W base s) ∧ Pending b.flow.dirty base s) (C := CutOff W old base) ?_ ?_) ?_
      (fun _ _ h => h) (fun _ h => h)
    · exact fun s hs => ⟨⟨0, hs.1.1⟩, hs.1.2⟩
    · exact fun s e rest htape hs =>
        ⟨⟨hs.1.1.after e rest, hs.1.2.after htape⟩, hs.2.after e rest⟩
    · rintro s ⟨hs, rfl⟩
      exact hs
  · refine Triple.bind (Q := fun _ s => Ready W old base s ∧ Pending b.flow.dirty base s) ?_
      fun _ s hs => hs
    rintro s ⟨⟨hm, hl⟩, hp⟩
    have hcovers := hp.covers.frame (Nat.le_refl s.board.edges) rfl rfl
    exact ⟨⟨hm.frame rfl rfl rfl rfl, hl.frame (List.Subset.refl _) (Nat.le_refl _) rfl rfl,
      hcovers, rfl⟩, ⟨hcovers, hp.valve, hp.total, hp.behind⟩⟩

omit [CFloat F] in
/-- Who marks the store as the flag says has the two in step again. -/
theorem markDirty_synced (d : Bool) :
    Triple (fun s => Ready W old base s ∧ Pending d base s)
      (Cut.when d (MeterStore.markDirty : Fw F Unit)) (fun _ => InStep W old base)
      (CutOff W old base) := by
  cases d with
  | false =>
    rintro s ⟨hs, hp⟩
    exact ⟨hs.metered, hs.ledger, hs.covers, hs.consumed, ⟨hp.valve, hp.total rfl⟩,
      fun hu hd => hp.behind hu (.inr hd)⟩
  | true =>
    rintro s ⟨hs, hp⟩
    exact ⟨hs.metered.frame rfl rfl rfl rfl,
      hs.ledger.frame (List.Subset.refl _) (Nat.le_refl _) rfl rfl,
      hs.covers.frame (Nat.le_refl _) rfl rfl, hs.consumed,
      ⟨hp.valve, fun hd => nomatch hd⟩, fun hu _ => hp.behind hu (.inl rfl)⟩

/-- One call of `service()`, which ends with the total and the store in step. -/
theorem service_inStep :
    Keeps (InStep W old base) (CutOff W old base) (service : Fw F Unit) := by
  refine service_keeps_of_meter InStep.fsmStable.toServiceStable.verdictStable InStep.cutOff ?_
    fun s since hs => hs.logged rfl rfl nofun
  refine Triple.bind update_pending fun _ => ?_
  refine Triple.bind consumeDirty_pending fun d => ?_
  refine Triple.bind (markDirty_synced d) fun _ => ?_
  refine look_bind fun b => ?_
  -- the values that are saved are those of the moment, however the clock is read in between
  let P (s : Sys F) : Prop := InStep W old base s ∧
    s.board.flow.totalPulses = b.flow.totalPulses ∧ s.board.valve.isOpen = b.valve.isOpen
  have hmillis : Keeps P (CutOff W old base) (millis : Fw F U32) := by
    refine millis_keeps (fun s hs => hs.1.cutOff) fun s e rest htape hs => ?_
    exact ⟨InStep.fsmStable.after s e rest htape hs.1,
      (Board.after_totalPulses _ _).trans hs.2.1,
      (congrArg LatchingValve.isOpen (Board.after_valve _ _)).trans hs.2.2⟩
  have hdue : Triple P (MeterStore.saveIfDue b.flow.totalPulses b.valve.isOpen
      Settings.eepromSaveMs : Fw F Unit) (fun _ => InStep W old base) (CutOff W old base) := by
    refine Triple.bind (look_keeps _) fun _ => Triple.ite (fun _ s hs => hs.1) fun _ => ?_
    refine Triple.bind hmillis fun _ => Triple.bind (look_keeps _) fun _ => ?_
    refine Triple.ite (fun _ s hs => hs.1) fun _ => ?_
    exact (save_triple _ _).conseq (fun s hs => ⟨hs.1.ready, hs.2⟩) (fun _ _ h => h)
      (fun _ h => h)
  refine hdue.conseq ?_ (fun _ _ h => h) (fun _ h => h)
  rintro s ⟨hs, rfl⟩
  exact ⟨hs, rfl, rfl⟩

/-! ### The handlers -/

omit [CFloat F] in
/-- A valve pulse leaves the image behind the flag until `persistNow()`. -/
theorem apply_ready (v : Bool) : Triple (InStep W old base) (LatchingValve.apply v : Fw F Unit)
    (fun _ => Ready W old base) (CutOff W old base) := by
  have hpulse : ∀ ia ib, Keeps (InStep W old base) (CutOff W old base)
      (LatchingValve.pulse ia ib : Fw F Unit) := by
    intro ia ib
    refine Keeps.bind (look_keeps _) fun _ => ?_
    refine Keeps.bind (InStep.fsmStable.delay InStep.cutOff _) fun _ => ?_
    exact change_keeps fun s hs => hs.frame rfl rfl rfl rfl rfl rfl rfl rfl
  have hset : ∀ b, Triple (InStep W old base)
      (LatchingValve.set fun w => { w with isOpen := b } : Fw F Unit)
      (fun _ => Ready W old base) (CutOff W old base) := fun b s hs =>
    ⟨hs.metered.frame rfl rfl rfl rfl,
      hs.ledger.frame (List.Subset.refl _) (Nat.le_refl _) rfl rfl,
      hs.covers.frame (Nat.le_refl _) rfl rfl, hs.synced.consumed⟩
  cases v with
  | false =>
    exact Triple.bind (look_keeps _) fun _ => Triple.bind (hpulse _ _) fun _ => hset false
  | true =>
    exact Triple.bind (look_keeps _) fun _ => Triple.bind (hpulse _ _) fun _ => hset true

/-- Every action of a callback. -/
theorem kept_inStep : Kept (F := F) (InStep W old base) (CutOff W old base) where
  service := service_inStep
  command cmd := by
    refine Triple.bind (Q := fun _ => InStep W old base) ?_ fun _ =>
      emit_keeps fun s hs => hs.logged rfl rfl nofun
    cases cmd with
    | none => exact Keeps.pure _
    | on => exact Triple.bind (apply_ready true) fun _ => persistNow_triple
    | off => exact Triple.bind (apply_ready false) fun _ => persistNow_triple
  fingerprint := by
    refine onFingerprint_keeps InStep.fsmStable.toPortStable InStep.cutOff ?_
      (fun s _ hs => hs.frame rfl rfl rfl rfl rfl rfl rfl rfl) fun s hs => hs.logged rfl rfl nofun
    -- the fingerprint lies outside the image
    intro s bytes hs
    have hstored := MeterStore.stored_fingerprintImage s.board.eeprom bytes
    have htotal : MeterStore.restoredTotal
        (writeBytes s.board.eeprom MeterStore.eepromFpBase bytes) =
        MeterStore.restoredTotal s.board.eeprom := by
      rw [MeterStore.restoredTotal, MeterStore.restoredTotal, hstored]
    have hvalve : MeterStore.restoredValve
        (writeBytes s.board.eeprom MeterStore.eepromFpBase bytes) =
        MeterStore.restoredValve s.board.eeprom := by
      rw [MeterStore.restoredValve, MeterStore.restoredValve, hstored]
    have hbook : Book W base
        (s.withEeprom (writeBytes s.board.eeprom MeterStore.eepromFpBase bytes)) :=
      { whole := hs.ledger.whole
        clean := fun hW hu x hx hK => htotal.symm ▸ hs.ledger.clean hW hu x hx hK
        behind := hs.ledger.behind
        saved := hs.ledger.saved
        ascending := hs.ledger.ascending
        bounded := hs.ledger.bounded }
    refine ⟨hs.metered.frame rfl rfl rfl rfl, ⟨hbook, ?_, ?_⟩,
      hs.covers.frame (Nat.le_refl _) rfl rfl, hs.synced.consumed,
      ⟨hvalve.trans hs.synced.saved.valve, ?_⟩, ?_⟩
    · exact fun hW hu x hx => htotal.symm ▸ hs.ledger.sent hW hu x hx
    · exact fun hW x hx => (hs.ledger.kept hW x hx).trans htotal.symm
    · exact fun hd => htotal.trans (hs.synced.saved.total hd)
    · exact fun hu hd => htotal.symm ▸ hs.synced.behind hu hd

/-! ### The Publish state -/

omit [CFloat F] in
/-- After a heartbeat the record is handed over; its packet may not have been written. -/
theorem publishHeartbeat_inStep :
    Triple (InStep W old base) (publishHeartbeat : Fw F Bool) (fun _ => Handing W old base)
      (CutOff W old base) := by
  have hM : ModemStable (F := F) (Handing W old base) := Handing.modemStable
  refine Triple.bind (InStep.fsmStable.millis InStep.cutOff) fun up => look_bind fun b => ?_
  refine Triple.bind (Q := fun _ => Handing W old base) ?_ fun _ => ?_
  · rintro s ⟨hs, rfl⟩
    exact Handing.heartbeat hs _
  refine Keeps.bind (GsmMqttClient.formatTimestamp_keeps hM.toCommandStable Handing.cutOff _)
    fun _ => Keeps.bind (look_keeps _) fun _ => ?_
  exact PubSubClient.publish_keeps hM Handing.cutOff fun s hs => hs.published _ _

/-- The record is handed over, its packet is written, and only then the total is saved. -/
theorem tickPublish_inStep (now : U32) :
    Keeps (InStep W old base) (CutOff W old base) (tickPublish now : Fw F Unit) := by
  have hM : ModemStable (F := F) (Handing W old base) := Handing.modemStable
  have hI : FsmStable (F := F) (InStep W old base) := InStep.fsmStable
  have hset : ∀ f : WaterboxFsm F → WaterboxFsm F, (∀ fsm, (f fsm).state = fsm.state) →
      Keeps (InStep W old base) (CutOff W old base) (set f) := fun f hf =>
    set_keeps hI.toServiceStable f hf
  refine Triple.bind (publishInfo_triple hM Handing.cutOff (fun s _ _ hs => hs.published _ _)
    fun s hs => Handing.info hs _) fun _ => ?_
  refine Triple.bind (publishTelemetry_triple hM Handing.cutOff
    (fun s _ _ hs => hs.published _ _) fun s hs => Handing.telemetry hs.toInStep) fun ok => ?_
  refine Triple.bind (Q := fun _ => InStep W old base) ?_ fun _ => ?_
  · have hpersist : Keeps (InStep W old base) (CutOff W old base) (persistNow : Fw F Unit) :=
      persistNow_triple.conseq (fun _ hs => hs.ready) (fun _ _ h => h) fun _ h => h
    exact (Keeps.when hpersist).conseq (fun _ (hs : Handing W old base _) => hs.toInStep)
      (fun _ _ h => h) fun _ h => h
  refine Triple.bind (Q := fun _ => InStep W old base) ?_ fun _ => ?_
  · refine Triple.bind (look_keeps _) fun _ => Triple.ite (fun _ => ?_) fun _ => Keeps.pure _
    refine Triple.bind publishHeartbeat_inStep fun _ => ?_
    exact (Keeps.when (hset (fun fsm => { fsm with lastHeartbeatMs := now }) fun _ => rfl)).conseq
      (fun _ (hs : Handing W old base _) => hs.toInStep) (fun _ _ h => h) fun _ h => h
  refine Keeps.bind (hI.millis InStep.cutOff) fun _ => ?_
  exact Keeps.bind (hset _ fun _ => rfl) fun _ => enter_keeps hI _

/-- Any number of rounds. -/
theorem ticks_inStep (n : Nat) :
    Keeps (InStep W old base) (CutOff W old base) (Cut.times tick n : Fw F Unit) :=
  ticks_keeps InStep.fsmStable InStep.cutOff kept_inStep tickPublish_inStep n

/-! ### `begin()` -/

/-- The log and the EEPROM are those a boot found. -/
def AsFound (old : List (Event F × Board F)) (eeprom : Nat → U8) (s : Sys F) : Prop :=
  s.log = old ∧ s.board.eeprom = eeprom

/-- What a boot found: the log, the EEPROM, and the steps to come. -/
structure Found (W : Prop) (old : List (Event F × Board F)) (eeprom : Nat → U8) (s : Sys F) :
    Prop where
  log : s.log = old
  eeprom : s.board.eeprom = eeprom
  whole : W → ∀ e ∈ s.tape, e.torn = none

variable {eeprom : Nat → U8}

omit [CFloat F] in
theorem Found.frame {s s' : Sys F} (h : Found W old eeprom s) (hlog : s'.log = s.log)
    (heeprom : s'.board.eeprom = s.board.eeprom) (htape : s'.tape = s.tape) :
    Found W old eeprom s' :=
  ⟨hlog.trans h.log, heeprom.trans h.eeprom, by rw [htape]; exact h.whole⟩

omit [CFloat F] in
theorem Found.after {s : Sys F} (h : Found W old eeprom s) {e : Env} {rest : List Env}
    (htape : s.tape = e :: rest) : Found W old eeprom (s.after e rest) := by
  refine ⟨h.log, (Board.after_eeprom _ _).trans h.eeprom, fun hW x hx => h.whole hW x ?_⟩
  rw [htape]
  exact List.mem_cons_of_mem _ hx

omit [CFloat F] in
theorem Found.asFound {s : Sys F} (h : Found W old eeprom s) : AsFound old eeprom s :=
  ⟨h.log, h.eeprom⟩

/-- The valve is believed to be in the position `v`, and nothing waits to be saved. -/
structure ValveBack (W : Prop) (old : List (Event F × Board F)) (eeprom : Nat → U8) (v : Bool)
    (s : Sys F) : Prop extends Found W old eeprom s where
  clean : s.board.store.dirty = false
  valve : s.board.valve.isOpen = v

/-- The same, with the total of the flow meter. -/
structure TotalBack (W : Prop) (old : List (Event F × Board F)) (eeprom : Nat → U8) (v : Bool)
    (total : U32) (s : Sys F) : Prop extends ValveBack W old eeprom v s where
  consumed : s.board.flow.dirty = false
  total : s.board.flow.totalPulses = total

section Back

variable {v : Bool} {total : U32}

omit [CFloat F] in
theorem ValveBack.after {s : Sys F} (h : ValveBack W old eeprom v s) {e : Env} {rest : List Env}
    (htape : s.tape = e :: rest) : ValveBack W old eeprom v (s.after e rest) where
  toFound := h.toFound.after htape
  clean := (congrArg MeterStore.dirty (Board.after_store _ _)).trans h.clean
  valve := (congrArg LatchingValve.isOpen (Board.after_valve _ _)).trans h.valve

omit [CFloat F] in
theorem TotalBack.after {s : Sys F} (h : TotalBack W old eeprom v total s) {e : Env}
    {rest : List Env} (htape : s.tape = e :: rest) :
    TotalBack W old eeprom v total (s.after e rest) where
  toValveBack := h.toValveBack.after htape
  consumed := (Board.after_dirty _ _).trans h.consumed
  total := (Board.after_totalPulses _ _).trans h.total

omit [CFloat F] in
/-- `load()` reads what the last boot left. -/
theorem load_found :
    Triple (fun s => Found W old eeprom s ∧ s.board.valve.isOpen = false)
      (MeterStore.load : Fw F (Option (U32 × Bool)))
      (fun r s => ValveBack W old eeprom false s ∧ r = MeterStore.stored eeprom)
      (AsFound old eeprom) := by
  refine Triple.bind (Q := fun _ => ValveBack W old eeprom false) ?_ fun _ => ?_
  · exact fun s hs => ⟨hs.1.frame rfl rfl rfl, rfl, hs.2⟩
  refine Triple.bind (millis_keeps (fun _ hs => hs.asFound) fun _ _ _ htape hs => hs.after htape)
    fun _ => ?_
  refine Triple.bind (Q := fun _ => ValveBack W old eeprom false) ?_ fun _ s hs => ⟨hs, ?_⟩
  · exact fun s hs => ⟨hs.toFound.frame rfl rfl rfl, hs.clean, hs.valve⟩
  · exact congrArg MeterStore.stored hs.eeprom

omit [CFloat F] in
/-- The coil is pulsed only after an image was read, and nothing is written. -/
theorem restoreValve_found (r : Option (U32 × Bool)) :
    Triple (ValveBack W old eeprom false) (restoreValve r : Fw F Unit)
      (fun _ => ValveBack W old eeprom (r.elim false Prod.snd)) (AsFound old eeprom) := by
  have hpulse : ∀ ia ib, Keeps (ValveBack W old eeprom false) (AsFound old eeprom)
      (LatchingValve.pulse ia ib : Fw F Unit) := by
    intro ia ib
    refine Keeps.bind (look_keeps _) fun ms => Keeps.bind ?_ fun _ => ?_
    · exact delay_keeps (fun _ hs => hs.asFound) (fun _ _ _ htape hs => hs.after htape) ms
        fun _ hs => ⟨hs.toFound.frame rfl rfl rfl, hs.clean, hs.valve⟩
    · exact change_keeps fun _ hs => ⟨hs.toFound.frame rfl rfl rfl, hs.clean, hs.valve⟩
  have hset : ∀ b, Triple (ValveBack W old eeprom false)
      (LatchingValve.set fun w => { w with isOpen := b } : Fw F Unit)
      (fun _ => ValveBack W old eeprom b) (AsFound old eeprom) :=
    fun _ _ hs => ⟨hs.toFound.frame rfl rfl rfl, hs.clean, rfl⟩
  rcases r with - | ⟨pulses, valveOpen⟩
  · exact Triple.pure fun _ hs => hs
  · cases valveOpen with
    | true => exact Triple.bind (look_keeps _) fun _ => Triple.bind (hpulse _ _) fun _ => hset true
    | false => exact Triple.bind (look_keeps _) fun _ =>
        Triple.bind (hpulse _ _) fun _ => hset false

omit [CFloat F] in
theorem preempt_found :
    Keeps (TotalBack W old eeprom v total) (AsFound old eeprom) (preempt : Fw F Unit) :=
  preempt_keeps (fun _ hs => hs.asFound) fun _ _ _ htape hs => hs.after htape

theorem flowBegin_found (ppl : U16) (ms : U32) :
    Triple (ValveBack W old eeprom v) (FlowMeter.begin ppl ms : Fw F Unit)
      (fun _ => TotalBack W old eeprom v 0) (AsFound old eeprom) := by
  refine Triple.bind (Q := fun _ => TotalBack W old eeprom v 0) ?_ fun _ => ?_
  · exact fun s hs => ⟨⟨hs.toFound.frame rfl rfl rfl, hs.clean, hs.valve⟩, rfl, rfl⟩
  refine Triple.bind (millis_keeps (fun _ hs => hs.asFound) fun _ _ _ htape hs => hs.after htape)
    fun _ => ?_
  refine Triple.bind (Q := fun _ => TotalBack W old eeprom v 0) ?_ fun _ => ?_
  · exact fun s hs => ⟨⟨hs.toFound.frame rfl rfl rfl, hs.clean, hs.valve⟩, hs.consumed, hs.total⟩
  refine Triple.bind preempt_found fun _ => ?_
  refine Triple.bind (Q := fun _ => TotalBack W old eeprom v 0) ?_ fun _ => preempt_found
  exact fun s hs => ⟨⟨hs.toFound.frame rfl rfl rfl, hs.clean, hs.valve⟩, hs.consumed, hs.total⟩

omit [CFloat F] in
theorem restoreTotal_found (r : Option (U32 × Bool)) :
    Triple (TotalBack W old eeprom v 0) (restoreTotal r : Fw F Unit)
      (fun _ => TotalBack W old eeprom v (r.elim 0 Prod.fst)) (AsFound old eeprom) := by
  rcases r with - | ⟨pulses, valveOpen⟩
  · exact Triple.pure fun _ hs => hs
  · refine Triple.bind preempt_found fun _ s hs => ?_
    exact ⟨⟨hs.toFound.frame rfl rfl rfl, hs.clean, hs.valve⟩, hs.consumed, rfl⟩

end Back

/-- `restore()` brings back what the EEPROM holds, with both dirty flags clear. -/
theorem restore_found :
    Triple (fun s => Found W old eeprom s ∧ s.board.valve.isOpen = false)
      (restore : Fw F Unit)
      (fun _ => TotalBack W old eeprom (MeterStore.restoredValve eeprom)
        (MeterStore.restoredTotal eeprom)) (AsFound old eeprom) := by
  have hvalve : (MeterStore.stored eeprom).elim false Prod.snd =
      MeterStore.restoredValve eeprom := by
    rw [MeterStore.restoredValve]
    cases MeterStore.stored eeprom <;> rfl
  have htotal : (MeterStore.stored eeprom).elim 0 Prod.fst = MeterStore.restoredTotal eeprom := by
    rw [MeterStore.restoredTotal]
    cases MeterStore.stored eeprom <;> rfl
  refine Triple.bind load_found fun r s hs => ?_
  obtain ⟨hs, rfl⟩ := hs
  rw [← hvalve, ← htotal]
  refine Triple.bind (restoreValve_found _) (fun _ => ?_) s hs
  refine Triple.bind (flowBegin_found _ _) fun _ => ?_
  refine Triple.bind (restoreTotal_found _) fun _ => ?_
  refine Triple.bind (look_keeps _) fun fp => restoreSignature_keeps ?_ fp
  exact fun s _ hs => ⟨⟨hs.toFound.frame rfl rfl rfl, hs.clean, hs.valve⟩, hs.consumed, hs.total⟩

/-- What is known of the log when a boot begins that restores `base`. -/
structure History (log : List (Event F × Board F)) (base : U32) : Prop where
  recorded : Recorded Event.CleanRecord log base
  behind : ∀ x ∈ log, Event.DirtyRecord x →
    MeterStore.restoredTotal x.2.eeprom < x.2.flow.totalPulses
  saved : ∀ x ∈ log, x.1.isCallback = true → x.2.Saved
  ascending : (sentRecords log).Pairwise fun newer older =>
    older.2.flow.totalPulses ≤ newer.2.flow.totalPulses
  sent : ∀ x ∈ sentRecords log, x.2.flow.totalPulses ≤ base
  kept : ∀ x ∈ unsavedRecords log, MeterStore.restoredTotal x.2.eeprom = base

omit [CFloat F] in
theorem history_nil (base : U32) : History (F := F) [] base :=
  ⟨recorded_nil, by simp, by simp, List.Pairwise.nil, by simp [sentRecords],
    by simp [unsavedRecords]⟩

/-- Where a boot can be cut off: still with the log and the EEPROM it found, or later. -/
def BootCut (W : Prop) (old : List (Event F × Board F)) (eeprom : Nat → U8) (base : U32)
    (s : Sys F) : Prop :=
  (s.log = old ∧ s.board.eeprom = eeprom) ∨ CutOff W old base s

/-- After `begin()` has restored its state, the total is the one of the image. -/
theorem restore_inStep (hbase : MeterStore.restoredTotal eeprom = base) (hold : History old base) :
    Triple (fun s => Early old eeprom s ∧ Found W old eeprom s ∧ s.board.valve.isOpen = false)
      (restore : Fw F Unit) (fun _ => InStep W old base) (BootCut W old eeprom base) := by
  have hfinds : Triple (fun s => Found W old eeprom s ∧ s.board.valve.isOpen = false)
      (restore : Fw F Unit) (fun _ => TotalBack W old eeprom _ _) (AsFound old eeprom) :=
    restore_found
  have hboth := Triple.and (restore_settled hbase hold.recorded) hfinds
  refine hboth.conseq (fun _ h => h) (fun _ s hs => ?_) (fun _ hs => .inl hs.2)
  obtain ⟨hm, hback⟩ := hs
  have hrestored : MeterStore.restoredTotal s.board.eeprom = base := by
    rw [hback.eeprom, hbase]
  refine ⟨hm, ⟨⟨hback.whole, ?_, ?_, ?_, ?_, ?_⟩, ?_, ?_⟩, ?_, hback.consumed, ⟨?_, fun _ => ?_⟩,
    fun _ hd => ?_⟩
  · intro _ _ x hx hK
    rw [hback.log] at hx
    rw [hrestored]
    exact hold.recorded.2 x hx hK
  · rw [hback.log]
    exact fun _ => hold.behind
  · rw [hback.log]
    exact hold.saved
  · rw [hback.log]
    exact fun _ => hold.ascending
  · rw [hback.log]
    exact fun _ x hx => (BitVec.le_def.1 (hold.sent x hx)).trans (Nat.le_add_right _ _)
  · rw [hback.log, hrestored]
    exact fun _ _ x hx => .inr (hold.sent x hx)
  · rw [hback.log, hrestored]
    exact fun _ => hold.kept
  · intro _
    rw [hback.log, hback.total, hbase]
    exact hold.sent
  · rw [hback.eeprom, hback.valve]
  · rw [hback.eeprom, hback.total]
  · rw [hback.clean] at hd
    cases hd

/-- So it is after the whole `begin()`; a cut in it leaves the image as it was found. -/
theorem begin_inStep (hbase : MeterStore.restoredTotal eeprom = base) (hold : History old base) :
    Triple (fun s => Early old eeprom s ∧ Found W old eeprom s) (begin : Fw F Unit)
      (fun _ => InStep W old base) (BootCut W old eeprom base) := by
  refine begin_triple InStep.fsmStable (fun s hs => .inr hs.cutOff) ?_
  refine (restore_inStep hbase hold).conseq ?_ (fun _ _ h => h) (fun _ h => h)
  rintro _ ⟨s₀, ⟨⟨hs, heeprom⟩, hfound⟩, rfl⟩
  exact ⟨⟨⟨hs.1, hs.2, hs.3⟩, heeprom⟩, hfound.frame rfl rfl rfl, rfl⟩

/-- Every boot of the firmware keeps image and live values together. -/
theorem firmware_inStep (hbase : MeterStore.restoredTotal eeprom = base) (hold : History old base)
    (n : Nat) : Triple (fun s => Early old eeprom s ∧ Found W old eeprom s)
      (firmware n : Fw F Unit) (fun _ => InStep W old base) (BootCut W old eeprom base) :=
  Triple.bind (begin_inStep hbase hold) fun _ => (ticks_inStep n).weaken fun _ h => .inr h

/-- The state a boot starts from. -/
theorem powerOn_early (s : Sys F) (b : Boot) :
    Early s.log s.board.eeprom (s.powerOn b) := ⟨⟨rfl, rfl, rfl⟩, rfl⟩

/-- A boot finds the EEPROM and the log as the last one left them. -/
theorem powerOn_found (s : Sys F) (b : Boot) (hW : W → ∀ e ∈ b.tape, e.torn = none) :
    Found W s.log s.board.eeprom (s.powerOn b) := ⟨rfl, rfl, hW⟩

end WaterboxFsm

end Waterbox
