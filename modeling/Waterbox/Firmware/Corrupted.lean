import Waterbox.Firmware.Torn

namespace Waterbox

/-!
# Single bytes that change

One byte of a saved image is later found to be another: a cell of the EEPROM has worn out, or was
written by mistake.

* `framed_set` — such an image has another magic number or version, or a check that is not its own.
* `save_finished`, `saveFingerprint_finished` — what is in the EEPROM once a save returns.
* `corruption_caught` — `load()` and `loadFingerprint()` then fail.
-/

open Cut

namespace MeterStore

variable {F : Type}

/-! ### Images -/

section Framed

variable {magic version y : U8} {payload : List U8} {i : Nat}

/-- An image that is accepted: its magic number and version, and the check of its payload. -/
def Accepted (magic version : U8) (n : Nat) (img : List U8) : Prop :=
  (img.getD 0 0 = magic ∧ img.getD 1 0 = version) ∧ crc8 ((img.drop 2).take n) = img.getD (n + 2) 0

/-- With one byte changed an image is not accepted, whichever it is. -/
theorem framed_set (hi : i < (framed magic version payload).length)
    (hne : y ≠ (framed magic version payload)[i]) :
    ¬ Accepted magic version payload.length ((framed magic version payload).set i y) := by
  rintro ⟨⟨hmagic, hversion⟩, hcheck⟩
  have hframed : framed magic version payload =
      magic :: version :: (payload ++ [crc8 payload]) := rfl
  -- the byte is the magic number, the version, or one behind them
  rcases i with _ | _ | i
  · exact hne hmagic
  · exact hne hversion
  · have hlength : (framed magic version payload).length = payload.length + 3 := length_framed
    by_cases hpayload : i < payload.length
    · -- the payload has changed, and its check has not
      have hset : (framed magic version payload).set (i + 2) y =
          [magic, version] ++ payload.set i y ++ [crc8 payload] := by
        rw [hframed]
        show magic :: version :: (payload ++ [crc8 payload]).set i y = _
        rw [List.set_append_left _ _ hpayload]
        rfl
      rw [hset, take_payload (List.length_set), getD_check (List.length_set)] at hcheck
      have hsame : (framed magic version payload)[i + 2] = payload[i] := by
        have hin : i < (payload ++ [crc8 payload]).length := by
          rw [List.length_append]
          omega
        show (payload ++ [crc8 payload])[i] = _
        exact List.getElem_append_left hpayload
      rw [hsame] at hne
      exact Crc.crc_set_ne 8 (by decide) hpayload hne hcheck
    · -- the check has changed, and the payload has not
      have hlast : i = payload.length := by omega
      subst hlast
      have hset : (framed magic version payload).set (payload.length + 2) y =
          [magic, version] ++ payload ++ [y] := by
        rw [hframed]
        show magic :: version :: (payload ++ [crc8 payload]).set payload.length y = _
        rw [List.set_append_right _ _ le_rfl, Nat.sub_self]
        rfl
      rw [hset, take_payload rfl, getD_check rfl] at hcheck
      have hsame : (framed magic version payload)[payload.length + 2] = crc8 payload := by
        have hin : payload.length < (payload ++ [crc8 payload]).length := by
          rw [List.length_append]
          exact Nat.lt_succ_self _
        show (payload ++ [crc8 payload])[payload.length] = _
        exact List.getElem_concat_length rfl _
      rw [hsame] at hne
      exact hne hcheck.symm

theorem decode_accepted {img : List U8} (h : decode img ≠ none) :
    Accepted eepromMagic eepromVersion 5 img := by
  unfold decode at h
  split_ifs at h with hhead hcheck
  · exact absurd rfl h
  · exact absurd rfl h
  · obtain ⟨hmagic, hversion⟩ := not_or.1 hhead
    exact ⟨⟨not_not.1 hmagic, not_not.1 hversion⟩, not_not.1 hcheck⟩

theorem decodeFingerprint_accepted [CFloat F] {img : List U8}
    (h : decodeFingerprint (F := F) img ≠ none) :
    Accepted eepromFpMagic eepromFpVersion 28 img := by
  unfold decodeFingerprint at h
  split_ifs at h with hhead hcheck
  · exact absurd rfl h
  · exact absurd rfl h
  · obtain ⟨hmagic, hversion⟩ := not_or.1 hhead
    exact ⟨⟨not_not.1 hmagic, not_not.1 hversion⟩, not_not.1 hcheck⟩

end Framed

/-! ### The EEPROM -/

/-- Of `n` bytes from `base`, the byte `i` differs and no other. -/
def OneDiffers (base n i : Nat) (eeprom eeprom' : Nat → U8) : Prop :=
  ∀ j < n, eeprom' (base + j) = eeprom (base + j) ↔ j ≠ i

instance (base n i : Nat) (eeprom eeprom' : Nat → U8) :
    Decidable (OneDiffers base n i eeprom eeprom') :=
  inferInstanceAs (Decidable (∀ j < n, _ ↔ _))

/-- The bytes that are then read. -/
theorem readBytes_differing {base n i : Nat} {eeprom eeprom' : Nat → U8}
    (h : OneDiffers base n i eeprom eeprom') :
    readBytes eeprom' base n = (readBytes eeprom base n).set i (eeprom' (base + i)) := by
  refine List.ext_getElem (by simp [readBytes]) fun j hj _ => ?_
  have hjn : j < n := by simpa [readBytes] using hj
  rw [List.getElem_set]
  simp only [readBytes, List.getElem_map, List.getElem_range]
  by_cases hij : i = j
  · rw [if_pos hij, hij]
  · rw [if_neg hij]
    exact (h j hjn).2 (Ne.symm hij)

/-- In place of an image there are then its bytes with one of them changed. -/
theorem framed_differing {base n i : Nat} {eeprom eeprom' : Nat → U8} {magic version : U8}
    {payload : List U8} (h : OneDiffers base n i eeprom eeprom') (hi : i < n)
    (hread : readBytes eeprom base n = framed magic version payload) :
    ¬ Accepted magic version payload.length (readBytes eeprom' base n) := by
  have hlength : (readBytes eeprom base n).length = n := by simp [readBytes]
  rw [readBytes_differing h, hread]
  have hin : i < (framed magic version payload).length := by
    rw [← hread, hlength]
    exact hi
  refine framed_set hin ?_
  have hbyte : (framed magic version payload)[i] = eeprom (base + i) := by
    simp only [← hread, readBytes, List.getElem_map, List.getElem_range]
  rw [hbyte]
  exact mt (h i hi).1 fun hne => hne rfl

/-! ### Saves that return -/

theorem eepromPut_finished (base : Nat) (img : List U8) (eeprom : Nat → U8) :
    Triple (fun s : Sys F => s.board.eeprom = eeprom) (eepromPut base img)
      (fun _ s => s.board.eeprom = writeBytes eeprom base img) (fun _ => True) := by
  refine eepromPut_triple (fun _ _ => trivial) ?_ ?_ fun _ _ _ => trivial
  · intro s e rest _ h
    exact (Board.after_eeprom s.board e).trans h
  · intro s h
    show writeBytes s.board.eeprom base img = _
    rw [h]

theorem save_finished (pulses : U32) (valveOpen : Bool) (eeprom : Nat → U8) :
    Triple (fun s : Sys F => s.board.eeprom = eeprom) (save pulses valveOpen)
      (fun _ s => s.board.eeprom = writeBytes eeprom eepromBase (image pulses valveOpen))
      (fun _ => True) := by
  refine Triple.bind (eepromPut_finished eepromBase (image pulses valveOpen) eeprom) fun _ => ?_
  refine Keeps.bind (change_keeps fun _ h => h) fun _ => ?_
  refine Keeps.bind (emit_keeps fun _ h => h) fun _ => ?_
  refine Keeps.bind (millis_keeps (fun _ _ => trivial) fun t e rest _ h => ?_) fun _ => ?_
  · exact (Board.after_eeprom t.board e).trans h
  · exact change_keeps fun _ h => h

theorem saveFingerprint_finished [CFloat F] (params : Params F) (eeprom : Nat → U8) :
    Triple (fun s : Sys F => s.board.eeprom = eeprom) (saveFingerprint params)
      (fun _ s => s.board.eeprom = writeBytes eeprom eepromFpBase (fingerprintImage params))
      (fun _ => True) :=
  eepromPut_finished eepromFpBase (fingerprintImage params) eeprom

/-- What `load()` returns is what it finds. -/
theorem load_eq {t t' : Sys F} {r : Option (U32 × Bool)} (h : load t = (some r, t')) :
    r = stored t.board.eeprom := by
  have hload : Triple (fun s : Sys F => s.board.eeprom = t.board.eeprom) load
      (fun r s => s.board.eeprom = t.board.eeprom ∧ r = stored s.board.eeprom) (fun _ => True) := by
    refine WaterboxFsm.load_triple (fun _ _ => trivial) (fun s e rest _ hs => ?_) fun _ _ hs => hs
    exact (Board.after_eeprom s.board e).trans hs
  obtain ⟨hsame, hr⟩ := wp_finished (hload t rfl) h
  rw [hr, hsame]

/-- After a save that returned, `load()` and `loadFingerprint()` fail wherever exactly one byte of
    the image is another one than was written. -/
theorem corruption_caught [CFloat F] :
    (∀ (pulses : U32) (valveOpen : Bool) (s s' t t' : Sys F) (i : Nat) (r : Option (U32 × Bool)),
      save pulses valveOpen s = (some (), s') → i < 8 →
      OneDiffers eepromBase 8 i s'.board.eeprom t.board.eeprom → load t = (some r, t') → r = none) ∧
    ∀ (params : Params F) (s s' t t' : Sys F) (i : Nat) (r : Option (Params F)),
      saveFingerprint params s = (some (), s') → i < 31 →
      OneDiffers eepromFpBase 31 i s'.board.eeprom t.board.eeprom →
      loadFingerprint t = (some r, t') → r = none := by
  constructor
  · intro pulses valveOpen s s' t t' i r hsave hi hdiffers hload
    have hsaved := wp_finished (save_finished pulses valveOpen s.board.eeprom s rfl) hsave
    have hread : readBytes s'.board.eeprom eepromBase 8 =
        framed eepromMagic eepromVersion (payloadBytes pulses valveOpen) := by
      rw [hsaved]
      exact readBytes_writeBytes s.board.eeprom eepromBase (image pulses valveOpen)
    rw [load_eq hload]
    -- an image that is found would be accepted
    by_contra hfound
    exact framed_differing hdiffers hi hread (decode_accepted hfound)
  · intro params s s' t t' i r hsave hi hdiffers hload
    have hsaved := wp_finished (saveFingerprint_finished params s.board.eeprom s rfl) hsave
    have hread : readBytes s'.board.eeprom eepromFpBase 31 =
        framed eepromFpMagic eepromFpVersion (paramsBytes params) := by
      have himage := readBytes_writeBytes s.board.eeprom eepromFpBase (fingerprintImage params)
      rw [length_fingerprintImage] at himage
      rw [hsaved, himage]
      rfl
    have hr : r = storedFingerprint t.board.eeprom := by
      cases hload
      rfl
    rw [hr]
    by_contra hfound
    have hrejected := framed_differing hdiffers hi hread
    rw [length_paramsBytes] at hrejected
    exact hrejected (decodeFingerprint_accepted hfound)

/-- A new meter that has counted a litre. -/
def litreSaved : Sys Single :=
  (save 1000 false (Sys.powerUp blank false 0 (.replicate 8 willing))).2

/-- One bit of its EEPROM is another. -/
def worn : Sys Single :=
  { litreSaved with
    board := { litreSaved.board with
      eeprom := Function.update litreSaved.board.eeprom 3 (litreSaved.board.eeprom 3 ^^^ 0x10) } }

theorem corruption_caught_worn : (load worn).1 = some none := by
  have hsave : save 1000 false (Sys.powerUp blank false 0 (.replicate 8 willing)) =
      (some (), litreSaved) := Prod.ext (by decide +kernel) rfl
  have hdiffers : OneDiffers eepromBase 8 3 litreSaved.board.eeprom worn.board.eeprom := by
    decide +kernel
  obtain ⟨r, hr⟩ := Option.isSome_iff_exists.1 (by decide +kernel : (load worn).1.isSome)
  have hload : load worn = (some r, (load worn).2) := Prod.ext hr rfl
  rw [hr, (corruption_caught (F := Single)).1 1000 false _ _ worn _ 3 r hsave (by decide) hdiffers
    hload]

end MeterStore

end Waterbox
