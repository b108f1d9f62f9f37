import Waterbox.Firmware.Single
import Waterbox.Lib.Crc
import Waterbox.Firmware.Rounds

namespace Waterbox

/-!
# Writes that the power cuts off

`EEPROM.put` writes the bytes of an image in ascending order.  Where the power fails after some of
them, the next boot finds the new bytes up to there and the old ones behind, the old check among
them.

* `save_writes`, `saveFingerprint_writes` — a write that is cut off leaves leading bytes of the
  image.
* `framed_torn` — what is then in place of an image.
* `stored_torn`, `storedFingerprint_torn` — what `load()` and `loadFingerprint()` make of it.
* `save_believed`, `saveFingerprint_believed` — the same of whole calls, wherever the power fails.
* `torn_loads` — a mixture of old and new is believed only where the bytes that were written have
  the check of those they replaced, and two of them differ.
-/

open Cut

namespace MeterStore

variable {F : Type}

/-! ### What a write leaves -/

/-- Bytes from the start of an image have been written over the EEPROM `eeprom`. -/
def Written (eeprom : Nat → U8) (base : Nat) (image : List U8) (s : Sys F) : Prop :=
  ∃ k, s.board.eeprom = writeBytes eeprom base (image.take k)

theorem writeBytes_nil (eeprom : Nat → U8) (base : Nat) : writeBytes eeprom base [] = eeprom := by
  funext a
  by_cases ha : base ≤ a <;> simp [writeBytes, ha]

/-- Nothing has been written yet. -/
theorem Written.start {eeprom : Nat → U8} {s : Sys F} (h : s.board.eeprom = eeprom) (base : Nat)
    (image : List U8) : Written eeprom base image s :=
  ⟨0, h.trans (writeBytes_nil eeprom base).symm⟩

theorem eepromPut_written (eeprom : Nat → U8) (base : Nat) (image : List U8) :
    Triple (fun s : Sys F => s.board.eeprom = eeprom) (eepromPut base image)
      (fun _ => Written eeprom base image) (Written eeprom base image) := by
  refine eepromPut_triple (fun s h => Written.start h base image) ?_ ?_ ?_
  · intro s e rest _ h
    exact (Board.after_eeprom s.board e).trans h
  · intro s h
    refine ⟨image.length, ?_⟩
    rw [List.take_length, ← h]
    rfl
  · intro s k h
    refine ⟨k, ?_⟩
    rw [← h]
    rfl

/-- However `save()` ends, leading bytes of its image are in the EEPROM. -/
theorem save_writes (pulses : U32) (valveOpen : Bool) (s : Sys F) :
    Written s.board.eeprom eepromBase (image pulses valveOpen) (save pulses valveOpen s).2 := by
  refine wp_snd (m := save pulses valveOpen) ?_
  refine Triple.bind (eepromPut_written s.board.eeprom eepromBase (image pulses valveOpen))
    (fun _ => ?_) s rfl
  refine Keeps.bind (change_keeps fun _ h => h) fun _ => ?_
  refine Keeps.bind (emit_keeps fun _ h => h) fun _ => ?_
  refine Keeps.bind (millis_keeps (fun _ h => h) fun t e rest _ h => ?_) fun _ => ?_
  · obtain ⟨k, hk⟩ := h
    exact ⟨k, (Board.after_eeprom t.board e).trans hk⟩
  · exact change_keeps fun _ h => h

theorem saveFingerprint_writes [CFloat F] (params : Params F) (s : Sys F) :
    Written s.board.eeprom eepromFpBase (fingerprintImage params) (saveFingerprint params s).2 :=
  wp_snd (eepromPut_written s.board.eeprom eepromFpBase (fingerprintImage params) s rfl)

/-! ### Two images, one over the other -/

/-- The payload of an image of which `k` bytes were replaced. -/
def tornPayload (k : Nat) (old new : List U8) : List U8 := new.take (k - 2) ++ old.drop (k - 2)

/-- The bytes of the payload that were written have the check of those they replaced, although they
    are others. -/
def Collides (k : Nat) (old new : List U8) : Prop :=
  new.take (k - 2) ≠ old.take (k - 2) ∧ crc8 (new.take (k - 2)) = crc8 (old.take (k - 2))

instance (k : Nat) (old new : List U8) : Decidable (Collides k old new) :=
  inferInstanceAs (Decidable (_ ∧ _))

theorem readBytes_torn (eeprom : Nat → U8) (base k : Nat) (old new : List U8)
    (h : old.length = new.length) :
    readBytes (writeBytes (writeBytes eeprom base old) base (new.take k)) base new.length =
      new.take k ++ old.drop k := by
  have hlength : (new.take k ++ old.drop k).length = new.length := by
    rw [List.length_append, List.length_take, List.length_drop]
    omega
  -- the second write changes the first `k` places and leaves the rest of the first one
  have hover : writeBytes (writeBytes eeprom base old) base (new.take k) =
      writeBytes eeprom base (new.take k ++ old.drop k) := by
    funext a
    unfold writeBytes
    by_cases ha : base ≤ a
    · rw [if_pos ha, if_pos ha, if_pos ha]
      by_cases hk : a - base < (new.take k).length
      · rw [List.getElem?_append_left hk, List.getElem?_eq_getElem hk]
        rfl
      · rw [List.getElem?_eq_none (not_lt.1 hk), List.getElem?_append_right (not_lt.1 hk),
          List.getElem?_drop, Option.getD_none]
        rw [List.length_take] at hk ⊢
        by_cases hnew : k ≤ new.length
        · rw [min_eq_left hnew] at hk ⊢
          rw [Nat.add_sub_cancel' (not_lt.1 hk)]
        · rw [List.getElem?_eq_none (by omega), List.getElem?_eq_none (by omega)]
    · rw [if_neg ha, if_neg ha, if_neg ha]
  rw [hover, ← hlength]
  exact readBytes_writeBytes eeprom base _

/-- An image: magic number, version, payload and check. -/
def framed (magic version : U8) (payload : List U8) : List U8 :=
  [magic, version] ++ payload ++ [crc8 payload]

variable {magic version check : U8} {old new payload : List U8}

theorem length_framed : (framed magic version payload).length = payload.length + 3 := by
  rw [framed, List.length_append, List.length_append, Nat.add_comm _ payload.length]
  rfl

/-- The payload in its place, and the check behind it. -/
theorem take_payload {n : Nat} (h : payload.length = n) :
    (([magic, version] ++ payload ++ [check]).drop 2).take n = payload := List.take_left' h

theorem getD_check {n : Nat} (h : payload.length = n) :
    ([magic, version] ++ payload ++ [check]).getD (n + 2) 0 = check := by
  show (payload ++ [check]).getD n 0 = check
  rw [List.getD_append_right _ _ _ _ (le_of_eq h), h, Nat.sub_self]
  rfl

/-- What is in place of an image after `k` bytes of another one. -/
theorem framed_torn (h : old.length = new.length) (k : Nat) :
    (framed magic version new).take k ++ (framed magic version old).drop k =
      [magic, version] ++ tornPayload k old new ++
        [if new.length + 2 < k then crc8 new else crc8 old] := by
  rcases k with _ | _ | k
  · -- nothing of the payload was written
    simp [framed, tornPayload]
  · simp [framed, tornPayload]
  have hframed (xs : List U8) :
      framed magic version xs = magic :: version :: (xs ++ [crc8 xs]) := rfl
  rw [hframed, hframed, tornPayload]
  simp only [List.take_succ_cons, List.drop_succ_cons, List.cons_append]
  refine congrArg (fun t => magic :: version :: t) ?_
  by_cases hk : new.length < k
  · rw [if_pos (by omega), List.take_of_length_le (by simp; omega),
      List.drop_eq_nil_of_le (by simp; omega), List.take_of_length_le (by omega),
      List.drop_eq_nil_of_le (by omega)]
    simp
  · rw [if_neg (by omega), List.take_append_of_le_length (by omega),
      List.drop_append_of_le_length (by omega)]
    simp

theorem length_tornPayload (h : old.length = new.length) (k : Nat) :
    (tornPayload k old new).length = new.length := by
  rw [tornPayload, List.length_append, List.length_take, List.length_drop]
  omega

/-- The check of such a mixture is right if the whole image was written, or if the bytes written
    have the check of those they replaced. -/
theorem crc8_torn (h : old.length = new.length) (k : Nat) :
    crc8 (tornPayload k old new) = (if new.length + 2 < k then crc8 new else crc8 old) ↔
      new.length + 2 < k ∨ crc8 (new.take (k - 2)) = crc8 (old.take (k - 2)) := by
  by_cases hk : new.length + 2 < k
  · have hwhole : tornPayload k old new = new := by
      rw [tornPayload, List.take_of_length_le (by omega), List.drop_eq_nil_of_le (by omega),
        List.append_nil]
    rw [if_pos hk, hwhole]
    exact iff_of_true rfl (.inl hk)
  · rw [if_neg hk, or_iff_right hk]
    have hold : crc8 old = crc8 (old.take (k - 2) ++ old.drop (k - 2)) := by
      rw [List.take_append_drop]
    rw [hold, tornPayload]
    exact Crc.crc_append 8 (by decide) _ _ _

/-- What is read of an image of which `k` bytes were replaced. -/
theorem readBytes_framed_torn (eeprom : Nat → U8) (base : Nat) (magic version : U8)
    (h : old.length = new.length) (k : Nat) :
    ∃ check, readBytes (writeBytes (writeBytes eeprom base (framed magic version old)) base
        ((framed magic version new).take k)) base (new.length + 3) =
          [magic, version] ++ tornPayload k old new ++ [check] ∧
      (crc8 (tornPayload k old new) = check ↔
        new.length + 2 < k ∨ crc8 (new.take (k - 2)) = crc8 (old.take (k - 2))) := by
  have hread := readBytes_torn eeprom base k (framed magic version old) (framed magic version new)
    (by rw [length_framed, length_framed, h])
  rw [length_framed, framed_torn h] at hread
  exact ⟨_, hread, crc8_torn h k⟩

/-- Without a collision the payload that is believed is the old one or the new one. -/
theorem tornPayload_eq (h : old.length = new.length) {k : Nat}
    (hcrc : new.length + 2 < k ∨ crc8 (new.take (k - 2)) = crc8 (old.take (k - 2)))
    (hno : ¬ Collides k old new) : tornPayload k old new = old ∨ tornPayload k old new = new := by
  by_cases hk : new.length + 2 < k
  · right
    rw [tornPayload, List.take_of_length_le (by omega), List.drop_eq_nil_of_le (by omega),
      List.append_nil]
  · left
    have hsame : new.take (k - 2) = old.take (k - 2) := by
      by_contra hne
      exact hno ⟨hne, hcrc.resolve_left hk⟩
    rw [tornPayload, hsame, List.take_append_drop]

/-- Two bytes at least differ in a collision. -/
theorem Collides.two_le (h : old.length = new.length) {k : Nat} (hcollides : Collides k old new) :
    2 ≤ Crc.differing (new.take (k - 2)) (old.take (k - 2)) := by
  have hpoly : (0x8C : U8).msb = true := by decide
  refine Crc.two_le_differing 8 hpoly ?_ hcollides.1 hcollides.2
  rw [List.length_take, List.length_take, h]

/-! ### What is believed -/

/-- The bytes of pulses and valve. -/
def payloadBytes (pulses : U32) (valveOpen : Bool) : List U8 :=
  wordBytes pulses ++ [if valveOpen then 1 else 0]

/-- Pulses and valve as such bytes give them. -/
def values (bytes : List U8) : U32 × Bool := (bytesWord (bytes.take 4), bytes.getD 4 0 != 0)

theorem image_eq (pulses : U32) (valveOpen : Bool) :
    image pulses valveOpen = framed eepromMagic eepromVersion (payloadBytes pulses valveOpen) := rfl

theorem values_payloadBytes (pulses : U32) (valveOpen : Bool) :
    values (payloadBytes pulses valveOpen) = (pulses, valveOpen) := by
  have hword := bytesWord_wordBytes pulses
  cases valveOpen <;> simpa [values, payloadBytes, wordBytes] using hword

/-- `load()` after a write of which `k` bytes were done. -/
theorem stored_torn (eeprom : Nat → U8) (pulses pulses' : U32) (valveOpen valveOpen' : Bool)
    (k : Nat) :
    let old := payloadBytes pulses valveOpen
    let new := payloadBytes pulses' valveOpen'
    stored (writeBytes (writeBytes eeprom eepromBase (image pulses valveOpen)) eepromBase
        ((image pulses' valveOpen').take k)) =
      if new.length + 2 < k ∨ crc8 (new.take (k - 2)) = crc8 (old.take (k - 2)) then
        some (values (tornPayload k old new))
      else none := by
  intro old new
  have hlength : old.length = new.length := rfl
  have height : new.length + 3 = 8 := rfl
  obtain ⟨check, hread, hcrc⟩ :=
    readBytes_framed_torn eeprom eepromBase eepromMagic eepromVersion hlength k
  rw [height] at hread
  have htorn : (tornPayload k old new).length = 5 := length_tornPayload hlength k
  generalize tornPayload k old new = mixed at htorn hcrc hread ⊢
  -- the four bytes of the pulses, and the byte of the valve
  have hfour : ((([eepromMagic, eepromVersion] ++ mixed ++ [check]).drop 2).take 4) =
      mixed.take 4 := by
    show (mixed ++ [check]).take 4 = _
    exact List.take_append_of_le_length (by rw [htorn]; decide)
  have hvalve : ([eepromMagic, eepromVersion] ++ mixed ++ [check]).getD 6 0 = mixed.getD 4 0 := by
    show (mixed ++ [check]).getD 4 0 = _
    exact List.getD_append _ _ _ _ (by rw [htorn]; decide)
  rw [stored, image_eq, image_eq, hread, decode, take_payload htorn, getD_check htorn,
    hfour, hvalve, if_neg]
  · by_cases hgood : crc8 mixed = check
    · rw [if_neg fun hne => hne hgood, if_pos (hcrc.1 hgood)]
      rfl
    · rw [if_pos hgood, if_neg fun hh => hgood (hcrc.2 hh)]
  · rintro (hmagic | hversion)
    · exact hmagic rfl
    · exact hversion rfl

/-- `loadFingerprint()` after a write of which `k` bytes were done. -/
theorem storedFingerprint_torn [CFloat F] (eeprom : Nat → U8) (params params' : Params F)
    (k : Nat) :
    let old := paramsBytes params
    let new := paramsBytes params'
    storedFingerprint (F := F)
      (writeBytes (writeBytes eeprom eepromFpBase (fingerprintImage params))
        eepromFpBase ((fingerprintImage params').take k)) =
      if new.length + 2 < k ∨ crc8 (new.take (k - 2)) = crc8 (old.take (k - 2)) then
        some (bytesParams (tornPayload k old new))
      else none := by
  intro old new
  have himage (p : Params F) :
      fingerprintImage p = framed eepromFpMagic eepromFpVersion (paramsBytes p) := rfl
  have hold : old.length = 28 := length_paramsBytes params
  have hnew : new.length = 28 := length_paramsBytes params'
  have hlength : old.length = new.length := hold.trans hnew.symm
  rw [storedFingerprint, himage, himage]
  show decodeFingerprint (readBytes (writeBytes (writeBytes eeprom eepromFpBase
    (framed eepromFpMagic eepromFpVersion old)) eepromFpBase
    ((framed eepromFpMagic eepromFpVersion new).take k)) eepromFpBase 31) = _
  clear_value old new
  obtain ⟨check, hread, hcrc⟩ :=
    readBytes_framed_torn eeprom eepromFpBase eepromFpMagic eepromFpVersion hlength k
  have htorn : (tornPayload k old new).length = 28 :=
    (length_tornPayload hlength k).trans hnew
  generalize tornPayload k old new = mixed at htorn hcrc hread ⊢
  rw [hnew] at hread
  rw [hread, decodeFingerprint, take_payload htorn, getD_check htorn, if_neg]
  · by_cases hgood : crc8 mixed = check
    · rw [if_neg fun hne => hne hgood, if_pos (hcrc.1 hgood)]
    · rw [if_pos hgood, if_neg fun hh => hgood (hcrc.2 hh)]
  · rintro (hmagic | hversion)
    · exact hmagic rfl
    · exact hversion rfl

/-- What `read` makes of a payload of which `k` bytes of the image were written: nothing, the old
    value or the new one, unless the bytes collide; then the mixture, and two of them differ at
    least. -/
def Believed {α : Type} (read : List U8 → α) (k : Nat) (old new : List U8) (found : Option α) :
    Prop :=
  (¬ Collides k old new → found = none ∨ found = some (read old) ∨ found = some (read new)) ∧
  (Collides k old new → found = some (read (tornPayload k old new)) ∧
    2 ≤ Crc.differing (new.take (k - 2)) (old.take (k - 2)))

theorem believed_torn {α : Type} {read : List U8 → α} {k : Nat} {found : Option α}
    (hlength : old.length = new.length)
    (hfound : found = if new.length + 2 < k ∨ crc8 (new.take (k - 2)) = crc8 (old.take (k - 2)) then
      some (read (tornPayload k old new)) else none) : Believed read k old new found := by
  constructor
  · intro hno
    rw [hfound]
    split_ifs with hcrc
    · right
      rcases tornPayload_eq hlength hcrc hno with h | h
      · exact .inl (by rw [h])
      · exact .inr (by rw [h])
    · exact .inl rfl
  · intro hyes
    rw [hfound, if_pos (.inr hyes.2)]
    exact ⟨rfl, hyes.two_le hlength⟩

theorem stored_believed (eeprom : Nat → U8) (pulses pulses' : U32) (valveOpen valveOpen' : Bool)
    (k : Nat) :
    Believed values k (payloadBytes pulses valveOpen) (payloadBytes pulses' valveOpen')
      (stored (writeBytes (writeBytes eeprom eepromBase (image pulses valveOpen)) eepromBase
        ((image pulses' valveOpen').take k))) :=
  believed_torn rfl (stored_torn eeprom pulses pulses' valveOpen valveOpen' k)

theorem storedFingerprint_believed [CFloat F] (eeprom : Nat → U8) (params params' : Params F)
    (k : Nat) :
    Believed bytesParams k (paramsBytes params) (paramsBytes params')
      (storedFingerprint (F := F)
        (writeBytes (writeBytes eeprom eepromFpBase (fingerprintImage params)) eepromFpBase
          ((fingerprintImage params').take k))) := by
  refine believed_torn ?_ (storedFingerprint_torn eeprom params params' k)
  exact (length_paramsBytes params).trans (length_paramsBytes params').symm

/-- However `save()` ends over an image, `load()` finds a mixture of the two as above. -/
theorem save_believed (eeprom : Nat → U8) (pulses pulses' : U32) (valveOpen valveOpen' : Bool)
    {s : Sys F} (hold : s.board.eeprom = writeBytes eeprom eepromBase (image pulses valveOpen)) :
    ∃ k, Believed values k (payloadBytes pulses valveOpen) (payloadBytes pulses' valveOpen')
      (stored (save pulses' valveOpen' s).2.board.eeprom) := by
  obtain ⟨k, hk⟩ := save_writes pulses' valveOpen' s
  rw [hk, hold]
  exact ⟨k, stored_believed eeprom pulses pulses' valveOpen valveOpen' k⟩

/-- However `saveFingerprint()` ends over an image, so does `loadFingerprint()`. -/
theorem saveFingerprint_believed [CFloat F] (eeprom : Nat → U8) (params params' : Params F)
    {s : Sys F}
    (hold : s.board.eeprom = writeBytes eeprom eepromFpBase (fingerprintImage params)) :
    ∃ k, Believed bytesParams k (paramsBytes params) (paramsBytes params')
      (storedFingerprint (F := F) (saveFingerprint params' s).2.board.eeprom) := by
  obtain ⟨k, hk⟩ := saveFingerprint_writes params' s
  rw [hk, hold]
  exact ⟨k, storedFingerprint_believed eeprom params params' k⟩

/-- After a write that the power cut off, `load()` and `loadFingerprint()` fail or return the old
    values or the new ones, unless the bytes of the payload that were written collide with those
    they replaced.  Then the mixture is believed. -/
theorem torn_loads [CFloat F] [LawfulBits F] (eeprom : Nat → U8) (k : Nat) :
    (∀ (pulses pulses' : U32) (valveOpen valveOpen' : Bool),
      values (payloadBytes pulses valveOpen) = (pulses, valveOpen) ∧
      values (payloadBytes pulses' valveOpen') = (pulses', valveOpen') ∧
      Believed values k (payloadBytes pulses valveOpen) (payloadBytes pulses' valveOpen')
        (stored (writeBytes (writeBytes eeprom eepromBase (image pulses valveOpen)) eepromBase
          ((image pulses' valveOpen').take k)))) ∧
    ∀ params params' : Params F,
      bytesParams (paramsBytes params) = params ∧ bytesParams (paramsBytes params') = params' ∧
      Believed bytesParams k (paramsBytes params) (paramsBytes params')
        (storedFingerprint (F := F)
          (writeBytes (writeBytes eeprom eepromFpBase (fingerprintImage params)) eepromFpBase
            ((fingerprintImage params').take k))) := by
  constructor
  · intro pulses pulses' valveOpen valveOpen'
    refine ⟨values_payloadBytes _ _, values_payloadBytes _ _, ?_⟩
    exact stored_believed eeprom pulses pulses' valveOpen valveOpen' k
  · intro params params'
    refine ⟨bytesParams_paramsBytes _, bytesParams_paramsBytes _, ?_⟩
    exact storedFingerprint_believed eeprom params params' k

/-- One pulse more, and the power fails after its lowest byte. -/
theorem torn_loads_pulse :
    let found := stored (writeBytes (writeBytes blank eepromBase (image 1000 false)) eepromBase
      ((image 1001 false).take 3))
    found = none ∨ found = some (1000, false) ∨ found = some (1001, false) :=
  ((torn_loads (F := Single) blank 3).1 1000 1001 false false).2.2.1 (by decide +kernel)

/-- The check of the bytes `01 5E` is that of `00 00`: with the pulses already written and the valve
    not yet, the mixture is believed. -/
theorem torn_believed :
    let found := stored (writeBytes (writeBytes blank eepromBase (image 0 false)) eepromBase
      ((image 0x5E01 true).take 4))
    found ≠ none ∧ found ≠ some (0, false) ∧ found ≠ some (0x5E01, true) := by
  decide +kernel

end MeterStore

end Waterbox
