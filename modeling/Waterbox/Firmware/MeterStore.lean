import Mathlib.Data.List.GetD
import Waterbox.Firmware.Machine

namespace Waterbox

/-!
# `MeterStore.cpp`

Two images in one EEPROM: pulses and valve at address 0, the fingerprint at address 32.  Both
carry a magic number, a version and a CRC over their payload.
-/

namespace MeterStore

variable {F : Type}

/-- `EEPROM_MAGIC`, the first byte of the image of pulses and valve. -/
def eepromMagic : U8 := 0xA5
/-- `EEPROM_VERSION`, its second byte. -/
def eepromVersion : U8 := 1
/-- `EEPROM_BASE`, where it starts. -/
def eepromBase : Nat := 0
/-- `EEPROM_FP_MAGIC`, the first byte of the image of the fingerprint. -/
def eepromFpMagic : U8 := 0x5A
/-- `EEPROM_FP_VERSION`, its second byte. -/
def eepromFpVersion : U8 := 1
/-- `EEPROM_FP_BASE`, where it starts. -/
def eepromFpBase : Nat := 32

/-- One bit of `crc8`. -/
def crcShift (crc : U8) : U8 := if crc.getLsbD 0 then (crc >>> 1) ^^^ 0x8C else crc >>> 1

/-- One byte of `crc8`. -/
def crcByte (crc data : U8) : U8 := crcShift^[8] (crc ^^^ data)

/-- The check of an image, over its payload. -/
def crc8 (data : List U8) : U8 := data.foldl crcByte 0

/-- The bytes of a 32-bit word in memory, least significant first. -/
def wordBytes (w : U32) : List U8 :=
  [w.extractLsb' 0 8, w.extractLsb' 8 8, w.extractLsb' 16 8, w.extractLsb' 24 8]

/-- The word four bytes in memory stand for. -/
def bytesWord (b : List U8) : U32 :=
  b.getD 3 0 ++ b.getD 2 0 ++ b.getD 1 0 ++ b.getD 0 0

/-! ### The image of pulses and valve -/

/-- The image `save()` writes. -/
def image (pulses : U32) (valveOpen : Bool) : List U8 :=
  let valve : U8 := if valveOpen then 1 else 0
  let payload := wordBytes pulses ++ [valve]
  [eepromMagic, eepromVersion] ++ payload ++ [crc8 payload]

/-- What `load()` makes of the image: the pulses and the valve, or a rejection. -/
def decode (img : List U8) : Option (U32 × Bool) :=
  if img.getD 0 0 ≠ eepromMagic ∨ img.getD 1 0 ≠ eepromVersion then none
  else if crc8 ((img.drop 2).take 5) ≠ img.getD 7 0 then none
  -- any byte but 0 is an open valve
  else some (bytesWord ((img.drop 2).take 4), img.getD 6 0 != 0)

/-- What `load()` finds in an EEPROM. -/
def stored (eeprom : Nat → U8) : Option (U32 × Bool) := decode (readBytes eeprom eepromBase 8)

/-- A change of the members. -/
def set (f : MeterStore → MeterStore) : Fw F Unit := change fun b => { b with store := f b.store }

/-- `load()`, with the values it returns through its arguments; `none` where it returns `false`. -/
def load : Fw F (Option (U32 × Bool)) := do
  set fun st => { st with dirty := false }
  let now ← millis
  -- the first save waits for a whole interval after the boot
  set fun st => { st with lastSaveMs := now }
  look fun b => stored b.eeprom

/-- `save()`; the flag is cleared once the whole image is written. -/
def save (pulses : U32) (valveOpen : Bool) : Fw F Unit := do
  eepromPut eepromBase (image pulses valveOpen)
  set fun st => { st with dirty := false }
  -- the image is complete
  emit .saved
  let now ← millis
  set fun st => { st with lastSaveMs := now }

/-- `markDirty()`. -/
def markDirty : Fw F Unit := set fun st => { st with dirty := true }

/-- `saveIfDue()`; the difference of the two readings wraps with the clock. -/
def saveIfDue (pulses : U32) (valveOpen : Bool) (minIntervalMs : U32) : Fw F Unit := do
  let dirty ← look (·.store.dirty)
  if !dirty then pure ()
  else
    let now ← millis
    let lastSaveMs ← look (·.store.lastSaveMs)
    if now - lastSaveMs < minIntervalMs then pure () else save pulses valveOpen

/-! ### The image of the fingerprint -/

variable [CFloat F]

/-- The seven floats of `Params` in memory order. -/
def paramsBytes (p : Params F) : List U8 :=
  [p.mean, p.a1, p.phi1, p.t1, p.a2, p.phi2, p.t2].flatMap fun x => wordBytes (CFloat.bits x)

/-- The parameters that such bytes stand for. -/
def bytesParams (b : List U8) : Params F :=
  let word (i : Nat) : F := CFloat.ofBits (bytesWord ((b.drop (4 * i)).take 4))
  { mean := word 0, a1 := word 1, phi1 := word 2, t1 := word 3, a2 := word 4, phi2 := word 5,
    t2 := word 6 }

/-- The image `saveFingerprint()` writes. -/
def fingerprintImage (params : Params F) : List U8 :=
  [eepromFpMagic, eepromFpVersion] ++ paramsBytes params ++ [crc8 (paramsBytes params)]

/-- What `loadFingerprint()` makes of the image. -/
def decodeFingerprint (img : List U8) : Option (Params F) :=
  if img.getD 0 0 ≠ eepromFpMagic ∨ img.getD 1 0 ≠ eepromFpVersion then none
  else if crc8 ((img.drop 2).take 28) ≠ img.getD 30 0 then none
  else some (bytesParams ((img.drop 2).take 28))

/-- What `loadFingerprint()` finds in an EEPROM. -/
def storedFingerprint (eeprom : Nat → U8) : Option (Params F) :=
  decodeFingerprint (readBytes eeprom eepromFpBase 31)

/-- `loadFingerprint()`, which reads the EEPROM and nothing else. -/
def loadFingerprint : Fw F (Option (Params F)) := look fun b => storedFingerprint b.eeprom

/-- `saveFingerprint()`; neither the flag nor the time of the last save is about it. -/
def saveFingerprint (params : Params F) : Fw F Unit :=
  eepromPut eepromFpBase (fingerprintImage params)

/-! ### What is written is what is read -/

/-- Bit by bit: each byte puts its bits back in their places. -/
theorem bytesWord_wordBytes (w : U32) : bytesWord (wordBytes w) = w := by
  apply BitVec.eq_of_getLsbD_eq
  intro i hi
  simp only [bytesWord, wordBytes, List.getD_cons_zero, List.getD_cons_succ, BitVec.getLsbD_append,
    BitVec.getLsbD_extractLsb']
  -- the byte that bit `i` lies in
  rcases Nat.lt_or_ge i 8 with h | h
  · simp [h]
  rcases Nat.lt_or_ge i 16 with h' | h'
  · have hi' : 8 + (i - 8) = i := by omega
    simp [show ¬ i < 8 by omega, show i - 8 < 8 by omega, hi']
  rcases Nat.lt_or_ge i 24 with h'' | h''
  · have hi' : 16 + (i - 8 - 8) = i := by omega
    simp [show ¬ i < 8 by omega, show ¬ i - 8 < 8 by omega, show i - 8 - 8 < 8 by omega, hi']
  · have hi' : 24 + (i - 8 - 8 - 8) = i := by omega
    simp [show ¬ i < 8 by omega, show ¬ i - 8 < 8 by omega, show ¬ i - 8 - 8 < 8 by omega,
      show i - 8 - 8 - 8 < 8 by omega, hi']

/-- An image that is whole is accepted, with the values it was made of. -/
theorem decode_image (pulses : U32) (valveOpen : Bool) :
    decode (image pulses valveOpen) = some (pulses, valveOpen) := by
  have hword := bytesWord_wordBytes pulses
  cases valveOpen <;> simpa [decode, image, wordBytes, eepromMagic, eepromVersion] using hword

/-- `load()` after `save()`. -/
theorem stored_image (eeprom : Nat → U8) (pulses : U32) (valveOpen : Bool) :
    stored (writeBytes eeprom eepromBase (image pulses valveOpen)) = some (pulses, valveOpen) := by
  have hread := readBytes_writeBytes eeprom eepromBase (image pulses valveOpen)
  have hlength : (image pulses valveOpen).length = 8 := rfl
  rw [hlength] at hread
  rw [stored, hread, decode_image]

/-- Seven floats of four bytes. -/
theorem length_paramsBytes (params : Params F) : (paramsBytes params).length = 28 := rfl

/-- Magic number, version and check besides. -/
theorem length_fingerprintImage (params : Params F) : (fingerprintImage params).length = 31 := by
  rw [fingerprintImage, List.length_append, List.length_append, length_paramsBytes]
  rfl

/-- The two images do not touch each other. -/
theorem stored_fingerprintImage (eeprom : Nat → U8) (bytes : List U8) :
    stored (writeBytes eeprom eepromFpBase bytes) = stored eeprom := by
  rw [stored, stored, readBytes_writeBytes_disjoint]
  exact .inr (by decide)

/-- Nor does a save of pulses and valve reach the fingerprint. -/
theorem storedFingerprint_image (eeprom : Nat → U8) (pulses : U32) (valveOpen : Bool) :
    storedFingerprint (F := F) (writeBytes eeprom eepromBase (image pulses valveOpen)) =
      storedFingerprint eeprom := by
  rw [storedFingerprint, storedFingerprint, readBytes_writeBytes_disjoint]
  have hlength : (image pulses valveOpen).length = 8 := rfl
  exact .inl (by rw [hlength]; decide)

/-- Float by float, where a float is its bits. -/
theorem bytesParams_paramsBytes [LawfulBits F] (params : Params F) :
    bytesParams (paramsBytes params) = params := by
  have hword : ∀ x : F, CFloat.ofBits (bytesWord (wordBytes (CFloat.bits x))) = x := fun x => by
    rw [bytesWord_wordBytes, LawfulBits.ofBits_bits]
  obtain ⟨mean, a1, phi1, t1, a2, phi2, t2⟩ := params
  simp only [Params.mk.injEq, bytesParams]
  exact ⟨hword mean, hword a1, hword phi1, hword t1, hword a2, hword phi2, hword t2⟩

/-- An image of the fingerprint that is whole is accepted. -/
theorem decodeFingerprint_image [LawfulBits F] (params : Params F) :
    decodeFingerprint (fingerprintImage params) = some params := by
  have hlength := length_paramsBytes params
  generalize hbytes : paramsBytes params = bytes at hlength
  have htake : ((fingerprintImage params).drop 2).take 28 = bytes := by
    rw [fingerprintImage, hbytes, List.append_assoc]
    exact List.take_left' hlength
  have hcrc : (fingerprintImage params).getD 30 0 = crc8 bytes := by
    rw [fingerprintImage, hbytes, List.getD_append_right _ _ _ _ (by simp [hlength])]
    simp [hlength]
  rw [decodeFingerprint, htake, hcrc, ← hbytes, bytesParams_paramsBytes, if_neg, if_neg]
  · exact fun h => h rfl
  · rintro (h | h)
    · exact h rfl
    · exact h rfl

/-- `loadFingerprint()` after `saveFingerprint()`. -/
theorem storedFingerprint_fingerprintImage [LawfulBits F] (eeprom : Nat → U8) (params : Params F) :
    storedFingerprint (writeBytes eeprom eepromFpBase (fingerprintImage params)) =
      some params := by
  have hread := readBytes_writeBytes eeprom eepromFpBase (fingerprintImage params)
  rw [length_fingerprintImage] at hread
  rw [storedFingerprint, hread, decodeFingerprint_image]

end MeterStore

end Waterbox
