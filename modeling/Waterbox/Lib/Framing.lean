import Mathlib.Data.BitVec
import Mathlib.Data.List.Basic

namespace Waterbox

/-!
# Frames in a stream of bytes

A frame is a byte that says what it is, the length of its body in base 128, and the body.

* `varint` — a number as digits of seven bits, lowest first, the high bit set on all but the last;
  `readVarint_varint` reads it back in front of any other bytes.
* `Frame.bytes`, `Frame.read` — one frame; `Frame.read_bytes` reads it back in front of any other
  bytes, so a stream can be split into its frames in one way only.
* `Frame.readAll_stream` — a stream of frames is read back as these frames.
* `word`, `text` — a number of two bytes, highest first, and bytes with their number before them.
-/

namespace Framing

/-- Eight bits of the stream. -/
abbrev Byte : Type := BitVec 8

/-! ### Numbers in base 128 -/

/-- The digits of `n` in base 128, lowest first; another digit follows where the high bit is
    set. -/
def varint (n : Nat) : List Byte :=
  if n < 128 then [BitVec.ofNat 8 n] else BitVec.ofNat 8 (n % 128 + 128) :: varint (n / 128)

/-- The number at the start, and the bytes behind it. -/
def readVarint : List Byte → Option (Nat × List Byte)
  | [] => none
  | b :: bs =>
    if b.toNat < 128 then some (b.toNat, bs)
    else (readVarint bs).map fun r => (b.toNat - 128 + 128 * r.1, r.2)

/-- A small number is one byte. -/
theorem varint_of_lt {n : Nat} (h : n < 128) : varint n = [BitVec.ofNat 8 n] := by
  rw [varint, if_pos h]

/-- Any other begins with seven of its bits and the mark that more follow. -/
theorem varint_of_le {n : Nat} (h : 128 ≤ n) :
    varint n = BitVec.ofNat 8 (n % 128 + 128) :: varint (n / 128) := by
  rw [varint, if_neg (by omega)]

theorem varint_ne_nil (n : Nat) : varint n ≠ [] := by
  rw [varint]
  split <;> simp

theorem toNat_ofNat_of_lt {n : Nat} (h : n < 256) : (BitVec.ofNat 8 n).toNat = n := by
  rw [BitVec.toNat_ofNat]
  exact Nat.mod_eq_of_lt h

/-- A number that was written is read, whatever follows it. -/
theorem readVarint_varint (n : Nat) (rest : List Byte) :
    readVarint (varint n ++ rest) = some (n, rest) := by
  induction n using Nat.strongRecOn with
  | ind n ih =>
    by_cases h : n < 128
    · have hb : (BitVec.ofNat 8 n).toNat = n := toNat_ofNat_of_lt (by omega)
      simp [varint_of_lt h, readVarint, hb, h]
    · have hb : (BitVec.ofNat 8 (n % 128 + 128)).toNat = n % 128 + 128 :=
        toNat_ofNat_of_lt (by omega)
      have hlow : n % 128 + 128 - 128 + 128 * (n / 128) = n := by omega
      have hhigh : ¬ n % 128 + 128 < 128 := by omega
      rw [varint_of_le (Nat.le_of_not_lt h), List.cons_append, readVarint, hb, if_neg hhigh,
        ih (n / 128) (by omega), Option.map_some, hlow]

/-- The digits of a number below `128 ^ k` are at most `k`. -/
theorem length_varint_le (k n : Nat) (h : n < 128 ^ (k + 1)) : (varint n).length ≤ k + 1 := by
  induction k generalizing n with
  | zero => simp [varint_of_lt (by omega : n < 128)]
  | succ k ih =>
    by_cases hn : n < 128
    · simp [varint_of_lt hn]
    · rw [varint_of_le (Nat.le_of_not_lt hn), List.length_cons]
      have := ih (n / 128) (Nat.div_lt_of_lt_mul (by rw [pow_succ] at h; omega))
      omega

/-! ### Two-byte numbers and texts -/

/-- A number as two bytes, highest first. -/
def word (n : Nat) : List Byte := [BitVec.ofNat 8 (n / 256), BitVec.ofNat 8 (n % 256)]

/-- Two bytes, the high one first. -/
def readWord : List Byte → Option (Nat × List Byte)
  | a :: b :: rest => some (a.toNat * 256 + b.toNat, rest)
  | _ => none

/-- Bytes behind their number. -/
def text (s : List Byte) : List Byte := word s.length ++ s

/-- A text and what follows it. -/
def readText (bs : List Byte) : Option (List Byte × List Byte) := do
  let (n, rest) ← readWord bs
  if n ≤ rest.length then some (rest.take n, rest.drop n) else none

@[simp] theorem length_word (n : Nat) : (word n).length = 2 := rfl

@[simp] theorem length_text (s : List Byte) : (text s).length = 2 + s.length := by
  rw [text, List.length_append, length_word]

@[simp] theorem readWord_word {n : Nat} (h : n < 65536) (rest : List Byte) :
    readWord (word n ++ rest) = some (n, rest) := by
  have hhigh : (BitVec.ofNat 8 (n / 256)).toNat = n / 256 := toNat_ofNat_of_lt (by omega)
  have hlow : (BitVec.ofNat 8 (n % 256)).toNat = n % 256 := toNat_ofNat_of_lt (by omega)
  have hn : n / 256 * 256 + n % 256 = n := by omega
  simp only [word, List.cons_append, List.nil_append, readWord, hhigh, hlow, hn]

/-- A text is read back, whatever follows. -/
theorem readText_text {s : List Byte} (h : s.length < 65536) (rest : List Byte) :
    readText (text s ++ rest) = some (s, rest) := by
  simp [readText, text, List.append_assoc, readWord_word h]

/-! ### Frames -/

/-- A frame: what it is, and its body. -/
structure Frame where
  header : Byte
  body : List Byte
deriving DecidableEq

namespace Frame

/-- The frame on the line. -/
def bytes (f : Frame) : List Byte := f.header :: (varint f.body.length ++ f.body)

/-- All bytes of the frame. -/
def size (f : Frame) : Nat := 1 + (varint f.body.length).length + f.body.length

/-- The frame at the start, and the bytes behind it. -/
def read : List Byte → Option (Frame × List Byte)
  | [] => none
  | header :: bs =>
    match readVarint bs with
    | none => none
    | some (n, rest) =>
      if n ≤ rest.length then some (⟨header, rest.take n⟩, rest.drop n) else none

/-- Frames one behind the other. -/
def stream (fs : List Frame) : List Byte := fs.flatMap bytes

/-- At most `n` frames, which must use up all the bytes. -/
def readMany : Nat → List Byte → Option (List Frame)
  | _, [] => some []
  | 0, _ :: _ => none
  | n + 1, b :: bs =>
    match read (b :: bs) with
    | none => none
    | some (f, rest) => (readMany n rest).map (f :: ·)

/-- The frames of a stream; every frame takes at least one byte. -/
def readAll (bs : List Byte) : Option (List Frame) := readMany bs.length bs

@[simp] theorem length_bytes (f : Frame) : f.bytes.length = f.size := by
  simp only [bytes, size, List.length_cons, List.length_append]
  omega

/-- A short body has a length of one digit. -/
theorem bytes_of_lt {f : Frame} (h : f.body.length < 128) :
    f.bytes = f.header :: BitVec.ofNat 8 f.body.length :: f.body := by
  rw [bytes, varint_of_lt h, List.singleton_append]

/-- A short frame has a header of two bytes. -/
theorem size_of_lt {f : Frame} (h : f.body.length < 128) : f.size = 2 + f.body.length := by
  rw [size, varint_of_lt h, List.length_singleton]

theorem size_pos (f : Frame) : 2 ≤ f.size := by
  have := List.length_pos_iff.2 (varint_ne_nil f.body.length)
  rw [size]
  omega

@[simp] theorem stream_nil : stream [] = [] := rfl

@[simp] theorem stream_cons (f : Frame) (fs : List Frame) :
    stream (f :: fs) = f.bytes ++ stream fs := rfl

@[simp] theorem stream_append (fs gs : List Frame) :
    stream (fs ++ gs) = stream fs ++ stream gs := List.flatMap_append

/-- A frame that was written is read, whatever follows it. -/
theorem read_bytes (f : Frame) (rest : List Byte) : read (f.bytes ++ rest) = some (f, rest) := by
  rw [bytes, List.cons_append, List.append_assoc, read, readVarint_varint]
  simp

/-- All frames of a stream are read back. -/
theorem readMany_stream (fs : List Frame) (n : Nat) (h : fs.length ≤ n) :
    readMany n (stream fs) = some fs := by
  induction fs generalizing n with
  | nil => cases n <;> rfl
  | cons f fs ih =>
    cases n with
    | zero => simp at h
    | succ n =>
      obtain ⟨b, bs, hb⟩ : ∃ b bs, f.bytes ++ stream fs = b :: bs := ⟨_, _, rfl⟩
      have hread := read_bytes f (stream fs)
      rw [stream_cons, hb]
      rw [hb] at hread
      simp only [readMany, hread, ih n (Nat.le_of_succ_le_succ h), Option.map_some]

/-- No frame is lost between the bytes of a stream. -/
theorem length_le_stream (fs : List Frame) : fs.length ≤ (stream fs).length := by
  induction fs with
  | nil => simp
  | cons f fs ih =>
    rw [stream_cons, List.length_append, length_bytes, List.length_cons]
    have := f.size_pos
    omega

/-- A stream of frames is read back as these frames. -/
theorem readAll_stream (fs : List Frame) : readAll (stream fs) = some fs :=
  readMany_stream fs _ (length_le_stream fs)

end Frame

end Framing

end Waterbox
