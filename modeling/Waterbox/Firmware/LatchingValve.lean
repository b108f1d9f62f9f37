import Waterbox.Firmware.Machine

namespace Waterbox

/-!
# `LatchingValve.cpp`

A pulse through the coil moves the latch to the side its polarity selects.  The flag `open_` is
set after the pulse, in RAM.
-/

namespace LatchingValve

variable {F : Type}

/-- The members as the loader leaves them. -/
def reset : LatchingValve where
  speed := 0
  pulseMs := 0
  isOpen := false

/-- The latch after a pulse with the duty cycles `ia` and `ib` on the two inputs. -/
def moved (ia ib : U8) (latchOpen : Bool) : Bool :=
  if ib < ia then true else if ia < ib then false else latchOpen

/-- A change of the members. -/
def set (f : LatchingValve → LatchingValve) : Fw F Unit :=
  change fun b => { b with valve := f b.valve }

/-- `begin()` on the two pins of the driver; the flag starts as closed, wherever the latch is. -/
def begin (speed : U8) (pulseMs : Nat) : Fw F Unit :=
  set fun _ => { speed := speed, pulseMs := pulseMs, isOpen := false }

/-- `pulse(ia, ib)`.  A power cut during the pulse leaves the latch on either side: cut off
    before the latch has moved, or right after. -/
def pulse (ia ib : U8) : Fw F Unit := do
  let ms ← look (·.valve.pulseMs)
  delay ms
  change fun b => { b with latchOpen := moved ia ib b.latchOpen }

/-- `open()`. -/
def opens : Fw F Unit := do
  let speed ← look (·.valve.speed)
  pulse speed 0
  set fun v => { v with isOpen := true }

/-- `close()`. -/
def close : Fw F Unit := do
  let speed ← look (·.valve.speed)
  pulse 0 speed
  set fun v => { v with isOpen := false }

/-- `apply(open)`. -/
def apply (isOpen : Bool) : Fw F Unit := if isOpen then opens else close

end LatchingValve

end Waterbox
