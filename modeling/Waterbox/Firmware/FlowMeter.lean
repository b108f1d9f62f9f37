import Waterbox.Firmware.Machine

namespace Waterbox

/-!
# `FlowMeter.cpp`

The pulse counter is shared with the interrupt: `preempt` stands between the statements of the
main program's methods, and `takePulses` has none because it runs with interrupts off.
-/

namespace FlowMeter

variable {F : Type} [CFloat F]

/-- The members as the loader leaves them, before `begin()`. -/
def reset : FlowMeter F where
  pulsesPerLiter := 0
  sampleMs := 0
  pulseCount := 0
  totalPulses := 0
  intervalMilliLitres := 0
  oldTime := 0
  litresPerMinute := CFloat.ofRat 0
  dirty := false
  taken := 0

/-- Volume of `pulses` in millilitres, computed in 32 bits as the source does. -/
def milliLitres (pulses : U32) (pulsesPerLiter : U16) : U32 :=
  pulses * 1000 / pulsesPerLiter.setWidth 32

def totalMilliLitres (fm : FlowMeter F) : U32 :=
  if fm.pulsesPerLiter = 0 then 0 else milliLitres fm.totalPulses fm.pulsesPerLiter

/-- Flow in L/min of `pulses` within `elapsed` ms. -/
def flowRate (pulses elapsed : U32) (pulsesPerLiter : U16) : F :=
  CFloat.div (CFloat.mul (CFloat.ofRat pulses.toNat) (CFloat.ofRat 60000))
    (CFloat.mul (CFloat.ofRat elapsed.toNat) (CFloat.ofRat pulsesPerLiter.toNat))

/-- A statement of a method of the flow meter. -/
def set (f : FlowMeter F → FlowMeter F) : Fw F Unit := change fun b => { b with flow := f b.flow }

/-- `begin(pin, pulsesPerLiter, sampleMs)` on a pin that has an external interrupt. -/
def begin (pulsesPerLiter : U16) (sampleMs : U32) : Fw F Unit := do
  set fun fm =>
    { fm with
      pulsesPerLiter := pulsesPerLiter
      sampleMs := sampleMs
      pulseCount := 0
      totalPulses := 0
      intervalMilliLitres := 0
      litresPerMinute := CFloat.ofRat 0
      dirty := false }
  let now ← millis
  set fun fm => { fm with oldTime := now }
  preempt
  -- `attachInterrupt`: pulses are counted from here on
  change fun b => { b with attached := true, edges := 0 }
  preempt

def setTotalPulses (pulses : U32) : Fw F Unit := do
  preempt
  set fun fm => { fm with totalPulses := pulses }

/-- `consumeDirty()`. -/
def consumeDirty : Fw F Bool := do
  let d ← look (·.flow.dirty)
  preempt
  set fun fm => { fm with dirty := false }
  pure d

/-- `takePulses()`, between `noInterrupts()` and `interrupts()`. -/
def takePulses : Fw F U32 := do
  let n ← look (·.flow.pulseCount)
  set fun fm => { fm with pulseCount := 0, taken := n }
  pure n

/-- Add the pulses taken to the total, where there are any. -/
def fold (pulses : U32) : Fw F Unit :=
  if pulses ≠ 0 then do
    set fun fm => { fm with totalPulses := fm.totalPulses + pulses, taken := 0 }
    preempt
    -- an interrupt in between finds the new total without the flag
    set fun fm => { fm with dirty := true }
  else set fun fm => { fm with taken := 0 }

/-- The figures for the interval that is over. -/
def measure (pulses elapsed : U32) : Fw F Unit :=
  set fun fm =>
    -- without a scale there is no volume
    if fm.pulsesPerLiter = 0 then
      { fm with intervalMilliLitres := 0, litresPerMinute := CFloat.ofRat 0 }
    else
      { fm with
        intervalMilliLitres := milliLitres pulses fm.pulsesPerLiter
        litresPerMinute :=
          if elapsed = 0 then CFloat.ofRat 0 else flowRate pulses elapsed fm.pulsesPerLiter }

/-- The part of `update()` after the sampling interval has been found to be over. -/
def sample (now elapsed : U32) : Fw F Unit := do
  let pulses ← takePulses
  emit .sampled
  preempt
  set fun fm => { fm with oldTime := now }
  preempt
  fold pulses
  preempt
  measure pulses elapsed

def update : Fw F Unit := do
  let now ← millis
  let fm ← look (·.flow)
  -- modulo 2 ^ 32, as the clock
  let elapsed := now - fm.oldTime
  if elapsed < fm.sampleMs then pure () else sample now elapsed

end FlowMeter

end Waterbox
