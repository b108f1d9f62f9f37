import Waterbox.Firmware.Device

namespace Waterbox

/-!
# `ConsumptionSignature.cpp`

The household's model `W(t) = mean + a1·sin(2πt/t1 + phi1) + a2·sin(2πt/t2 + phi2)` and the
verdict on a measured flow.
-/

namespace ConsumptionSignature

variable {F : Type} [CFloat F]

open CFloat (ofRat add mul div lt le beq sinf pi)

/-- The object after `clear()`, which its constructor calls. -/
def clear : ConsumptionSignature F where
  params :=
    { mean := ofRat 0
      a1 := ofRat 0
      phi1 := ofRat 0
      t1 := ofRat Settings.sigT1H
      a2 := ofRat 0
      phi2 := ofRat 0
      t2 := ofRat Settings.sigT2H }
  valid := false

/-- The object after `setParams(params)`: periods that are not positive are repaired. -/
def setParams (params : Params F) : ConsumptionSignature F where
  params :=
    { params with
      t1 := if le params.t1 (ofRat 0) then ofRat Settings.sigT1H else params.t1
      t2 := if le params.t2 (ofRat 0) then ofRat Settings.sigT2H else params.t2 }
  valid := true

/-- One sine term of the model, left out where its period or amplitude is no use. -/
def addTerm (w a phi t hourOfDay : F) : F :=
  if lt (ofRat 0) t && !beq a (ofRat 0) then
    add w (mul a (sinf (add (div (mul (mul (ofRat 2) pi) hourOfDay) t) phi)))
  else w

def predict (sig : ConsumptionSignature F) (hourOfDay : F) : F :=
  let w := sig.params.mean
  let w := addTerm w sig.params.a1 sig.params.phi1 sig.params.t1 hourOfDay
  let w := addTerm w sig.params.a2 sig.params.phi2 sig.params.t2 hourOfDay
  -- no household gives water back
  if lt w (ofRat 0) then ofRat 0 else w

def isNight (hourOfDay : F) : Bool :=
  if Settings.sigNightStartH ≤ Settings.sigNightEndH then
    le (ofRat Settings.sigNightStartH) hourOfDay && lt hourOfDay (ofRat Settings.sigNightEndH)
  else
    -- a night over midnight
    le (ofRat Settings.sigNightStartH) hourOfDay || lt hourOfDay (ofRat Settings.sigNightEndH)

def classify (sig : ConsumptionSignature F) (measuredLm hourOfDay : F) : Verdict :=
  if !sig.valid then .ok
  else
    let expected := sig.predict hourOfDay
    if isNight hourOfDay then
      -- below the floor the sensor's noise would count as a leak
      if le (ofRat Settings.sigFlowFloorLm) measuredLm &&
          lt (add expected (ofRat Settings.sigLeakMarginLm)) measuredLm then
        .nightLeak
      else .ok
    else if le (ofRat Settings.sigFlowFloorLm) measuredLm &&
        lt (add expected (ofRat Settings.sigOverMarginLm)) measuredLm then
      .overuse
    else .ok

end ConsumptionSignature

end Waterbox
