import BringUp.Board.Services

/-!
What came of the bring-up.

* `Report`: the outcome of each step.
* `Report.targetReached`: the clocks run as planned.
* `Report.replay`: the outcome once more as log records, for the time when a
  console exists.
-/

namespace BringUp.Board

/-- The outcome of each bring-up step. A failed step does not undo earlier
ones, and the later ones still run. -/
structure Report where
  /-- The plan's first break of the part's limits, if any. -/
  limits : Except Clock.Violation Unit
  initialise : SetupResult
  oscillators : SetupResult
  busClocks : SetupResult
  peripheralClocks : SetupResult

/-- The step succeeded. -/
def succeeded {ε : Type} (result : Except ε Unit) : Bool :=
  match result with
  | .ok _ => true
  | .error _ => false

namespace Report

/-- All three clock steps succeeded. The limits and the basic setup are not
part of this. -/
def targetReached (r : Report) : Bool :=
  succeeded r.oscillators && succeeded r.busClocks && succeeded r.peripheralClocks

/-- Warns of a plan outside the part's limits. -/
def logLimits (limits : Except Clock.Violation Unit) : Sequence Unit :=
  match limits with
  | .ok _ => pure ()
  | .error violation =>
      Sequence.log .warn Log.Target.board
        ("clock configuration outside part limits: " ++ violation.message)

/-- Records a failed step under its heading; a success is not recorded. -/
def logFailure (heading : String) (result : SetupResult) : Sequence Unit :=
  match result with
  | .ok _ => pure ()
  | .error err =>
      Sequence.log .error Log.Target.board (heading ++ " failed: " ++ err.message)

/-- Records the outcome of a clock step. -/
def logStep (step : String) (result : SetupResult) : Sequence Unit :=
  match result with
  | .ok _ =>
      Sequence.log .debug Log.Target.board ("clock bring-up: " ++ step ++ " ok")
  | .error err =>
      Sequence.log .error Log.Target.board
        ("clock bring-up: " ++ step ++ " failed: " ++ err.message)

/-- Records the whole outcome. -/
def replay (r : Report) : Sequence Unit := do
  logLimits r.limits
  logFailure "HAL init" r.initialise
  logStep "oscillators" r.oscillators
  logStep "clock tree" r.busClocks
  logStep "peripheral clocks" r.peripheralClocks
  if !r.targetReached then
    Sequence.log .warn Log.Target.board
      ("core clock below " ++ toString Clock.coreHz ++ " Hz target")

end Report

end BringUp.Board
