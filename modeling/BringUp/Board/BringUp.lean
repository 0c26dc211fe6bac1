import BringUp.Board.Report
import BringUp.Board.UsartLines

/-!
Bringing the board up, and its life afterwards.

* `bringUp`: the one-shot sequence from reset to the operating point. It
  results in a `Platform`, on which everything else works.
* `Platform.connect`, `Platform.release`, `Platform.idle`,
  `Platform.shutdown`: the life of the board after bring-up.
-/

namespace BringUp.Board

/-- The board after bring-up: the planned rates and what came of each step.
The rates are live only if the target was reached. -/
structure Platform where
  rates : Clock.Rates
  report : Report

/-- Asks for one clock step and records its start and its failure. -/
def clockStep (announcement heading : String) (service : Sequence SetupResult) :
    Sequence SetupResult := do
  Sequence.log .debug Log.Target.board announcement
  let result ← service
  Report.logFailure heading result
  return result

/-- Records whether the planned rates were reached. -/
def logOutcome (report : Report) (rates : Clock.Rates) : Sequence Unit :=
  if report.targetReached then
    Sequence.log .info Log.Target.board ("clock bring-up done: " ++ rates.text)
  else
    Sequence.log .warn Log.Target.board
      ("clock bring-up incomplete, " ++ rates.text ++ " not reached")

/-- The services of the bring-up, in their order, with a record of what each
of them answers. -/
def runSteps (plan : Clock.Plan) (limits : Except Clock.Violation Unit) :
    Sequence Report := do
  Sequence.ask .resetClocks
  let initialise ← Sequence.ask .initialise
  Report.logFailure "HAL init" initialise
  Sequence.ask .stubVectors
  let oscillators ← clockStep "configuring oscillators" "oscillator configuration"
    (Sequence.ask (.configureOscillators plan.oscillators))
  let busClocks ← clockStep "configuring bus clocks" "bus clock configuration"
    (Sequence.ask (.configureBusClocks plan.buses))
  let peripheralClocks ← clockStep "configuring peripheral clocks"
    "peripheral clock configuration"
    (Sequence.ask (.configurePeripheralClocks plan.peripherals))
  return { limits, initialise, oscillators, busClocks, peripheralClocks }

/-- Brings the board from reset to the operating point of the plan, which has
to run the core at the board's frequency. A failing step is recorded, and the
remaining steps still run. -/
def bringUp (plan : Clock.Plan) : Sequence Platform := do
  let rates ← Proc.ofExcept plan.chain.evaluate
  if rates.sysclk ≠ Clock.coreHz then
    Proc.fault (.wrongCoreClock rates.sysclk Clock.coreHz)
  else
    let limits := plan.check.map fun _ => ()
    Report.logLimits limits
    let report ← runSteps plan limits
    logOutcome report rates
    return { rates, report }

/-- How the system goes down. Every mode ends in a reset. -/
inductive ShutdownMode where
  | halt
  | reboot
  | abort
  deriving DecidableEq, Repr

def ShutdownMode.text : ShutdownMode → String
  | .halt => "halt"
  | .reboot => "reboot"
  | .abort => "abort"

namespace Platform

/-- Nothing to do until there is a low-power state to enter. -/
def idle (_ : Platform) : Sequence Unit :=
  pure ()

def connect (_ : Platform) (usart : Usart) : Sequence Unit :=
  connectUsart usart

def release (_ : Platform) (usart : Usart) : Sequence Unit :=
  releaseUsart usart

/-- Resets the system. Nothing runs afterwards. -/
def shutdown {α : Type} (_ : Platform) (mode : ShutdownMode) : Sequence α := do
  Sequence.log .info Log.Target.board ("shutdown (" ++ mode.text ++ "): resetting")
  Sequence.ask .resetSystem
  Proc.stop .reset

end Platform

end BringUp.Board
