import BringUp.Board.BringUp

/-!
A stand-in for the hardware layer that records what it is asked.

* `Recorder`: the services asked for so far, and the failures to answer with.
* `Recorder.handler`: the stand-in as an environment for sequences.
-/

namespace BringUp.Board

/-- The answers that the stand-in gives to the steps that can fail. -/
structure Answers where
  initialise : SetupResult := .ok ()
  oscillators : SetupResult := .ok ()
  busClocks : SetupResult := .ok ()
  peripheralClocks : SetupResult := .ok ()

namespace Recorder

/-- What a service amounts to in the record: releasing a pin is configuring
it as a floating input. -/
def recorded : Service → Service
  | .releasePin pin => .configurePin pin PinSetup.floating
  | service => service

/-- The stand-in's answer. It has no system to reset, so a reset request ends
the run as a fault. -/
def answer (answers : Answers) : (service : Service) → Except Stop service.Answer
  | .initialise => .ok answers.initialise
  | .configureOscillators _ => .ok answers.oscillators
  | .configureBusClocks _ => .ok answers.busClocks
  | .configurePeripheralClocks _ => .ok answers.peripheralClocks
  | .resetSystem => .error (.fault .resetRequested)
  | .resetClocks => .ok ()
  | .stubVectors => .ok ()
  | .enableClock _ => .ok ()
  | .pulseReset _ => .ok ()
  | .configurePin _ _ => .ok ()
  | .releasePin _ => .ok ()

/-- The stand-in: its state is the list of services asked for, in order. -/
def handler (answers : Answers) : Handler services (List Service) where
  respond service calls := (answer answers service, calls ++ [recorded service])

end Recorder

end BringUp.Board
