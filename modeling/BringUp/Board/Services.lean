import BringUp.Proc
import BringUp.SetupError
import BringUp.Usart

/-!
The services that the board's sequences are built on.

* `Service`, `services`: what a sequence can ask of the hardware layer.
* `Sequence`: procedures over the services.

The sequences themselves touch no register, so they run on the real part as
well as on a stand-in.
-/

namespace BringUp.Board

open Clock (OscillatorPlan BusPlan PeripheralPlan Gate)

/-- What a sequence can ask of the hardware layer. -/
inductive Service where
  /-- Return the clocks to their reset state, with the vectors in flash. -/
  | resetClocks
  /-- Prefetch buffer, interrupt priorities and the tick. -/
  | initialise
  /-- Point every external interrupt at a stub. -/
  | stubVectors
  | configureOscillators (plan : OscillatorPlan)
  | configureBusClocks (plan : BusPlan)
  | configurePeripheralClocks (plan : PeripheralPlan)
  /-- Set a clock enable bit; setting it again has no effect. -/
  | enableClock (gate : Gate)
  /-- Assert and release a reset line. -/
  | pulseReset (line : Gate)
  | configurePin (pin : Pin) (setup : PinSetup)
  /-- Return a pin to its state after reset. -/
  | releasePin (pin : Pin)
  | resetSystem
  deriving DecidableEq, Repr

/-- What each service answers. -/
abbrev Service.Answer : Service → Type
  | initialise => SetupResult
  | configureOscillators _ => SetupResult
  | configureBusClocks _ => SetupResult
  | configurePeripheralClocks _ => SetupResult
  | _ => Unit

/-- The interface between the board's sequences and the hardware layer. -/
abbrev services : Interface where
  Call := Service
  Answer := Service.Answer

/-- A procedure over the services. -/
abbrev Sequence (α : Type) : Type := Proc services α

namespace Sequence

/-- Asks for a service and results in its answer. -/
def ask (service : Service) : Sequence service.Answer :=
  Proc.request (I := services) service

/-- Writes one log record. -/
def log (level : Log.Level) (target message : String) : Sequence Unit :=
  Proc.log level target message

end Sequence

end BringUp.Board
