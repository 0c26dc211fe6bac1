import BringUp.Board.Services
import BringUp.Hardware.BusClocks
import BringUp.Hardware.Oscillators
import BringUp.Hardware.PeripheralClocks
import BringUp.Hardware.Pins
import BringUp.Hardware.SystemControl
import BringUp.Tick

/-!
The board's services on the registers of the part.

* `provide`: the driver behind each service.
* `onRegisters`: a board sequence as a driver.
-/

namespace BringUp.Hardware

open Board (Service Sequence)

/-- The lowest priority under four preemption bits. -/
def tickPriority : Nat := 15

/-- Returns the clocks to their reset state, with the vectors in flash. -/
def resetPart : Driver Unit := do
  resetClocks
  SystemControl.setVectorTable SystemControl.flashTable

/-- Records whether the prefetch buffer is in use. The flag is only read if
such a record is wanted. -/
def logPrefetch (ceiling : Log.Ceiling) : Driver Unit := do
  if ceiling.admits .debug then
    let active ← Flash.prefetchEnabled
    Driver.log .debug Log.Target.services
      ("prefetch buffer on: " ++ if active then "true" else "false")

/-- Prefetch buffer, interrupt priorities, the clocks of the pin multiplexer
and the power controller, and the tick. -/
def initialise (ceiling : Log.Ceiling) : Driver SetupResult := do
  Flash.enablePrefetch
  SystemControl.setPriorityGrouping SystemControl.groupingFourBits
  enableClock Clock.Gate.afio
  enableClock Clock.Gate.pwr
  logPrefetch ceiling
  return Ticks.initialise tickPriority

/-- The driver behind each service. The ceiling is the least severe level
that is being logged. -/
def provide (ceiling : Log.Ceiling) : (service : Service) → Driver service.Answer
  | .resetClocks => resetPart
  | .initialise => initialise ceiling
  | .stubVectors => SystemControl.installStubs
  | .configureOscillators plan => (configureOscillators plan).run
  | .configureBusClocks plan => (configureBusClocks plan).run
  | .configurePeripheralClocks plan => (configurePeripheralClocks plan).run
  | .enableClock gate => enableClock gate
  | .pulseReset line => pulseReset line
  | .configurePin pin setup => configurePin pin.port pin setup
  | .releasePin pin => configurePin pin.port pin PinSetup.floating
  | .resetSystem => SystemControl.requestReset

/-- A board sequence, carried out on the registers. -/
def onRegisters {α : Type} (ceiling : Log.Ceiling) (s : Sequence α) : Driver α :=
  s.interpret (provide ceiling)

end BringUp.Hardware
