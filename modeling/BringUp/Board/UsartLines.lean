import BringUp.Board.Services

/-!
Connecting a USART to its pins, and releasing it.

Port and peripheral clocks come before the pins: the configuration registers
of a port are not writable while its clock is off.
-/

namespace BringUp.Board

/-- Turns on the clocks of a USART and of its ports, and routes its pins. -/
def connectUsart (usart : Usart) : Sequence Unit := do
  let wiring := usart.wiring
  Sequence.log .debug Log.Target.usart
    (usart.name ++ ": msp init, tx " ++ wiring.tx.name ++ " rx " ++ wiring.rx.name)
  Sequence.ask (.enableClock usart.txPortClock)
  Sequence.ask (.enableClock usart.rxPortClock)
  Sequence.ask (.enableClock wiring.clock)
  Sequence.ask (.configurePin wiring.tx PinSetup.usart)
  Sequence.ask (.configurePin wiring.rx PinSetup.usart)

/-- Resets a USART and floats its pins. The ports keep their clocks, since
other functions may share them. -/
def releaseUsart (usart : Usart) : Sequence Unit := do
  let wiring := usart.wiring
  Sequence.log .debug Log.Target.usart (usart.name ++ ": msp deinit")
  Sequence.ask (.pulseReset wiring.reset)
  Sequence.ask (.releasePin wiring.tx)
  Sequence.ask (.releasePin wiring.rx)

end BringUp.Board
