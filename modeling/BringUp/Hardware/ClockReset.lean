import BringUp.Clock.Bits
import BringUp.Clock.Encoding
import BringUp.Register.Bus

/-!
The clock tree's reset state, and the rates that the clocks run at.

* `resetClocks` returns to the internal oscillator without dividers, with the
  other oscillators and the PLL off.
* `liveRates` reads the rates out of the registers.
-/

namespace BringUp.Hardware

/-- Configuration bits kept by the first step: all but the source, the bus
dividers, the converter's divider and the clock output. -/
def keepBesideBusClocks : Word := 0xF8FF0000

/-- Control bits kept by the second step: all but the external oscillator,
its supervision and the PLL. -/
def keepBesideOscillators : Word := 0xFEF6FFFF

/-- Control bits kept by the third step: all but the bypass, which may only
change while its oscillator is off. -/
def keepBesideBypass : Word := 0xFFFBFFFF

/-- Configuration bits kept by the fourth step: all but the PLL's setting and
the USB divider. -/
def keepBesidePll : Word := 0xFF80FFFF

/-- Clears all clock interrupt flags, with all clock interrupts off. -/
def clearClockInterrupts : Word := 0x009F0000

/-- Returns the clock tree to its reset state. -/
def resetClocks : Driver Unit := do
  Driver.setBits .cr Clock.Cr.hsiOn
  Driver.modify .cfgr (· &&& keepBesideBusClocks)
  Driver.modify .cr (· &&& keepBesideOscillators)
  Driver.modify .cr (· &&& keepBesideBypass)
  Driver.modify .cfgr (· &&& keepBesidePll)
  Driver.write .cir clearClockInterrupts

/-- The rates that the part runs at right now. -/
def liveRates : Driver Clock.Rates := do
  let cfgr ← Driver.read .cfgr
  let bdcr ← Driver.read .bdcr
  Proc.ofExcept (Clock.Chain.ofRegisters cfgr bdcr).evaluate

end BringUp.Hardware
