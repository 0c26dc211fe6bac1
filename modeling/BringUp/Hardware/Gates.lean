import BringUp.Register.Bus

/-!
Clock gates and reset lines of the peripherals.

* `enableClock` opens a gate; `pulseReset` asserts and releases a reset line.
-/

namespace BringUp.Hardware

/-- Sets a clock enable bit, and reads the register back because the clock
takes a bus cycle to reach the peripheral. -/
def enableClock (gate : Clock.Gate) : Driver Unit := do
  let mask ← Proc.ofExcept gate.mask
  Driver.setBits (Register.enable gate.bus) mask
  let _ ← Driver.read (Register.enable gate.bus)

/-- Sets and clears a reset line. The AHB has none. -/
def pulseReset (line : Clock.Gate) : Driver Unit :=
  match Register.reset? line.bus with
  | none =>
      Driver.log .warn Log.Target.clocks
        ("no reset line for AHB bit " ++ toString line.bit)
  | some register => do
      let mask ← Proc.ofExcept line.mask
      Driver.setBits register mask
      Driver.clearBits register mask

end BringUp.Hardware
