import BringUp.Checked

/-!
Clock gates: the bits that switch the clocks of peripherals.

* `Bus`, `Gate`: a bit in the enable register of a bus.
* `Gate.mask`: the register word with only that bit set.

The reset registers of the peripheral buses have the same layout, so a gate
also names a reset line.
-/

namespace BringUp.Clock

/-- Buses that peripherals sit on. -/
inductive Bus where
  | ahb
  | apb1
  | apb2
  deriving DecidableEq, Repr

/-- A clock enable bit, or the reset line with the same position. -/
structure Gate where
  bus : Bus
  bit : Nat
  deriving DecidableEq, Repr

namespace Gate

/-- The gate of the pin multiplexer. -/
def afio : Gate := ⟨.apb2, 0⟩

/-- The gate of the power controller. -/
def pwr : Gate := ⟨.apb1, 28⟩

/-- The register word in which only this bit is set. -/
def mask (g : Gate) : Except Fault Word :=
  Checked.bit 32 g.bit

end Gate

end BringUp.Clock
