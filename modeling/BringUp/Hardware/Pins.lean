import BringUp.Register.Bus

/-!
Configuring pins.

* `Pin.configSlot`: the register half and bit position of a pin's code.
* `configurePin` writes the code with a single read-modify-write, and latches
  the direction of a pull.
-/

namespace BringUp

namespace Pin

/-- The configuration register that holds a pin's code, and its position.
Pins below 8 are in the lower register. -/
def configSlot (number : Nat) : PortRegister × Nat :=
  if number < 8 then (.crl, number * 4) else (.crh, (number - 8) * 4)

/-- The four bits of a pin's code as a field, if the register has them. -/
def configField (number : Nat) : Except Fault (PortRegister × Field) :=
  let (register, shift) := configSlot number
  if h : shift < 32 then .ok (register, ⟨0xF#32 <<< shift, shift, h⟩)
  else .error (.overflow .shiftLeft)

end Pin

namespace Hardware

/-- Latches the direction of a pull through the set and clear registers. -/
def latchPull (bank : Port) (pin : Pin) (level : Option Bool) : Driver Unit := do
  let mask ← Proc.ofExcept pin.mask
  match level with
  | some true => Driver.write (.port bank .bsrr) (mask.setWidth 32)
  | some false => Driver.write (.port bank .brr) (mask.setWidth 32)
  | none => return ()

/-- Configures a pin through the registers of a port, which has to be the
pin's own. -/
def configurePin (bank : Port) (pin : Pin) (setup : PinSetup) : Driver Unit := do
  if pin.port.base ≠ bank.base then
    Proc.fault (.portMismatch pin.port.base bank.base)
  else
    let (register, field) ← Proc.ofExcept (Pin.configField pin.number)
    Driver.writeField (.port bank register) field setup.code
    latchPull bank pin setup.pullLevel

end Hardware

end BringUp
