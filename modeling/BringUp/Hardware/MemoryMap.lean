/-!
Addresses of the part's memory and register blocks, and the size of its
interrupt vector table.
-/

namespace BringUp.Hardware.MemoryMap

/-- Flash memory, where the boot vector table is. -/
def flash : Nat := 0x08000000

/-- Working memory. -/
def sram : Nat := 0x20000000

def apb1 : Nat := 0x40000000
def apb2 : Nat := 0x40010000
def ahb : Nat := 0x40018000

/-- Power control. -/
def power : Nat := apb1 + 0x7000

/-- Reset and clock control. -/
def clockControl : Nat := ahb + 0x9000

/-- Flash access control. -/
def flashControl : Nat := ahb + 0xA000

/-- System control. -/
def systemControl : Nat := 0xE000ED00

/-- External interrupt lines. -/
def irqCount : Nat := 43

/-- System exceptions, in front of the external interrupts. -/
def systemExceptions : Nat := 16

/-- Slots of a vector table. -/
def vectorCount : Nat := systemExceptions + irqCount

end BringUp.Hardware.MemoryMap
