import BringUp.Hardware.MemoryMap
import BringUp.Register.Bus

/-!
System control: the interrupt vector table, priority grouping and reset.

* `installStubs` copies the system exceptions of the table in force into
  working memory, points every external interrupt at the stub and moves the
  table there.
* `setPriorityGrouping`, `requestReset`: writes of the key-protected register.
* `irqOfVector`: the interrupt line behind an exception vector.
-/

namespace BringUp.Hardware.SystemControl

/-- The key that makes a write take effect. -/
def key : Word := 0x05FA0000

/-- Where the key is written. -/
def keyMask : Word := 0xFFFF0000

/-- The split of priorities into preemption levels and the rest. -/
def grouping : Field :=
  { mask := 0x00000700, shift := 8, shift_lt := Nat.le_of_ble_eq_true rfl }

/-- The request for a system reset. -/
def resetRequest : Word := 0x00000004

/-- Four bits of preemption priority and none below. -/
def groupingFourBits : Word := 3

/-- The address of the vector table in working memory. -/
def ramTable : Word := BitVec.ofNat 32 MemoryMap.sram

/-- The address of the vector table in flash. -/
def flashTable : Word := BitVec.ofNat 32 MemoryMap.flash

def setVectorTable (address : Word) : Driver Unit :=
  Driver.write .vtor address

def vectorTable : Driver Word :=
  Driver.read .vtor

/-- Sets the priority grouping and keeps the other bits. -/
def setPriorityGrouping (group : Word) : Driver Unit :=
  Driver.modify .aircr fun v =>
    (v &&& ~~~(keyMask ||| grouping.mask)) ||| key |||
      ((group <<< grouping.shift) &&& grouping.mask)

/-- Requests a system reset, which keeps the priority grouping. Nothing runs
after it. -/
def requestReset {α : Type} : Driver α := do
  Driver.modify .aircr fun v => key ||| (v &&& grouping.mask) ||| resetRequest
  Proc.stop .reset

/-- Copies one slot of the table at `table` into the one in working memory. -/
def copyVector (table : Word) (slot : Nat) : Driver Unit := do
  let entry ← Proc.request (I := bus) (Access.loadVector table slot)
  Proc.request (I := bus) (Access.storeVector slot entry)

/-- Points an external interrupt at the stub. -/
def stubVector (line : Nat) : Driver Unit :=
  Proc.request (I := bus)
    (Access.storeVector (MemoryMap.systemExceptions + line) .stub)

/-- Builds the table in working memory and moves the vectors there. -/
def installStubs : Driver Unit := do
  let current ← vectorTable
  (List.range MemoryMap.systemExceptions).forM (copyVector current)
  (List.range MemoryMap.irqCount).forM stubVector
  setVectorTable ramTable
  Driver.log .debug Log.Target.interrupts
    (toString MemoryMap.irqCount ++ " interrupt vectors stubbed, VTOR=" ++
      ramTable.hex)

/-- The external interrupt line behind an exception vector. -/
def irqOfVector (vector : Nat) : Option Nat :=
  if vector < MemoryMap.systemExceptions then none
  else
    let line := vector - MemoryMap.systemExceptions
    if line < MemoryMap.irqCount then some line else none

/-- The written form of an interrupt line. -/
def irqText (line : Nat) : String :=
  "Irq(" ++ toString line ++ ")"

end BringUp.Hardware.SystemControl
