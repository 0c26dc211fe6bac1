import BringUp.Proc
import BringUp.Register
import BringUp.SetupError

/-!
Access to the registers.

* `Access`, `bus`: what a driver can do to the part.
* `Driver`: procedures over the bus; `Setup`: drivers that can fail.
* `Driver.read`, `Driver.write`, `Driver.modify`, …: single accesses and
  read-modify-writes of flags and fields.
* `Setup.waitUntil`, `Setup.waitSet`, `Setup.waitClear`: polling for a status
  flag, bounded by a budget of reads; `Hardware.Budget`: the budgets.
* `Driver.readShifted`, `Driver.writeShifted`: fields given by any mask and
  shift, which fault on a shift by the whole width.
-/

namespace BringUp

/-- An entry of the interrupt vector table. -/
inductive VectorEntry where
  /-- The address of a handler that the boot image brings. -/
  | handler (address : Word)
  /-- The placeholder for interrupts that nobody has claimed. -/
  | stub
  deriving DecidableEq, Repr

/-- What a driver can do to the part. -/
inductive Access where
  | read (r : Register)
  | write (r : Register) (value : Word)
  /-- Reads at most `budget` times, until a value is accepted. -/
  | poll (r : Register) (accept : Word → Bool) (budget : Nat)
  /-- Reads until a value is accepted, however long that takes. -/
  | await (r : Register) (accept : Word → Bool)
  /-- Reads a slot of the vector table at an address. -/
  | loadVector (table : Word) (slot : Nat)
  /-- Writes a slot of the vector table in working memory. -/
  | storeVector (slot : Nat) (entry : VectorEntry)

/-- What each access answers. A poll tells whether a value was accepted. -/
abbrev Access.Answer : Access → Type
  | read _ => Word
  | write _ _ => Unit
  | poll _ _ _ => Bool
  | await _ _ => Unit
  | loadVector _ _ => VectorEntry
  | storeVector _ _ => Unit

/-- The interface between drivers and the part. -/
abbrev bus : Interface where
  Call := Access
  Answer := Access.Answer

/-- A procedure that works on the part's registers. -/
abbrev Driver (α : Type) : Type := Proc bus α

/-- A driver step that can fail. -/
abbrev Setup (α : Type) : Type := ExceptT SetupError Driver α

namespace Driver

/-- Writes one log record. -/
def log (level : Log.Level) (target message : String) : Driver Unit :=
  Proc.log level target message

def read (r : Register) : Driver Word :=
  Proc.request (I := bus) (Access.read r)

def write (r : Register) (value : Word) : Driver Unit :=
  Proc.request (I := bus) (Access.write r value)

/-- One read, and one write of what `f` makes of the value. -/
def modify (r : Register) (f : Word → Word) : Driver Unit := do
  let value ← read r
  write r (f value)

def setBits (r : Register) (mask : Word) : Driver Unit :=
  modify r (· ||| mask)

def clearBits (r : Register) (mask : Word) : Driver Unit :=
  modify r (· &&& ~~~mask)

/-- Some bit under `mask` is set. -/
def isSet (r : Register) (mask : Word) : Driver Bool := do
  let value ← read r
  return value.has mask

def readField (r : Register) (f : Field) : Driver Word := do
  let value ← read r
  return f.get value

def writeField (r : Register) (f : Field) (v : Word) : Driver Unit :=
  modify r (f.put v)

/-- Waits for as long as it takes until some bit under `mask` is set. -/
def awaitSet (r : Register) (mask : Word) : Driver Unit :=
  Proc.request (I := bus) (Access.await r (·.has mask))

/-- The field under `mask`, moved down by `shift`. -/
def readShifted (r : Register) (mask : Word) (shift : Nat) : Driver Word := do
  let value ← read r
  if h : shift < 32 then return Field.get ⟨mask, shift, h⟩ value
  else Proc.fault (.overflow .shiftRight)

/-- Replaces the field under `mask` by `v`, moved up by `shift`. -/
def writeShifted (r : Register) (mask : Word) (shift : Nat) (v : Word) :
    Driver Unit := do
  let value ← read r
  if h : shift < 32 then write r (Field.put ⟨mask, shift, h⟩ v value)
  else Proc.fault (.overflow .shiftLeft)

end Driver

namespace Setup

/-- Reads until a value is accepted; past the budget the flag timed out. -/
def waitUntil (r : Register) (accept : Word → Bool) (flag : ReadyFlag)
    (budget : Nat) : Setup Unit := do
  let accepted ← (Proc.request (I := bus) (Access.poll r accept budget) : Driver Bool)
  if accepted then return () else throw (.timeout flag)

/-- Waits until some bit under `mask` is set. -/
def waitSet (r : Register) (mask : Word) (flag : ReadyFlag) (budget : Nat) :
    Setup Unit :=
  waitUntil r (·.has mask) flag budget

/-- Waits until every bit under `mask` is clear. -/
def waitClear (r : Register) (mask : Word) (flag : ReadyFlag) (budget : Nat) :
    Setup Unit :=
  waitUntil r (!·.has mask) flag budget

end Setup

/-! ### Budgets

At the 8 MHz reset clock one poll takes about a microsecond, so the budgets
stand for 100 ms, 2 ms, 5 s and so on. -/

namespace Hardware.Budget

def hse : Nat := 100000
def hsi : Nat := 2000
def lse : Nat := 5000000
def lsi : Nat := 2000
def pll : Nat := 2000
def clockSwitch : Nat := 5000000
def backupDomain : Nat := 100000

end Hardware.Budget

end BringUp
