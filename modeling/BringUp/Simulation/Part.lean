import BringUp.Device
import BringUp.Hardware.MemoryMap
import BringUp.Hardware.SystemControl
import BringUp.Simulation.StatusFlag

/-!
A simulated part.

* `Temper`: how the part behaves: how long its flags take, which registers
  are locked or gated, and which bits are stuck.
* `Part`: its state: the registers, the changes under way, and the vectors.
* `Part.read`, `Part.write`: single accesses.
* `simulated`: the part as a device.

A change under way counts the reads of its register. The read that brings the
count to zero still sees the old status.
-/

namespace BringUp

/-- How many reads a status flag takes to follow its control bits; `none` is
never. -/
structure Delay where
  up : Option Nat
  down : Option Nat
  deriving DecidableEq, Repr

/-- The behaviour of a simulated part. -/
structure Temper where
  delay : StatusFlag → Delay
  /-- Status bits cannot be written. -/
  statusReadOnly : Bool
  /-- The reset bit of the backup domain clears the domain. -/
  backupResets : Bool
  /-- The backup domain ignores writes while it is locked. -/
  backupLocked : Bool
  /-- Power control ignores writes without its clock. -/
  powerGated : Bool
  /-- A port ignores writes without its clock. -/
  portsGated : Bool
  /-- Reads that the transmit register takes to empty; 0 is at once. -/
  transmitDelay : Nat
  /-- Bits that a register forces to zero and to one. -/
  latch : Register → Option (Word × Word)

/-- The state of a simulated part. -/
structure Part where
  registers : RegisterFile
  /-- Reads until a flag settles; 0 if no change is under way. -/
  pending : Table StatusFlag Nat
  /-- Reads until a USART can take the next byte; 0 if it waits for one. -/
  sending : Table Usart Nat
  /-- The vector table in flash. -/
  flash : Nat → Word
  /-- The vector table in working memory. -/
  vectors : Vector VectorEntry Hardware.MemoryMap.vectorCount

namespace Part

/-- The transmit flags of a USART: empty and complete. -/
def transmitIdle : Word := 0x000000C0

/-- The entry of slot `slot` in the flash table, unless it is given. -/
def bootVector (slot : Nat) : Word :=
  BitVec.ofNat 32 (0x08000101 + 4 * slot)

/-- A part at power-on: all registers are zero, but the USARTs are ready. -/
def powerOn (flash : Nat → Word) : Part where
  registers := ((Table.replicate 0).set (.usart .usart1 .sr) transmitIdle).set
    (.usart .usart2 .sr) transmitIdle
  pending := Table.replicate 0
  sending := Table.replicate 0
  flash := flash
  vectors := Vector.replicate _ (.handler 0)

/-- Changes one register, and nothing else. -/
def poke (p : Part) (r : Register) (w : Word) : Part :=
  { p with registers := p.registers.set r w }

/-- The content of a register, without a read of the program. -/
def peek (p : Part) (r : Register) : Word :=
  p.registers.get r

/-! ## Status flags -/

/-- Counts down a flag's change, which happens at zero. -/
def countDown (p : Part) (f : StatusFlag) : Part :=
  match p.pending.get f with
  | 0 => p
  | 1 =>
      { p with
        registers := p.registers.set f.register (f.settle (p.peek f.register))
        pending := p.pending.set f 0 }
  | n + 2 => { p with pending := p.pending.set f (n + 1) }

/-- The delay of a change from the shown to the wanted status. -/
def delayOf (t : Temper) (f : StatusFlag) (w : Word) : Option Nat :=
  if (f.shown w).toNat < (f.wanted w).toNat then (t.delay f).up
  else (t.delay f).down

/-- Reacts to a write of the flag's register: a change that is no longer
wanted is cancelled, and a wanted one starts unless one is under way. -/
def react (t : Temper) (p : Part) (f : StatusFlag) : Part :=
  let w := p.peek f.register
  if f.wanted w = f.shown w then { p with pending := p.pending.set f 0 }
  else if p.pending.get f ≠ 0 then p
  else
    match delayOf t f w with
    | none => p
    | some 0 => p.poke f.register (f.settle w)
    | some n => { p with pending := p.pending.set f n }

/-! ## Transmitters -/

/-- Counts down a transmission, which ends at zero. -/
def countDownSending (p : Part) (u : Usart) : Part :=
  match p.sending.get u with
  | 0 => p
  | 1 =>
      { p with
        registers := p.registers.set (.usart u .sr)
          (p.peek (.usart u .sr) ||| transmitIdle)
        sending := p.sending.set u 0 }
  | n + 2 => { p with sending := p.sending.set u (n + 1) }

/-- Starts the transmission of a byte, if transmissions take any time. -/
def startSending (t : Temper) (p : Part) (u : Usart) : Part :=
  if t.transmitDelay = 0 then p
  else
    { p with
      registers := p.registers.set (.usart u .sr)
        (p.peek (.usart u .sr) &&& ~~~transmitIdle)
      sending := p.sending.set u t.transmitDelay }

/-! ## Accesses -/

/-- Counts down whatever is under way behind a register. -/
def tick (p : Part) (r : Register) : Part :=
  match r with
  | .usart u .sr => p.countDownSending u
  | r => (StatusFlag.ofRegister r).foldl countDown p

/-- A read sees the present content, and then time passes. -/
def read (r : Register) (p : Part) : Word × Part :=
  (p.peek r, p.tick r)

/-- The write does not reach the register. -/
def ignores (t : Temper) (p : Part) (r : Register) : Bool :=
  match r with
  | .pwr => t.powerGated && !(p.peek .apb1enr).getLsbD 28
  | .bdcr => t.backupLocked && !(p.peek .pwr).getLsbD 8
  | .port port _ => t.portsGated && !(p.peek .apb2enr).getLsbD (2 + port.number)
  | _ => false

/-- Status bits that cannot be written keep their value. -/
def protectStatus (t : Temper) (r : Register) (old v : Word) : Word :=
  if t.statusReadOnly then
    (v &&& ~~~StatusFlag.statusOf r) ||| (old &&& StatusFlag.statusOf r)
  else v

/-- Stuck bits take their forced value. -/
def forceBits (t : Temper) (r : Register) (v : Word) : Word :=
  match t.latch r with
  | some (zeros, ones) => (v &&& zeros) ||| ones
  | none => v

/-- The reset bit of the backup domain leaves nothing but itself. -/
def resetBackup (t : Temper) (r : Register) (v : Word) : Word :=
  if r = .bdcr ∧ t.backupResets ∧ v.getLsbD 16 then 0x00010000 else v

/-- What a register holds after the program has written `v` over `old`. -/
def stored (t : Temper) (r : Register) (old v : Word) : Word :=
  resetBackup t r (forceBits t r (protectStatus t r old v))

/-- A write of the program: the register takes it, and the part reacts. -/
def write (t : Temper) (r : Register) (v : Word) (p : Part) : Part :=
  if p.ignores t r then p
  else
    let q := p.poke r (stored t r (p.peek r) v)
    match r with
    | .usart u .dr => startSending t q u
    | r => (StatusFlag.ofRegister r).foldl (react t) q

/-! ## Vectors -/

/-- A slot of the table at an address: in flash, or in working memory. -/
def loadVector (table : Word) (slot : Nat) (p : Part) : VectorEntry :=
  if table = Hardware.SystemControl.ramTable then
    p.vectors[slot]?.getD (.handler 0)
  else .handler (p.flash slot)

/-- Writes a slot of the table in working memory. -/
def storeVector (slot : Nat) (entry : VectorEntry) (p : Part) : Part :=
  { p with vectors := p.vectors.setIfInBounds slot entry }

end Part

/-- The simulated part as a device. -/
def simulated (t : Temper) : Device Part where
  read := Part.read
  write := Part.write t
  loadVector := Part.loadVector
  storeVector := Part.storeVector

namespace Temper

/-- A number of reads after which nothing is under way any more. -/
def patience (t : Temper) : Nat :=
  let delays := (Enumerated.all StatusFlag).flatMap fun f =>
    [(t.delay f).up.getD 0, (t.delay f).down.getD 0]
  delays.foldl max t.transmitDelay + 2

end Temper

end BringUp
