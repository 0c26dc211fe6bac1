import BringUp.Clock.Rates
import BringUp.Pin

/-!
The USARTs of the board.

* `Usart`: the two that are wired.
* `Usart.Wiring`, `Usart.wiring`: everything that belongs to one of them, in
  one row of a table.
* `Usart.ofNumber`, `Usart.ofBase`: look-ups, with `Usart.Unknown` as the
  reason why one fails.
-/

namespace BringUp

/-- The USARTs that the board wires. -/
inductive Usart where
  | usart1
  | usart2
  deriving DecidableEq, Repr

namespace Usart

/-- Everything needed to operate one USART. -/
structure Wiring where
  /-- The address of its registers. -/
  base : Nat
  tx : Pin
  rx : Pin
  /-- Its clock enable bit. -/
  clock : Clock.Gate
  /-- Its reset line. -/
  reset : Clock.Gate
  /-- Its interrupt line. -/
  irq : Nat
  deriving DecidableEq, Repr

/-- The wiring table. -/
def wiring : Usart → Wiring
  | .usart1 => {
      base := 0x40013800
      tx := ⟨.a, 9⟩
      rx := ⟨.a, 10⟩
      clock := ⟨.apb2, 14⟩
      reset := ⟨.apb2, 14⟩
      irq := 37 }
  | .usart2 => {
      base := 0x40004400
      tx := ⟨.a, 2⟩
      rx := ⟨.a, 3⟩
      clock := ⟨.apb1, 17⟩
      reset := ⟨.apb1, 17⟩
      irq := 38 }

instance : Enumerated Usart where
  size := 2
  index
    | .usart1 => 0
    | .usart2 => 1
  member
    | 0 => .usart1
    | 1 => .usart2
  member_index u := by cases u <;> rfl
  index_member := by decide

/-- All USARTs of the board. -/
def all : List Usart := [.usart1, .usart2]

def number : Usart → Nat
  | .usart1 => 1
  | .usart2 => 2

def name (u : Usart) : String :=
  "USART" ++ toString u.number

/-- The gate of the port that the transmit pin is on. -/
def txPortClock (u : Usart) : Clock.Gate := u.wiring.tx.port.gate

/-- The gate of the port that the receive pin is on. -/
def rxPortClock (u : Usart) : Clock.Gate := u.wiring.rx.port.gate

/-- Exception vectors in front of the first interrupt line. -/
def irqVectorOffset : Nat := 16

/-- The exception vector of the USART's interrupt. -/
def vector (u : Usart) : Nat := u.wiring.irq + irqVectorOffset

/-- The clock that feeds the baud rate generator. -/
def busClockHz (u : Usart) (rates : Clock.Rates) : Nat :=
  match u.wiring.clock.bus with
  | .apb2 => rates.pclk2
  | .apb1 | .ahb => rates.pclk1

/-- Why a look-up fails. -/
inductive Unknown where
  | number (n : Nat)
  | base (address : Nat)
  deriving DecidableEq, Repr

namespace Unknown

/-- The reported text of a failed look-up. -/
def message : Unknown → String
  | .number n => "USART" ++ toString n ++ " is not wired on this board"
  | .base address => (Fault.noUsartAt address).message

/-- The fault of a look-up that must not fail. -/
def fault : Unknown → Fault
  | .number _ => .usartNotWired
  | .base address => .noUsartAt address

end Unknown

/-- The USART of a number. -/
def ofNumber (n : Nat) : Except Unknown Usart :=
  match n with
  | 1 => .ok .usart1
  | 2 => .ok .usart2
  | n => .error (.number n)

/-- The USART whose registers are at an address. -/
def ofBase (address : Nat) : Except Unknown Usart :=
  match all.find? (·.wiring.base == address) with
  | some u => .ok u
  | none => .error (.base address)

/-- The result of a look-up that must not fail. -/
def orFault (found : Except Unknown Usart) : Except Fault Usart :=
  found.mapError Unknown.fault

/-- A number finds the USART that has it. -/
theorem ofNumber_number (u : Usart) : ofNumber u.number = .ok u := by
  cases u <;> rfl

/-- An address finds the USART that has its registers there. -/
theorem ofBase_base (u : Usart) : ofBase u.wiring.base = .ok u := by
  cases u <;> rfl

end Usart

end BringUp
