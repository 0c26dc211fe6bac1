import BringUp.Word

/-!
Faults: conditions that end the program on the spot.

* `Fault`: the causes.
* `Fault.message`: the text that is reported for each.
-/

namespace BringUp

/-- Operations on unsigned integers of fixed width that can leave the width. -/
inductive Operation where
  | add
  | subtract
  | multiply
  | shiftLeft
  | shiftRight
  deriving DecidableEq, Repr

/-- The operation's name inside a fault message. -/
def Operation.label : Operation → String
  | .add => "add"
  | .subtract => "subtract"
  | .multiply => "multiply"
  | .shiftLeft => "shift left"
  | .shiftRight => "shift right"

/-- What ends the program without an answer. -/
inductive Fault where
  /-- A result, or a shift amount, outside the operand's width. -/
  | overflow (operation : Operation)
  | divisionByZero
  /-- A pin number that no port has. -/
  | pinOutOfRange
  /-- A USART number that the board does not wire. -/
  | usartNotWired
  /-- No USART of the board has its registers at this address. -/
  | noUsartAt (address : Nat)
  /-- A pin handed to the register block of another port. -/
  | portMismatch (pinBase bankBase : Nat)
  /-- The clock plan does not run the core at the board's frequency. -/
  | wrongCoreClock (planned expected : Nat)
  /-- A stand-in without a real part was asked for a system reset. -/
  | resetRequested
  deriving DecidableEq, Repr

namespace Fault

/-- The text of a failed comparison, with what was being checked. -/
private def comparisonText (context : String) (left right : Nat) : String :=
  "assertion `left == right` failed" ++ context ++
    "\n  left: " ++ toString left ++ "\n right: " ++ toString right

/-- The reported text of a fault. -/
def message : Fault → String
  | .overflow operation => "attempt to " ++ operation.label ++ " with overflow"
  | .divisionByZero => "attempt to divide by zero"
  | .pinOutOfRange => "GPIO pin out of range"
  | .usartNotWired => "USART instance not supported on this board"
  | .noUsartAt address => "no USART at base address " ++ hexText address
  | .portMismatch pinBase bankBase => comparisonText "" pinBase bankBase
  | .wrongCoreClock planned expected =>
      comparisonText ": clock configuration does not produce the core frequency"
        planned expected
  | .resetRequested => "system reset requested"

end Fault

end BringUp
