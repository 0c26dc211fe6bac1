import BringUp.Clock.Gate
import BringUp.Table

/-!
Pins and their electrical configuration.

* `Port`, `Pin`: where a pin is; `Pin.make` refuses numbers that no port has.
* `PinSetup`: how a pin is operated, with `PinSetup.code`, the four bits that
  the port's configuration registers hold for it, and `PinSetup.pullLevel`,
  the output level that selects the direction of a pull.
-/

namespace BringUp

/-! ## Where a pin is -/

/-- The ports of the part. -/
inductive Port where
  | a
  | b
  | c
  | d
  | e
  deriving DecidableEq, Repr

namespace Port

/-- The port's position, from 0 for port A. -/
def number : Port → Nat
  | .a => 0
  | .b => 1
  | .c => 2
  | .d => 3
  | .e => 4

instance : Enumerated Port where
  size := 5
  index
    | .a => 0
    | .b => 1
    | .c => 2
    | .d => 3
    | .e => 4
  member
    | 0 => .a
    | 1 => .b
    | 2 => .c
    | 3 => .d
    | 4 => .e
  member_index p := by cases p <;> rfl
  index_member := by decide

def letter : Port → String
  | .a => "A"
  | .b => "B"
  | .c => "C"
  | .d => "D"
  | .e => "E"

/-- The address of the port's registers. -/
def base (p : Port) : Nat :=
  0x40010800 + p.number * 0x400

/-- The clock gate of the port. -/
def gate (p : Port) : Clock.Gate :=
  ⟨.apb2, 2 + p.number⟩

end Port

/-- A pin: its port and its number within the port. -/
structure Pin where
  port : Port
  number : Nat
  deriving DecidableEq, Repr

namespace Pin

/-- The number of pins of a port. -/
def perPort : Nat := 16

/-- The pin of this number, if the port has it. -/
def make (port : Port) (number : Nat) : Except Fault Pin :=
  if number < perPort then .ok ⟨port, number⟩ else .error .pinOutOfRange

/-- The pin's name on the board. -/
def name (p : Pin) : String :=
  "P" ++ p.port.letter ++ toString p.number

/-- The word of a 16-bit port register in which only this pin is set. -/
def mask (p : Pin) : Except Fault (BitVec 16) :=
  Checked.bit 16 p.number

end Pin

/-! ## How a pin is operated -/

/-- What drives a pin. -/
inductive PinMode where
  | input
  | analog
  | outputPushPull
  | outputOpenDrain
  | alternatePushPull
  | alternateOpenDrain
  deriving DecidableEq, Repr

/-- The resistor at an input. -/
inductive Pull where
  | none
  | up
  | down
  deriving DecidableEq, Repr

/-- The fastest output frequency: 2, 10 or 50 MHz. -/
inductive Speed where
  | low
  | medium
  | high
  deriving DecidableEq, Repr

/-- The code of an output speed. -/
def Speed.code : Speed → Word
  | .medium => 1
  | .low => 2
  | .high => 3

/-- The electrical configuration of a pin. -/
structure PinSetup where
  mode : PinMode
  pull : Pull
  speed : Speed
  deriving DecidableEq, Repr

namespace PinSetup

/-- Lines of a USART: driven by it, pulled up, fast. -/
def usart : PinSetup := ⟨.alternatePushPull, .up, .high⟩

/-- Every pin after reset: a floating input. -/
def floating : PinSetup := ⟨.input, .none, .low⟩

/-- The two upper bits of the code: the kind of input or output. -/
def kind (s : PinSetup) : Word :=
  match s.mode, s.pull with
  | .analog, _ => 0
  | .input, .none => 1
  | .input, _ => 2
  | .outputPushPull, _ => 0
  | .outputOpenDrain, _ => 1
  | .alternatePushPull, _ => 2
  | .alternateOpenDrain, _ => 3

/-- The two lower bits of the code: the speed of an output, 0 for inputs. -/
def drive (s : PinSetup) : Word :=
  match s.mode with
  | .input | .analog => 0
  | _ => s.speed.code

/-- The four configuration bits. The speed shows for outputs only, and the
pull for inputs only. -/
def code (s : PinSetup) : Word :=
  (s.kind <<< 2) ||| s.drive

/-- The output level that selects the direction of a pulled input. -/
def pullLevel (s : PinSetup) : Option Bool :=
  match s.mode, s.pull with
  | .input, .up => some true
  | .input, .down => some false
  | _, _ => none

end PinSetup

end BringUp
