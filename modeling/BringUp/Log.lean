/-!
Log records.

* `Log.Level`: severities, the most severe first.
* `Log.Ceiling`: the least severe level that is still recorded, if any is.
* `Log.Record`: one record, with its written form `Log.Record.text`.
* `Log.Target`: the names under which the parts of the program log.
-/

namespace BringUp.Log

/-- How serious a record is. -/
inductive Level where
  | error
  | warn
  | info
  | debug
  | trace
  deriving DecidableEq, Repr

namespace Level

/-- The level's written form. -/
def name : Level → String
  | .error => "ERROR"
  | .warn => "WARN"
  | .info => "INFO"
  | .debug => "DEBUG"
  | .trace => "TRACE"

/-- Position in the order of decreasing severity. -/
def rank : Level → Nat
  | .error => 1
  | .warn => 2
  | .info => 3
  | .debug => 4
  | .trace => 5

end Level

/-- The least severe level that is recorded; `none` records nothing. -/
abbrev Ceiling := Option Level

namespace Ceiling

/-- Records of level `l` pass the ceiling. -/
def admits (c : Ceiling) (l : Level) : Bool :=
  match c with
  | none => false
  | some top => l.rank ≤ top.rank

/-- The ceiling's written form. -/
def name : Ceiling → String
  | none => "OFF"
  | some top => top.name

/-- The ceiling that records everything. -/
def all : Ceiling :=
  some .trace

end Ceiling

/-- One log record. -/
structure Record where
  level : Level
  target : String
  message : String
  deriving DecidableEq, Repr

/-- The record on one line. -/
def Record.text (r : Record) : String :=
  r.level.name ++ " " ++ r.target ++ ": " ++ r.message

namespace Target

def board : String := "kernel_bsp::board"
def usart : String := "kernel_bsp::usart"
def kernel : String := "kernel"
def platform : String := "kernel::arch::cortexm3::platform::stm32f1"
def services : String := platform ++ "::hal"
def clocks : String := platform ++ "::rcc"
def interrupts : String := platform ++ "::nvic"

end Target

end BringUp.Log
