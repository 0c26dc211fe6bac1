import BringUp.SetupError
import BringUp.Word
import BringUp.Checked

/-!
The system tick.

* `Ticks`: the counter, which wraps at 32 bits.
* `Ticks.reload`: the reload value of the tick timer for a core clock.
* `Ticks.initialise`: the tick needs no setup of its own.
-/

namespace BringUp

/-- Ticks since boot, modulo 2^32. -/
abbrev Ticks := Word

namespace Ticks

/-- The tick rate. -/
def rateHz : Nat := 1000

/-- The counter after `n` more ticks. -/
def advance (t : Ticks) (n : Nat) : Ticks :=
  t + BitVec.ofNat 32 n

/-- Milliseconds since the tick started, wrapping with the counter. -/
def milliseconds (t : Ticks) : Word :=
  t * BitVec.ofNat 32 (1000 / rateHz)

/-- The reload value of the tick timer at a core clock of `hclk` Hz. -/
def reload (hclk : Nat) : Except Fault Nat := do
  let period ← Checked.div hclk rateHz
  Checked.sub period 1

/-- The tick's setup, for any interrupt priority. -/
def initialise (_priority : Nat) : SetupResult :=
  .ok ()

/-- Ticks add up. -/
theorem advance_advance (t : Ticks) (m n : Nat) :
    (t.advance m).advance n = t.advance (m + n) := by
  simp [advance, BitVec.add_assoc, BitVec.ofNat_add]

end Ticks

end BringUp
