import BringUp.Register.Bus

/-!
The boot console: text, byte by byte, out of a USART.

* `Console.divisor`: the baud rate divisor, rounded to nearest.
* `Console.start` sets up the USART; `Console.write` sends text.
* `Console.wire`: the bytes that go over the wire for a text. A carriage
  return comes in front of every line feed.
-/

namespace BringUp.Hardware.Console

/-- The console's baud rate. -/
def baud : Nat := 115200

/-- The transmit register can take a byte. -/
def transmitEmpty : Word := 0x00000080

/-- The last byte has left. -/
def transmitComplete : Word := 0x00000040

/-- The USART is on. -/
def enabled : Word := 0x00002000

/-- Its transmitter is on. -/
def transmitter : Word := 0x00000008

/-- The divisor for a baud rate from a clock, rounded to nearest. -/
def divisor (clock rate : Nat) : Except Fault Nat := do
  let half ← Checked.div rate 2
  let sum ← Checked.add clock half
  Checked.div sum rate

/-- Sets the USART to eight data bits without parity at the console's baud
rate, and turns its transmitter on. -/
def start (usart : Usart) (clock : Nat) : Driver Unit := do
  Driver.write (.usart usart .cr1) 0
  Driver.write (.usart usart .cr2) 0
  Driver.write (.usart usart .cr3) 0
  let divisor ← Proc.ofExcept (divisor clock baud)
  Driver.write (.usart usart .brr) (BitVec.ofNat 32 divisor)
  Driver.write (.usart usart .cr1) (enabled ||| transmitter)

/-- Sends one byte as soon as the transmit register can take it. -/
def put (usart : Usart) (byte : Byte) : Driver Unit := do
  Driver.awaitSet (.usart usart .sr) transmitEmpty
  Driver.write (.usart usart .dr) (byte.setWidth 32)

/-- Waits until the last byte has left. -/
def flush (usart : Usart) : Driver Unit :=
  Driver.awaitSet (.usart usart .sr) transmitComplete

/-- The bytes on the wire: a carriage return in front of every line feed. -/
def wire (bytes : List Byte) : List Byte :=
  bytes.flatMap fun byte => if byte = 0x0A then [0x0D, byte] else [byte]

/-- The UTF-8 bytes of a text. -/
def utf8 (text : String) : List Byte :=
  text.toUTF8.toList.map UInt8.toBitVec

/-- Sends a text. -/
def write (usart : Usart) (text : String) : Driver Unit :=
  (wire (utf8 text)).forM (put usart)

/-- What is sent for a text made of two parts is sent for the first part, and
then for the second. -/
theorem wire_append (a b : List Byte) : wire (a ++ b) = wire a ++ wire b := by
  simp [wire]

end BringUp.Hardware.Console
