import BringUp.Register.Bus

/-!
The flash memory's access timing: wait states and the prefetch buffer.
-/

namespace BringUp.Hardware.Flash

/-- The wait states. -/
def latency : Field :=
  { mask := 0x00000007, shift := 0, shift_lt := Nat.le_of_ble_eq_true rfl }

/-- The prefetch buffer is requested. -/
def prefetchOn : Word := 0x00000010

/-- The prefetch buffer is in use. -/
def prefetchActive : Word := 0x00000020

/-- The wait states that a code stands for; all codes above 1 mean two. -/
def decodeWaitStates (code : Word) : Clock.WaitStates :=
  match code.toNat with
  | 0 => .ws0
  | 1 => .ws1
  | _ => .ws2

/-- The wait states in force. -/
def waitStates : Driver Clock.WaitStates := do
  let code ← Driver.readField .acr latency
  return decodeWaitStates code

/-- Sets the wait states and checks that they read back. -/
def setWaitStates (wanted : Clock.WaitStates) : Setup Unit := do
  Driver.writeField .acr latency (BitVec.ofNat 32 wanted.count)
  let found ← waitStates
  if found = wanted then return () else throw .waitStates

def enablePrefetch : Driver Unit :=
  Driver.setBits .acr prefetchOn

def prefetchEnabled : Driver Bool :=
  Driver.isSet .acr prefetchActive

end BringUp.Hardware.Flash
