import BringUp.Register.Bus

/-!
Devices: what can sit behind the register bus.

* `Device σ`: how a part with states `σ` answers single accesses.
* `Device.poll`: repeated reads until a value is accepted.
* `Device.handler`: a device as an environment for drivers.
* `Device.journaled`: the same device with all writes written down.

A wait without a bound is given up after `patience` reads. For a part that
settles within that many reads, giving up means that the wait never ends.
-/

namespace BringUp

/-- A part with states of type `σ` behind the bus. -/
structure Device (σ : Type) where
  read : Register → σ → Word × σ
  write : Register → Word → σ → σ
  loadVector : Word → Nat → σ → VectorEntry
  storeVector : Nat → VectorEntry → σ → σ

namespace Device

variable {σ : Type}

/-- Reads `r` until a value is accepted, at most `budget` times. Tells
whether one was, and leaves the state after the last read. -/
def poll (d : Device σ) (r : Register) (accept : Word → Bool) :
    Nat → σ → Bool × σ
  | 0, s => (false, s)
  | budget + 1, s =>
      match d.read r s with
      | (value, t) => if accept value then (true, t) else d.poll r accept budget t

/-- The device as an environment for drivers. -/
def handler (d : Device σ) (patience : Nat) : Handler bus σ where
  respond
    | .read r, s =>
        match d.read r s with
        | (value, t) => (.ok value, t)
    | .write r value, s => (.ok (), d.write r value s)
    | .poll r accept budget, s =>
        match d.poll r accept budget s with
        | (accepted, t) => (.ok accepted, t)
    | .await r accept, s =>
        match d.poll r accept patience s with
        | (true, t) => (.ok (), t)
        | (false, t) => (.error .stalled, t)
    | .loadVector table slot, s => (.ok (d.loadVector table slot s), s)
    | .storeVector slot entry, s => (.ok (), d.storeVector slot entry s)

/-- The device with every write of a register put down in order. -/
def journaled (d : Device σ) : Device (σ × Array (Register × Word)) where
  read r := fun (s, journal) =>
    match d.read r s with
    | (value, t) => (value, t, journal)
  write r value := fun (s, journal) => (d.write r value s, journal.push (r, value))
  loadVector table slot := fun (s, _) => d.loadVector table slot s
  storeVector slot entry := fun (s, journal) => (d.storeVector slot entry s, journal)

end Device

end BringUp
