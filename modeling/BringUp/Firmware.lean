import BringUp.Board.BringUp
import BringUp.Hardware.Console
import BringUp.Hardware.Services

/-!
The firmware: the board support with its process-wide state.

* `Cell`: a value that is set once and shared under a lock.
* `Firmware`: the platform, the console, the logger and the counters.
* `Kernel`: drivers that also work on that state.
* `Kernel.bringUp`, `Kernel.startConsole`, `Kernel.reportBringUp`,
  `Kernel.boot`, `Kernel.shutdown`: the life of the firmware.

Waiting for a lock that is never released stalls.
-/

namespace BringUp

open Board (Platform ShutdownMode Sequence)

/-! ## State -/

/-- A value that is set at most once and then shared under a lock. -/
inductive Cell (α : Type) where
  | unset
  | free (value : α)
  | held (value : α)

namespace Cell

variable {α : Type}

/-- The value, if the lock can be taken at once. -/
def tryLock : Cell α → Option α
  | .free value => some value
  | .unset | .held _ => none

/-- Takes the lock for good, if it can be taken at once. -/
def hold : Cell α → Cell α
  | .free value => .held value
  | cell => cell

end Cell

/-- Who takes the log records. -/
inductive Logger where
  /-- A recorder that takes everything. -/
  | recorder
  /-- The serial console: everything but the fine-grained records of other
  programs. -/
  | serial
  deriving DecidableEq, Repr

/-- The logger takes records of this level and target. -/
def Logger.takes (logger : Logger) (level : Log.Level) (target : String) : Bool :=
  match logger with
  | .recorder => true
  | .serial => level.rank < Log.Level.trace.rank || target.startsWith "kernel"

/-- The process-wide state. -/
structure Firmware where
  /-- The USART that the firmware is built to print on. -/
  usart : Usart
  platform : Cell Platform
  console : Cell Usart
  logger : Option Logger
  ceiling : Log.Ceiling
  ticks : Ticks
  /-- Interrupts that fired while nobody had claimed them. -/
  unhandled : Word

namespace Firmware

/-- The state before anything ran, with the logger that is there already. A
recorder records everything from the start. -/
def fresh (usart : Usart) (recording : Bool) : Firmware where
  usart := usart
  platform := .unset
  console := .unset
  logger := if recording then some .recorder else none
  ceiling := if recording then Log.Ceiling.all else none
  ticks := 0
  unhandled := 0

/-- A record of this level and target would be taken; without a logger none
is. -/
def logEnabled (f : Firmware) (level : Log.Level) (target : String) : Bool :=
  match f.logger with
  | some logger => logger.takes level target
  | none => false

/-- The log records reach a recorder. -/
def recording (f : Firmware) : Bool :=
  f.logger = some .recorder

end Firmware

/-! ## Procedures -/

/-- A driver that also works on the process-wide state. -/
abbrev Kernel (α : Type) : Type := StateT Firmware Driver α

namespace Kernel

/-- Runs a driver; records above the ceiling are dropped. -/
def drive {α : Type} (d : Driver α) : Kernel α := fun f => do
  let result ← d.under f.ceiling
  return (result, f)

/-- Carries out a board sequence on the registers. -/
def perform {α : Type} (s : Sequence α) : Kernel α := do
  let f ← get
  drive (Hardware.onRegisters f.ceiling s)

/-- Writes one log record. -/
def log (level : Log.Level) (target message : String) : Kernel Unit :=
  drive (Driver.log level target message)

/-- The value of a cell that is set, once its lock is free. -/
def lock {α : Type} (cell : Cell α) : Kernel (Option α) :=
  match cell with
  | .unset => pure none
  | .free value => pure (some value)
  | .held _ => drive (Proc.stop .stalled)

/-- Brings the board up. Later calls do nothing. -/
def bringUp : Kernel Unit := do
  let f ← get
  match f.platform with
  | .unset =>
      let platform ← perform (Board.bringUp Clock.Plan.board)
      modify fun f => { f with platform := .free platform }
  | _ => pure ()

/-- Sets up the console, unless it is set up already. -/
def openConsole (rates : Clock.Rates) : Kernel Unit := do
  let f ← get
  match f.console with
  | .unset =>
      drive (Hardware.Console.start f.usart (f.usart.busClockHz rates))
      modify fun f => { f with console := .free f.usart }
  | _ => pure ()

/-- Connects the console's USART and starts the console on the live clocks,
which are the result. Without a platform nothing happens. -/
def startConsole : Kernel (Option Clock.Rates) := do
  let f ← get
  match ← lock f.platform with
  | none => return none
  | some platform =>
      perform (platform.connect f.usart)
      let live ← drive Hardware.liveRates
      openConsole live
      return some live

/-- Starts the tick timer. The timer belongs to the core and is not behind the
register bus, so no access is made. -/
def startTick (_hclk : Nat) : Kernel Unit :=
  pure ()

/-- Starts the console, and the tick on the live core clock. -/
def startDevices : Kernel Unit := do
  match ← startConsole with
  | none => return ()
  | some live => startTick live.hclk

/-- Records the live clocks, if such a record is wanted. -/
def logLiveRates : Kernel Unit := do
  let f ← get
  if f.ceiling.admits .info then
    let live ← drive Hardware.liveRates
    log .info Log.Target.platform ("live clocks: " ++ live.text)

/-- Records the outcome of the bring-up, now that there is a console. -/
def reportBringUp : Kernel Unit := do
  let f ← get
  match ← lock f.platform with
  | none => return ()
  | some platform =>
      perform platform.report.replay
      log .info Log.Target.platform ("configured clocks: " ++ platform.rates.text)
      logLiveRates

/-- Installs the serial logger, unless there is a logger already. -/
def installLogger : Kernel Unit :=
  modify fun f =>
    match f.logger with
    | none => { f with logger := some .serial, ceiling := Log.Ceiling.all }
    | some _ => f

/-- Boots: clocks and vectors, console and tick, logger, report. -/
def boot : Kernel Unit := do
  bringUp
  startDevices
  installLogger
  reportBringUp
  log .info Log.Target.kernel
    ("kernel initialized, target core clock " ++ toString Clock.coreHz ++ " Hz")

/-- The idle hook. -/
def idle : Kernel Unit := do
  let f ← get
  match ← lock f.platform with
  | none => return ()
  | some platform => perform platform.idle

/-- Prints on the console once its lock is free. -/
def print (text : String) : Kernel Unit := do
  let f ← get
  match ← lock f.console with
  | none => return ()
  | some usart => drive (Hardware.Console.write usart text)

/-- Goes down for a reset. A console or platform that is in use is passed
over, so this never waits for a lock. -/
def shutdown {α : Type} (mode : ShutdownMode) : Kernel α := do
  let f ← get
  log .info Log.Target.platform
    (toString f.unhandled.toNat ++ " unhandled interrupts since boot")
  match f.console.tryLock with
  | some usart => drive (Hardware.Console.flush usart)
  | none => pure ()
  match f.platform.tryLock with
  | some platform => perform (platform.shutdown mode)
  | none => drive Hardware.SystemControl.requestReset

/-- Interrupts that nobody has claimed fire `n` times. -/
def interrupt (n : Nat) : Kernel Unit :=
  modify fun f => { f with unhandled := f.unhandled + BitVec.ofNat 32 n }

/-- The tick timer fires `n` times. -/
def advanceTicks (n : Nat) : Kernel Unit :=
  modify fun f => { f with ticks := f.ticks.advance n }

end Kernel

end BringUp
