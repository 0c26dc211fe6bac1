import BringUp.Clock.Limits

/-!
Errors of a setup step.

* `ReadyFlag`: the status flags that a step waits for.
* `SetupError`: why a step fails, with `SetupError.message`.

A failed step is a result, not a fault: the board keeps running at whatever
operating point the last write left it in.
-/

namespace BringUp

/-- Status flags that a step waits for. -/
inductive ReadyFlag where
  | hse
  | hsi
  | lse
  | lsi
  | pll
  | sysclkSwitch
  | backupDomainAccess
  deriving DecidableEq, Repr

def ReadyFlag.label : ReadyFlag → String
  | .hse => "Hse"
  | .hsi => "Hsi"
  | .lse => "Lse"
  | .lsi => "Lsi"
  | .pll => "Pll"
  | .sysclkSwitch => "SysclkSwitch"
  | .backupDomainAccess => "BackupDomainAccess"

/-- Why a setup step fails. -/
inductive SetupError where
  /-- The flag did not reach the awaited state within its budget. -/
  | timeout (flag : ReadyFlag)
  /-- The source to switch to is not ready. -/
  | notReady (flag : ReadyFlag)
  /-- The PLL drives the system clock and would have to change. -/
  | pllInUse
  /-- The oscillator drives the system clock and would have to stop. -/
  | oscillatorInUse (flag : ReadyFlag)
  /-- The wait states did not read back. -/
  | waitStates
  /-- The plan itself is not one for this part. -/
  | invalidPlan (violation : Clock.Violation)
  deriving DecidableEq, Repr

/-- The reported text of an error. -/
def SetupError.message : SetupError → String
  | .timeout flag => "timed out waiting for " ++ flag.label
  | .notReady flag => flag.label ++ " selected as clock source but not ready"
  | .pllInUse => "PLL drives SYSCLK and cannot be reconfigured"
  | .oscillatorInUse flag => flag.label ++ " drives SYSCLK and cannot be stopped"
  | .waitStates => "flash latency did not latch"
  | .invalidPlan violation => violation.message

/-- The result of a setup step. -/
abbrev SetupResult := Except SetupError Unit

instance : DecidableEq SetupResult
  | .ok (), .ok () => isTrue rfl
  | .error why, .error why' => decidable_of_iff (why = why') ⟨congrArg _, Except.error.inj⟩
  | .ok _, .error _ | .error _, .ok _ => isFalse nofun

end BringUp
