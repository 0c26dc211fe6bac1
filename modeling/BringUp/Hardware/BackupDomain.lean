import BringUp.Hardware.Gates

/-!
Write access to the backup domain.

The backup domain is locked after reset. `BackupDomain.unlock` unlocks it;
`BackupDomain.access` powers the lock first.
-/

namespace BringUp.Hardware.BackupDomain

/-- The bit of the power control register that unlocks the domain. -/
def writable : Word := 0x00000100

/-- Unlocks the domain, unless it is unlocked already. Without the power
controller's clock the bit does not latch and the wait times out. -/
def unlock : Setup Unit := do
  if ← Driver.isSet .pwr writable then return ()
  else
    Driver.setBits .pwr writable
    Setup.waitSet .pwr writable .backupDomainAccess Budget.backupDomain

/-- Gives the power controller its clock and unlocks the domain. -/
def access : Setup Unit := do
  enableClock Clock.Gate.pwr
  unlock

end BringUp.Hardware.BackupDomain
