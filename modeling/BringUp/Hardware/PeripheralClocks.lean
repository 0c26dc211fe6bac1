import BringUp.Hardware.BackupDomain
import BringUp.Hardware.ClockReset

/-!
The clocks of the real-time clock and the converter.

The source of the real-time clock can only be changed by a reset of the whole
backup domain. `resetBackupDomain` puts the rest of the domain back afterwards,
so the watch crystal keeps running.
-/

namespace BringUp.Hardware

open Clock

/-- Resets the backup domain and restores everything but the source. -/
def resetBackupDomain : Setup Unit := do
  Driver.log .debug Log.Target.clocks
    "RTC clock source change, resetting backup domain"
  let bdcr ← Driver.read .bdcr
  let saved := bdcr &&& ~~~Bdcr.rtcSource.mask
  Driver.setBits .bdcr Bdcr.domainReset
  Driver.clearBits .bdcr Bdcr.domainReset
  Driver.write .bdcr saved
  if saved.has Bdcr.lseOn then
    Setup.waitSet .bdcr Bdcr.lseReady .lse Budget.lse

/-- Selects the source of the real-time clock. -/
def selectRtcSource (source : RtcSource) : Setup Unit := do
  BackupDomain.access
  let current ← Driver.readField .bdcr Bdcr.rtcSource
  if current ≠ 0 ∧ current ≠ source.code then resetBackupDomain
  Driver.writeField .bdcr Bdcr.rtcSource source.code

/-- Selects the clocks that the plan names. -/
def configurePeripheralClocks (plan : PeripheralPlan) : Setup Unit := do
  if plan.named.names .rtc then selectRtcSource plan.rtc
  if plan.named.names .adc then
    Driver.writeField .cfgr Cfgr.adcpre plan.adc.code

end BringUp.Hardware
