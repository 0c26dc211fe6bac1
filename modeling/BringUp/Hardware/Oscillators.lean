import BringUp.Hardware.BackupDomain
import BringUp.Hardware.ClockReset

/-!
Starting and stopping the oscillators and the PLL.

* `sysclkStatus`, `drivesSysclk`: what the system clock runs from.
* `configureHse`, `configureHsi`, `configureLsi`, `configureLse`,
  `configurePll`: one oscillator each.
* `configureOscillators`: the oscillators that a plan names, then the PLL.

A clock that drives the system clock is never stopped or reprogrammed.
-/

namespace BringUp.Hardware

open Clock

/-- The source that the system clock runs from. -/
def sysclkStatus : Driver SysclkSource := do
  let code ← Driver.readField .cfgr Cfgr.sws
  return SysclkSource.ofCode code

/-- The input that the PLL is set to. -/
def pllSource : Driver PllSource := do
  let external ← Driver.isSet .cfgr Cfgr.pllSource
  return if external then .hse else .hsiDiv2

/-- The oscillator feeds the system clock, directly or through the PLL. -/
def drivesSysclk (source : SysclkSource) (pllInput : PllSource) : Driver Bool := do
  let status ← sysclkStatus
  if status = source then return true
  else if status = .pll then
    let input ← pllSource
    return input = pllInput
  else return false

/-- The control bits of the external oscillator in each mode. -/
def hseBits : OscillatorMode → Word
  | .off => 0
  | .on => Cr.hseOn
  | .bypass => Cr.hseOn ||| Cr.hseBypass

/-- The control bits of the watch crystal in each mode. -/
def lseBits : OscillatorMode → Word
  | .off => 0
  | .on => Bdcr.lseOn
  | .bypass => Bdcr.lseOn ||| Bdcr.lseBypass

/-- Stops the external oscillator and starts it in the requested mode. While
it drives the system clock it is left alone, and only a request to stop it is
an error. -/
def configureHse (mode : OscillatorMode) : Setup Unit := do
  if ← drivesSysclk .hse .hse then
    if mode.running then return () else throw (.oscillatorInUse .hse)
  else
    Driver.clearBits .cr (Cr.hseOn ||| Cr.hseBypass)
    Setup.waitClear .cr Cr.hseReady .hse Budget.hse
    if mode.running then
      Driver.setBits .cr (hseBits mode)
      Setup.waitSet .cr Cr.hseReady .hse Budget.hse

/-- Starts or stops the internal oscillator. -/
def configureHsi (mode : OscillatorMode) : Setup Unit := do
  if ← drivesSysclk .hsi .hsiDiv2 then
    if mode.running then Setup.waitSet .cr Cr.hsiReady .hsi Budget.hsi
    else throw (.oscillatorInUse .hsi)
  else if mode.running then
    Driver.setBits .cr Cr.hsiOn
    Setup.waitSet .cr Cr.hsiReady .hsi Budget.hsi
  else
    Driver.clearBits .cr Cr.hsiOn
    Setup.waitClear .cr Cr.hsiReady .hsi Budget.hsi

/-- Starts or stops the low-speed internal oscillator. -/
def configureLsi (mode : OscillatorMode) : Setup Unit := do
  if mode.running then
    Driver.setBits .csr Csr.lsiOn
    Setup.waitSet .csr Csr.lsiReady .lsi Budget.lsi
  else
    Driver.clearBits .csr Csr.lsiOn
    Setup.waitClear .csr Csr.lsiReady .lsi Budget.lsi

/-- Waits until the crystal's ready flag is as the mode asks. -/
def awaitLse (mode : OscillatorMode) : Setup Unit :=
  if mode.running then Setup.waitSet .bdcr Bdcr.lseReady .lse Budget.lse
  else Setup.waitClear .bdcr Bdcr.lseReady .lse Budget.lse

/-- Operates the watch crystal. It belongs to the backup domain, which
survives a reset, so it is only stopped when its mode has to change. -/
def configureLse (mode : OscillatorMode) : Setup Unit := do
  BackupDomain.access
  let bdcr ← Driver.read .bdcr
  if bdcr &&& Bdcr.lseMode = lseBits mode then awaitLse mode
  else
    Driver.clearBits .bdcr Bdcr.lseMode
    Setup.waitClear .bdcr Bdcr.lseReady .lse Budget.lse
    if mode.running then
      Driver.setBits .bdcr (lseBits mode)
      Setup.waitSet .bdcr Bdcr.lseReady .lse Budget.lse

/-- Leaves a PLL alone that drives the system clock; any other setting than
the present one is an error. -/
def keepPll (wanted : Option PllSetting) (divider : HseDivider) : Setup Unit := do
  match wanted with
  | none => throw .pllInUse
  | some pll =>
      let cfgr ← Driver.read .cfgr
      if cfgr &&& Cfgr.pll = pll.code divider then return ()
      else throw .pllInUse

/-- Stops the PLL and starts it with the wanted setting. -/
def restartPll (wanted : Option PllSetting) (divider : HseDivider) : Setup Unit := do
  Driver.clearBits .cr Cr.pllOn
  Setup.waitClear .cr Cr.pllReady .pll Budget.pll
  match wanted with
  | none => return ()
  | some pll =>
      Driver.modify .cfgr fun cfgr => (cfgr &&& ~~~Cfgr.pll) ||| pll.code divider
      Driver.setBits .cr Cr.pllOn
      Setup.waitSet .cr Cr.pllReady .pll Budget.pll

/-- A multiplier that the PLL does not have is refused before any access. -/
def requireMultiplier (wanted : Option PllSetting) : Setup Unit :=
  match wanted with
  | some pll =>
      if pll.inRange then return ()
      else throw (.invalidPlan (.pllMultiplier pll.multiplier))
  | none => return ()

/-- Sets the PLL, or switches it off. -/
def configurePll (wanted : Option PllSetting) (divider : HseDivider) : Setup Unit := do
  requireMultiplier wanted
  let status ← sysclkStatus
  if status = .pll then keepPll wanted divider else restartPll wanted divider

/-- Operates the oscillators that the plan names, then the PLL. -/
def configureOscillators (plan : OscillatorPlan) : Setup Unit := do
  if plan.named.names .hse then configureHse plan.hse
  if plan.named.names .hsi then configureHsi plan.hsi
  if plan.named.names .lsi then configureLsi plan.lsi
  if plan.named.names .lse then configureLse plan.lse
  configurePll plan.pll plan.hseDivider

end BringUp.Hardware
