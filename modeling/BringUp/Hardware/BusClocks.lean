import BringUp.Hardware.ClockReset
import BringUp.Hardware.Flash

/-!
The system clock's source and the bus dividers.

`configureBusClocks` keeps to one order. Wait states are added first and taken
away after the switch. If the core's divider is named, the named peripheral
buses are set to their slowest, then the core's divider is set, all with the old
source still in use. Then the source is switched, and the dividers of the named
peripheral buses come last.

The order alone does not keep the part within its limits on the way: the core's
new divider meets the old source, and buses that were not slowed down meet the
new one.
-/

namespace BringUp.Hardware

open Clock

/-- The status bit that says whether a source is ready, and its name. -/
def readyBit : SysclkSource → Word × ReadyFlag
  | .hsi => (Cr.hsiReady, .hsi)
  | .hse => (Cr.hseReady, .hse)
  | .pll => (Cr.pllReady, .pll)

/-- Sets the wait states if it is due, going by those that are in force. -/
def adjustWaitStates (due : WaitStates → Prop) [DecidablePred due] (wanted : WaitStates) :
    Setup Unit := do
  let current ← Flash.waitStates
  if due current then Flash.setWaitStates wanted

/-- More wait states, if the plan has more than are in force. -/
def raiseWaitStates (wanted : WaitStates) : Setup Unit :=
  adjustWaitStates (wanted.count > ·.count) wanted

/-- Fewer wait states, if the plan has fewer than are in force. -/
def lowerWaitStates (wanted : WaitStates) : Setup Unit :=
  adjustWaitStates (wanted.count < ·.count) wanted

/-- Sets the core's divider, with the named peripheral buses slowed down. -/
def divideCore (plan : BusPlan) : Driver Unit := do
  if plan.named.names .pclk1 then
    Driver.writeField .cfgr Cfgr.ppre1 ApbDivider.div16.code
  if plan.named.names .pclk2 then
    Driver.writeField .cfgr Cfgr.ppre2 ApbDivider.div16.code
  Driver.writeField .cfgr Cfgr.hpre plan.ahb.code

/-- Switches the system clock to a source that is ready. -/
def switchSysclk (source : SysclkSource) : Setup Unit := do
  let cr ← Driver.read .cr
  if !cr.has (readyBit source).1 then throw (.notReady (readyBit source).2)
  else
    Driver.writeField .cfgr Cfgr.sw source.code
    Setup.waitUntil .cfgr (fun cfgr => Cfgr.sws.get cfgr == source.code)
      .sysclkSwitch Budget.clockSwitch

/-- Sets the dividers of the named peripheral buses. -/
def dividePeripheralBuses (plan : BusPlan) : Driver Unit := do
  if plan.named.names .pclk1 then
    Driver.writeField .cfgr Cfgr.ppre1 plan.apb1.code
  if plan.named.names .pclk2 then
    Driver.writeField .cfgr Cfgr.ppre2 plan.apb2.code

/-- Switches the system clock and sets the dividers that the plan names. -/
def configureBusClocks (plan : BusPlan) : Setup Unit := do
  raiseWaitStates plan.waitStates
  if plan.named.names .hclk then divideCore plan
  if plan.named.names .sysclk then switchSysclk plan.sysclk
  lowerWaitStates plan.waitStates
  dividePeripheralBuses plan

end BringUp.Hardware
