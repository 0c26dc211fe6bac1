import BringUp.Clock.Rates

/-!
The limits of the part and the check of a plan against them.

* `sysclkMaxHz`, …, `pllMultiplierMax`: the limits.
* `Violation`: what can be wrong with a plan, with `Violation.message`.
* `Plan.check`: the first violation of a plan, or the rates it produces.
-/

namespace BringUp.Clock

def sysclkMaxHz : Nat := 72000000
def pclk1MaxHz : Nat := 36000000
def pclk2MaxHz : Nat := 72000000
def adcMaxHz : Nat := 14000000
def pllMultiplierMin : Nat := 2
def pllMultiplierMax : Nat := 16

/-- A limit of the part that a plan breaks. -/
inductive Violation where
  | pllMultiplier (multiplier : Byte)
  | pllSourceDisabled (source : PllSource)
  | sysclkSourceDisabled (source : SysclkSource)
  | rtcSourceDisabled (source : RtcSource)
  | sysclk (hz : Nat)
  | pclk1 (hz : Nat)
  | pclk2 (hz : Nat)
  | adc (hz : Nat)
  | waitStates (configured : WaitStates) (hclk : Nat)
  deriving DecidableEq, Repr

/-- The reported text of a violation. -/
def Violation.message : Violation → String
  | .pllMultiplier multiplier =>
      "PLL multiplier x" ++ toString multiplier.toNat ++ " outside x2..=x16"
  | .pllSourceDisabled source => "PLL input " ++ source.label ++ " is not enabled"
  | .sysclkSourceDisabled source =>
      "SYSCLK source " ++ source.label ++ " is not enabled"
  | .rtcSourceDisabled source =>
      "RTC clock source " ++ source.label ++ " is not enabled"
  | .sysclk hz => "SYSCLK " ++ toString hz ++ " Hz above 72 MHz"
  | .pclk1 hz => "PCLK1 " ++ toString hz ++ " Hz above 36 MHz"
  | .pclk2 hz => "PCLK2 " ++ toString hz ++ " Hz above 72 MHz"
  | .adc hz => "ADC clock " ++ toString hz ++ " Hz above 14 MHz"
  | .waitStates configured hclk =>
      "flash latency " ++ configured.label ++ " too low for HCLK " ++
        toString hclk ++ " Hz"

/-- The multiplier is one that the PLL has. -/
def PllSetting.inRange (pll : PllSetting) : Bool :=
  pllMultiplierMin ≤ pll.multiplier.toNat && pll.multiplier.toNat ≤ pllMultiplierMax

namespace OscillatorPlan

/-- The mode that the plan asks of an oscillator. -/
def mode (p : OscillatorPlan) : Oscillator → OscillatorMode
  | .hse => p.hse
  | .hsi => p.hsi
  | .lse => p.lse
  | .lsi => p.lsi

/-- The oscillator runs under the plan. The internal one runs out of reset and
stays on unless the plan stops it; the others have to be started. -/
def runs (p : OscillatorPlan) (o : Oscillator) : Bool :=
  match o with
  | .hsi => !p.named.names .hsi || p.hsi.running
  | o => p.named.names o && (p.mode o).running

/-- The PLL's input runs under the plan. -/
def pllInputRuns (p : OscillatorPlan) : PllSource → Bool
  | .hse => p.runs .hse
  | .hsiDiv2 => p.runs .hsi

/-- The source of the system clock runs under the plan. -/
def sysclkSourceRuns (p : OscillatorPlan) : SysclkSource → Bool
  | .hsi => p.runs .hsi
  | .hse => p.runs .hse
  | .pll => p.pll.isSome

/-- The source of the real-time clock runs under the plan, or it has none. -/
def rtcSourceRuns (p : OscillatorPlan) : RtcSource → Bool
  | .none => true
  | .lse => p.runs .lse
  | .lsi => p.runs .lsi
  | .hseDiv128 => p.runs .hse

end OscillatorPlan

namespace Plan

/-- The PLL is off, or has a multiplier in range and a running input. -/
def checkPll (p : Plan) : Except Violation Unit :=
  match p.oscillators.pll with
  | none => .ok ()
  | some pll =>
      if !pll.inRange then .error (.pllMultiplier pll.multiplier)
      else if !p.oscillators.pllInputRuns pll.source then
        .error (.pllSourceDisabled pll.source)
      else .ok ()

/-- The source of the system clock runs. -/
def checkSysclkSource (p : Plan) : Except Violation Unit :=
  if p.oscillators.sysclkSourceRuns p.buses.sysclk then .ok ()
  else .error (.sysclkSourceDisabled p.buses.sysclk)

/-- The bus clocks are within their limits and the flash keeps up. -/
def checkRates (p : Plan) : Except Violation Unit :=
  let r := p.rates
  if r.sysclk > sysclkMaxHz then .error (.sysclk r.sysclk)
  else if r.pclk1 > pclk1MaxHz then .error (.pclk1 r.pclk1)
  else if r.pclk2 > pclk2MaxHz then .error (.pclk2 r.pclk2)
  else if p.buses.waitStates.count < (WaitStates.needed r.hclk).count then
    .error (.waitStates p.buses.waitStates r.hclk)
  else .ok ()

/-- A named converter clock is within its limit, and a named real-time clock
has a running source or none. -/
def checkPeripherals (p : Plan) : Except Violation Unit :=
  let periph := p.peripherals
  if periph.named.names .adc && p.rates.adc > adcMaxHz then
    .error (.adc p.rates.adc)
  else if periph.named.names .rtc && !p.oscillators.rtcSourceRuns periph.rtc then
    .error (.rtcSourceDisabled periph.rtc)
  else .ok ()

/-- The rates of a plan that keeps to the part's limits, else the first limit
that it breaks. -/
def check (p : Plan) : Except Violation Rates := do
  p.checkPll
  p.checkSysclkSource
  p.checkRates
  p.checkPeripherals
  return p.rates

end Plan

end BringUp.Clock
