import BringUp.FlagSet

/-!
Clock plans: the operating point that the board is to be brought to.

* `OscillatorPlan`: which oscillators to run and how the PLL is set.
* `BusPlan`: the source of the system clock and the bus dividers.
* `PeripheralPlan`: the clocks of the real-time clock and the converter.
* `Plan`: all three, and `Plan.board`, the plan of this board.

Each part carries the set of clocks that it applies to. A field that belongs
to a clock outside the set is without effect.
-/

namespace BringUp.Clock

/-! ## Oscillators -/

/-- Oscillators that a plan can name. -/
inductive Oscillator where
  | hse
  | hsi
  | lse
  | lsi
  deriving DecidableEq, Repr

instance : Flag Oscillator where
  position
    | .hse => 0
    | .hsi => 1
    | .lse => 2
    | .lsi => 3

/-- How an oscillator is operated. -/
inductive OscillatorMode where
  | off
  | on
  /-- An external clock is fed straight into the oscillator pin. -/
  | bypass
  deriving DecidableEq, Repr

/-- An oscillator in this mode gives a clock. -/
def OscillatorMode.running : OscillatorMode → Bool
  | .off => false
  | .on | .bypass => true

/-- Divider of the external oscillator in front of the PLL. -/
inductive HseDivider where
  | div1
  | div2
  deriving DecidableEq, Repr

def HseDivider.divisor : HseDivider → Nat
  | .div1 => 1
  | .div2 => 2

/-- Inputs of the PLL. -/
inductive PllSource where
  | hsiDiv2
  | hse
  deriving DecidableEq, Repr

def PllSource.label : PllSource → String
  | .hsiDiv2 => "HsiDiv2"
  | .hse => "Hse"

/-- Input and multiplier of the PLL. -/
structure PllSetting where
  source : PllSource
  multiplier : Byte
  deriving DecidableEq, Repr

/-- The oscillators to operate. No PLL setting switches the PLL off. -/
structure OscillatorPlan where
  named : FlagSet Oscillator
  hse : OscillatorMode
  hseDivider : HseDivider
  hsi : OscillatorMode
  lse : OscillatorMode
  lsi : OscillatorMode
  pll : Option PllSetting
  deriving DecidableEq, Repr

/-! ## Bus clocks -/

/-- Clocks that a bus plan can name. -/
inductive BusClock where
  | sysclk
  | hclk
  | pclk1
  | pclk2
  deriving DecidableEq, Repr

instance : Flag BusClock where
  position
    | .sysclk => 0
    | .hclk => 1
    | .pclk1 => 2
    | .pclk2 => 3

/-- Sources of the system clock. -/
inductive SysclkSource where
  | hsi
  | hse
  | pll
  deriving DecidableEq, Repr

def SysclkSource.label : SysclkSource → String
  | .hsi => "Hsi"
  | .hse => "Hse"
  | .pll => "Pll"

/-- Dividers from the system clock to the core clock HCLK. -/
inductive AhbDivider where
  | div1
  | div2
  | div4
  | div8
  | div16
  | div64
  | div128
  | div256
  | div512
  deriving DecidableEq, Repr

def AhbDivider.divisor : AhbDivider → Nat
  | .div1 => 1
  | .div2 => 2
  | .div4 => 4
  | .div8 => 8
  | .div16 => 16
  | .div64 => 64
  | .div128 => 128
  | .div256 => 256
  | .div512 => 512

/-- Dividers from HCLK to a peripheral bus clock. -/
inductive ApbDivider where
  | div1
  | div2
  | div4
  | div8
  | div16
  deriving DecidableEq, Repr

def ApbDivider.divisor : ApbDivider → Nat
  | .div1 => 1
  | .div2 => 2
  | .div4 => 4
  | .div8 => 8
  | .div16 => 16

/-- Wait states of the flash memory. -/
inductive WaitStates where
  | ws0
  | ws1
  | ws2
  deriving DecidableEq, Repr

namespace WaitStates

/-- The number of wait states. -/
def count : WaitStates → Nat
  | .ws0 => 0
  | .ws1 => 1
  | .ws2 => 2

def label : WaitStates → String
  | .ws0 => "Ws0"
  | .ws1 => "Ws1"
  | .ws2 => "Ws2"

/-- The fewest wait states that serve a core clock of `hclk` Hz. -/
def needed (hclk : Nat) : WaitStates :=
  if hclk ≤ 24000000 then .ws0
  else if hclk ≤ 48000000 then .ws1
  else .ws2

end WaitStates

/-- The source of the system clock, the bus dividers and the wait states. -/
structure BusPlan where
  named : FlagSet BusClock
  sysclk : SysclkSource
  ahb : AhbDivider
  apb1 : ApbDivider
  apb2 : ApbDivider
  waitStates : WaitStates
  deriving DecidableEq, Repr

/-! ## Peripheral clocks -/

/-- Clocks that a peripheral plan can name. -/
inductive PeripheralClock where
  | rtc
  | adc
  deriving DecidableEq, Repr

instance : Flag PeripheralClock where
  position
    | .rtc => 0
    | .adc => 1

/-- Sources of the real-time clock. -/
inductive RtcSource where
  | none
  | lse
  | lsi
  | hseDiv128
  deriving DecidableEq, Repr

def RtcSource.label : RtcSource → String
  | .none => "None"
  | .lse => "Lse"
  | .lsi => "Lsi"
  | .hseDiv128 => "HseDiv128"

/-- Dividers from the second peripheral bus clock to the converter's clock. -/
inductive AdcDivider where
  | div2
  | div4
  | div6
  | div8
  deriving DecidableEq, Repr

def AdcDivider.divisor : AdcDivider → Nat
  | .div2 => 2
  | .div4 => 4
  | .div6 => 6
  | .div8 => 8

/-- The source of the real-time clock and the converter's divider. -/
structure PeripheralPlan where
  named : FlagSet PeripheralClock
  rtc : RtcSource
  adc : AdcDivider
  deriving DecidableEq, Repr

/-! ## The whole plan -/

/-- The whole clock plan, applied once at boot. -/
structure Plan where
  oscillators : OscillatorPlan
  buses : BusPlan
  peripherals : PeripheralPlan
  deriving DecidableEq, Repr

/-- The board's plan: the 8 MHz crystal times 9 runs the core at 72 MHz, the
first peripheral bus at half of it, the converter at a sixth, and the
real-time clock on the watch crystal. -/
def Plan.board : Plan where
  oscillators := {
    named := FlagSet.ofList [.hse, .hsi, .lse]
    hse := .on
    hseDivider := .div1
    hsi := .on
    lse := .on
    lsi := .off
    pll := some { source := .hse, multiplier := 9 } }
  buses := {
    named := FlagSet.ofList [.sysclk, .hclk, .pclk1, .pclk2]
    sysclk := .pll
    ahb := .div1
    apb1 := .div2
    apb2 := .div1
    waitStates := .ws2 }
  peripherals := {
    named := FlagSet.ofList [.rtc, .adc]
    rtc := .lse
    adc := .div6 }

end BringUp.Clock
