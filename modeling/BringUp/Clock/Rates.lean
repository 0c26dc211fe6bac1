import BringUp.Checked
import BringUp.Clock.Plan

/-!
Clock rates in Hz.

* `hseHz`, `hsiHz`, `lseHz`, `lsiHz`, `coreHz`: the board's oscillators and
  the frequency that its core is designed for.
* `Rates`: the six clocks of the running part, with `Rates.text`.
* `Chain`: the numbers that determine the rates, and `Chain.rates`.
* `Chain.evaluate`: the same computation in 32-bit arithmetic that faults.
* `Plan.chain`, `Plan.rates`: what a plan produces once it is applied.
* `Plan.compute`: the rates of a plan in 32-bit arithmetic from the oscillators
  on, with the input of the PLL and the real-time clock divided down as well.

Main statements: the 32-bit computation of a plan never faults
(`Plan.evaluate_eq_ok`), because the largest PLL output, 255 times 8 MHz,
fits into 32 bits and no divider is zero; from the oscillators on it is the same
(`Plan.compute_eq_evaluate`).
-/

namespace BringUp.Clock

/-- The crystal fitted on the board. -/
def hseHz : Nat := 8000000

/-- The internal RC oscillator. -/
def hsiHz : Nat := 8000000

/-- The watch crystal. -/
def lseHz : Nat := 32768

/-- The internal low-speed RC oscillator, nominally. -/
def lsiHz : Nat := 40000

/-- The frequency that the core is designed for. -/
def coreHz : Nat := 72000000

/-- The six clocks of the part, in Hz. -/
structure Rates where
  sysclk : Nat
  hclk : Nat
  pclk1 : Nat
  pclk2 : Nat
  adc : Nat
  rtc : Nat
  deriving DecidableEq, Repr

/-- All six rates on one line. -/
def Rates.text (r : Rates) : String :=
  "sysclk=" ++ toString r.sysclk ++ " hclk=" ++ toString r.hclk ++
    " pclk1=" ++ toString r.pclk1 ++ " pclk2=" ++ toString r.pclk2 ++
    " adc=" ++ toString r.adc ++ " rtc=" ++ toString r.rtc

/-- The numbers between an oscillator and the clocks derived from it. A clock
that bypasses the PLL has the multiplier 1. -/
structure Chain where
  input : Nat
  multiplier : Nat
  ahb : Nat
  apb1 : Nat
  apb2 : Nat
  adc : Nat
  rtc : Nat
  deriving DecidableEq, Repr

namespace Chain

/-- The rates at the end of the chain. -/
def rates (c : Chain) : Rates :=
  let sysclk := c.input * c.multiplier
  let hclk := sysclk / c.ahb
  let pclk2 := hclk / c.apb2
  { sysclk, hclk, pclk1 := hclk / c.apb1, pclk2, adc := pclk2 / c.adc, rtc := c.rtc }

/-- The rates, computed in 32-bit arithmetic. -/
def evaluate (c : Chain) : Except Fault Rates := do
  let sysclk ← Checked.mul c.input c.multiplier
  let hclk ← Checked.div sysclk c.ahb
  let pclk1 ← Checked.div hclk c.apb1
  let pclk2 ← Checked.div hclk c.apb2
  let adc ← Checked.div pclk2 c.adc
  return { sysclk, hclk, pclk1, pclk2, adc, rtc := c.rtc }

/-- The multiplied clock fits into 32 bits and no divider is zero. -/
structure Sound (c : Chain) : Prop where
  fits : c.input * c.multiplier < Checked.limit
  ahb_pos : 0 < c.ahb
  apb1_pos : 0 < c.apb1
  apb2_pos : 0 < c.apb2
  adc_pos : 0 < c.adc

/-- On a sound chain 32-bit arithmetic computes the rates. -/
theorem Sound.evaluate_eq_ok {c : Chain} (h : c.Sound) :
    c.evaluate = .ok c.rates := by
  simp only [evaluate, rates, Checked.mul_of_lt h.fits, Checked.div_of_pos h.ahb_pos,
    Checked.div_of_pos h.apb1_pos, Checked.div_of_pos h.apb2_pos,
    Checked.div_of_pos h.adc_pos]
  rfl

end Chain

/-- The clock at the input of the PLL. -/
def PllSource.hz (source : PllSource) (divider : HseDivider) : Nat :=
  match source with
  | .hsiDiv2 => hsiHz / 2
  | .hse => hseHz / divider.divisor

theorem PllSource.hz_le (source : PllSource) (divider : HseDivider) :
    source.hz divider ≤ hseHz := by
  cases source <;> cases divider <;> decide

/-- The input of the PLL, computed in 32-bit arithmetic. -/
def PllSource.compute (source : PllSource) (divider : HseDivider) : Except Fault Nat :=
  match source with
  | .hsiDiv2 => Checked.div hsiHz 2
  | .hse => Checked.div hseHz divider.divisor

theorem PllSource.compute_eq_ok (source : PllSource) (divider : HseDivider) :
    source.compute divider = .ok (source.hz divider) := by
  cases source <;> cases divider <;> rfl

/-- The rate of a real-time clock source. -/
def RtcSource.hz : RtcSource → Nat
  | .none => 0
  | .lse => lseHz
  | .lsi => lsiHz
  | .hseDiv128 => hseHz / 128

/-- The real-time clock, computed in 32-bit arithmetic. -/
def RtcSource.compute : RtcSource → Except Fault Nat
  | .none => .ok 0
  | .lse => .ok lseHz
  | .lsi => .ok lsiHz
  | .hseDiv128 => Checked.div hseHz 128

theorem RtcSource.compute_eq_ok (source : RtcSource) : source.compute = .ok source.hz := by
  cases source <;> rfl

namespace Plan

/-- The oscillator that the plan runs the system clock from, and the factor
between the two. A PLL that is selected but switched off gives no clock. -/
def source (p : Plan) : Nat × Nat :=
  match p.buses.sysclk with
  | .hsi => (hsiHz, 1)
  | .hse => (hseHz, 1)
  | .pll =>
      match p.oscillators.pll with
      | some pll =>
          (pll.source.hz p.oscillators.hseDivider, pll.multiplier.toNat)
      | none => (0, 1)

/-- The clock chain that the plan sets up. -/
def chain (p : Plan) : Chain where
  input := p.source.1
  multiplier := p.source.2
  ahb := p.buses.ahb.divisor
  apb1 := p.buses.apb1.divisor
  apb2 := p.buses.apb2.divisor
  adc := p.peripherals.adc.divisor
  rtc := p.peripherals.rtc.hz

/-- The rates that the plan produces once it is applied. -/
def rates (p : Plan) : Rates :=
  p.chain.rates

theorem source_fst_le (p : Plan) : p.source.1 ≤ hseHz := by
  simp only [source]
  split
  · decide
  · decide
  · split
    · exact PllSource.hz_le _ _
    · decide

theorem source_snd_le (p : Plan) : p.source.2 ≤ 255 := by
  simp only [source]
  split
  · decide
  · decide
  · split
    · next pll _ => exact Nat.le_of_lt_succ pll.multiplier.isLt
    · decide

theorem chain_sound (p : Plan) : p.chain.Sound where
  fits := Nat.lt_of_le_of_lt (Nat.mul_le_mul p.source_fst_le p.source_snd_le)
    (by decide)
  ahb_pos := by cases h : p.buses.ahb <;> simp [chain, h, AhbDivider.divisor]
  apb1_pos := by cases h : p.buses.apb1 <;> simp [chain, h, ApbDivider.divisor]
  apb2_pos := by cases h : p.buses.apb2 <;> simp [chain, h, ApbDivider.divisor]
  adc_pos := by cases h : p.peripherals.adc <;> simp [chain, h, AdcDivider.divisor]

/-- Computing the rates of a plan in 32-bit arithmetic never faults. -/
@[simp]
theorem evaluate_eq_ok (p : Plan) : p.chain.evaluate = .ok p.rates :=
  p.chain_sound.evaluate_eq_ok

/-! ### From the oscillators on -/

/-- The system clock, computed in 32-bit arithmetic. -/
def computeSysclk (p : Plan) : Except Fault Nat :=
  match p.buses.sysclk with
  | .hsi => .ok hsiHz
  | .hse => .ok hseHz
  | .pll =>
      match p.oscillators.pll with
      | some pll => do
          let input ← pll.source.compute p.oscillators.hseDivider
          Checked.mul input pll.multiplier.toNat
      | none => .ok 0

/-- The rates of a plan, computed in 32-bit arithmetic from the oscillators on. -/
def compute (p : Plan) : Except Fault Rates := do
  let sysclk ← p.computeSysclk
  let hclk ← Checked.div sysclk p.buses.ahb.divisor
  let pclk1 ← Checked.div hclk p.buses.apb1.divisor
  let pclk2 ← Checked.div hclk p.buses.apb2.divisor
  let rtc ← p.peripherals.rtc.compute
  let adc ← Checked.div pclk2 p.peripherals.adc.divisor
  return { sysclk, hclk, pclk1, pclk2, adc, rtc }

theorem computeSysclk_eq (p : Plan) :
    p.computeSysclk = Checked.mul p.chain.input p.chain.multiplier := by
  change p.computeSysclk = Checked.mul p.source.1 p.source.2
  unfold computeSysclk source
  cases p.buses.sysclk with
  | hsi => exact (Checked.mul_one (a := hsiHz) (by decide)).symm
  | hse => exact (Checked.mul_one (a := hseHz) (by decide)).symm
  | pll =>
      cases p.oscillators.pll with
      | none => rfl
      | some pll =>
          simp only [PllSource.compute_eq_ok]
          rfl

/-- Computing from the oscillators on or from the chain is the same, faults
included. -/
theorem compute_eq_evaluate (p : Plan) : p.compute = p.chain.evaluate := by
  unfold compute Chain.evaluate
  rw [computeSysclk_eq, RtcSource.compute_eq_ok]
  rfl

/-- No operation on the way from the oscillators to the rates faults. -/
theorem compute_eq_ok (p : Plan) : p.compute = .ok p.rates :=
  p.compute_eq_evaluate.trans p.evaluate_eq_ok

end Plan

end BringUp.Clock
