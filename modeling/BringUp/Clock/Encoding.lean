import BringUp.Clock.Bits
import BringUp.Clock.Rates

/-!
Clock settings as register codes, and register words as clock rates.

* `SysclkSource.code`, `AhbDivider.code`, `ApbDivider.code`,
  `AdcDivider.code`, `RtcSource.code`, `PllSetting.code`: the codes.
* `Chain.ofRegisters`: the clock chain that a pair of register words sets up.
* `Rates.ofRegisters`: its rates.

Main statements: a divider is read back from its code (`ahbDivisor_code`,
`apbDivisor_code`), and the chain of any two words is sound
(`Chain.ofRegisters_sound`).
-/

namespace BringUp.Clock

/-! ## Codes -/

def SysclkSource.code : SysclkSource → Word
  | .hsi => 0
  | .hse => 1
  | .pll => 2

def AhbDivider.code : AhbDivider → Word
  | .div1 => 0
  | .div2 => 8
  | .div4 => 9
  | .div8 => 10
  | .div16 => 11
  | .div64 => 12
  | .div128 => 13
  | .div256 => 14
  | .div512 => 15

def ApbDivider.code : ApbDivider → Word
  | .div1 => 0
  | .div2 => 4
  | .div4 => 5
  | .div8 => 6
  | .div16 => 7

def AdcDivider.code : AdcDivider → Word
  | .div2 => 0
  | .div4 => 1
  | .div6 => 2
  | .div8 => 3

def RtcSource.code : RtcSource → Word
  | .none => 0
  | .lse => 1
  | .lsi => 2
  | .hseDiv128 => 3

namespace PllSetting

/-- The bits that select the PLL's input. The divider in front of the PLL
only matters for the external oscillator. -/
def sourceBits (pll : PllSetting) (divider : HseDivider) : Word :=
  match pll.source, divider with
  | .hsiDiv2, _ => 0
  | .hse, .div1 => Cfgr.pllSource
  | .hse, .div2 => Cfgr.pllSource ||| Cfgr.pllHalved

/-- Input and multiplier of the PLL as bits of the configuration register,
for a multiplier of at least 2. -/
def code (pll : PllSetting) (divider : HseDivider) : Word :=
  Cfgr.pllMultiplier.put (BitVec.ofNat 32 (pll.multiplier.toNat - 2))
    (pll.sourceBits divider)

/-- The same for any multiplier: below 2 there is no code. -/
def encode (pll : PllSetting) (divider : HseDivider) : Except Fault Word := do
  let _ ← Checked.sub pll.multiplier.toNat 2
  return pll.code divider

end PllSetting

/-! ## Decoding -/

/-- The divider that a code of the core clock's divider field stands for. -/
def ahbDivisor (code : Word) : Nat :=
  match code.toNat with
  | 8 => 2
  | 9 => 4
  | 10 => 8
  | 11 => 16
  | 12 => 64
  | 13 => 128
  | 14 => 256
  | 15 => 512
  | _ => 1

/-- The divider that a code of a peripheral bus divider field stands for. -/
def apbDivisor (code : Word) : Nat :=
  match code.toNat with
  | 4 => 2
  | 5 => 4
  | 6 => 8
  | 7 => 16
  | _ => 1

/-- The system clock source that a code names; the unused code means the
internal oscillator. -/
def SysclkSource.ofCode (code : Word) : SysclkSource :=
  match code.toNat with
  | 1 => .hse
  | 2 => .pll
  | _ => .hsi

theorem ahbDivisor_code (d : AhbDivider) : ahbDivisor d.code = d.divisor := by
  cases d <;> rfl

theorem apbDivisor_code (d : ApbDivider) : apbDivisor d.code = d.divisor := by
  cases d <;> rfl

theorem SysclkSource.ofCode_code (s : SysclkSource) : ofCode s.code = s := by
  cases s <;> rfl

namespace Cfgr

/-- The PLL's input clock. -/
def pllInputHz (cfgr : Word) : Nat :=
  if !cfgr.has pllSource then hsiHz / 2
  else if cfgr.has pllHalved then hseHz / 2
  else hseHz

/-- The PLL's multiplier. The largest code is a second name of 16. -/
def pllFactor (cfgr : Word) : Nat :=
  min ((pllMultiplier.get cfgr).toNat + 2) 16

/-- The oscillator that the system clock runs from, and the factor between
the two. -/
def source (cfgr : Word) : Nat × Nat :=
  match SysclkSource.ofCode (sws.get cfgr) with
  | .hsi => (hsiHz, 1)
  | .hse => (hseHz, 1)
  | .pll => (pllInputHz cfgr, pllFactor cfgr)

end Cfgr

namespace Bdcr

/-- The rate of the real-time clock. -/
def rtcHz (bdcr : Word) : Nat :=
  match (rtcSource.get bdcr).toNat with
  | 1 => lseHz
  | 2 => lsiHz
  | 3 => hseHz / 128
  | _ => 0

end Bdcr

namespace Chain

/-- The clock chain that a pair of register words sets up. -/
def ofRegisters (cfgr bdcr : Word) : Chain where
  input := (Cfgr.source cfgr).1
  multiplier := (Cfgr.source cfgr).2
  ahb := ahbDivisor (Cfgr.hpre.get cfgr)
  apb1 := apbDivisor (Cfgr.ppre1.get cfgr)
  apb2 := apbDivisor (Cfgr.ppre2.get cfgr)
  adc := 2 * ((Cfgr.adcpre.get cfgr).toNat + 1)
  rtc := Bdcr.rtcHz bdcr

end Chain

theorem ahbDivisor_pos (code : Word) : 0 < ahbDivisor code := by
  unfold ahbDivisor
  split <;> decide

theorem apbDivisor_pos (code : Word) : 0 < apbDivisor code := by
  unfold apbDivisor
  split <;> decide

theorem Cfgr.pllInputHz_le (cfgr : Word) : pllInputHz cfgr ≤ hseHz := by
  unfold pllInputHz
  split
  · decide
  · split <;> decide

theorem Cfgr.source_fst_le (cfgr : Word) : (source cfgr).1 ≤ hseHz := by
  unfold source
  split
  · decide
  · decide
  · exact pllInputHz_le cfgr

theorem Cfgr.source_snd_le (cfgr : Word) : (source cfgr).2 ≤ 16 := by
  unfold source
  split
  · decide
  · decide
  · exact Nat.min_le_right _ _

/-- Whatever the registers hold, the chain can be computed in 32 bits. -/
theorem Chain.ofRegisters_sound (cfgr bdcr : Word) : (ofRegisters cfgr bdcr).Sound where
  fits := Nat.lt_of_le_of_lt
    (Nat.mul_le_mul (Cfgr.source_fst_le cfgr) (Cfgr.source_snd_le cfgr)) (by decide)
  ahb_pos := ahbDivisor_pos _
  apb1_pos := apbDivisor_pos _
  apb2_pos := apbDivisor_pos _
  adc_pos := by simp [ofRegisters]

namespace Rates

/-- The rates at which a part with these register words runs. -/
def ofRegisters (cfgr bdcr : Word) : Rates :=
  (Chain.ofRegisters cfgr bdcr).rates

/-- Computing them in 32-bit arithmetic never faults. -/
@[simp]
theorem evaluate_ofRegisters (cfgr bdcr : Word) :
    (Chain.ofRegisters cfgr bdcr).evaluate = .ok (ofRegisters cfgr bdcr) :=
  (Chain.ofRegisters_sound cfgr bdcr).evaluate_eq_ok

end Rates

end BringUp.Clock
