import BringUp.Clock.Encoding
import BringUp.Hardware.Console
import BringUp.Tick
import BringUp.Usart

/-!
What is derived from the live rates, whatever the clock registers hold.

* `Rates.Live`: bounds that the rates of any two register words keep. The slowest
  core clock is that of an internal oscillator behind the largest divider, the
  fastest is sixteen times the crystal.
* `Ticks.reload_bounds`: the reload value of the tick timer for a core clock of
  two ticks or more, and what it makes of the tick's period.
* `Console.divisor_eq`: the baud rate divisor, when its sum fits.

Main statement: on every pair of register words all of it can be computed and
fits where it goes (`derived_in_range`). A baud rate divisor of zero fits too:
the bus clock of a USART may be slower than half the console's baud rate
(`Console.quotient_pos_iff`), and then that is the nearest divisor.
-/

namespace BringUp

open Clock Hardware

/-! ## Decoding -/

namespace Clock

theorem ahbDivisor_le (code : Word) : ahbDivisor code ≤ 512 := by
  unfold ahbDivisor
  split <;> decide

namespace Cfgr

theorem le_pllInputHz (cfgr : Word) : hsiHz / 2 ≤ pllInputHz cfgr := by
  unfold pllInputHz
  split
  · exact Nat.le_refl _
  · split <;> decide

/-- No source of the system clock is slower than an oscillator. -/
theorem le_source (cfgr : Word) : hsiHz ≤ (source cfgr).1 * (source cfgr).2 := by
  unfold source
  split
  · decide
  · decide
  · have hfactor : 2 ≤ pllFactor cfgr := Nat.le_min.mpr ⟨Nat.le_add_left _ _, by decide⟩
    exact Nat.mul_le_mul (le_pllInputHz cfgr) hfactor

end Cfgr

/-- Bounds on the rates of a part. -/
structure Rates.Live (r : Rates) : Prop where
  hclk_ge : hsiHz / 512 ≤ r.hclk
  hclk_le : r.hclk ≤ hseHz * 16
  pclk1_le : r.pclk1 ≤ r.hclk
  pclk2_le : r.pclk2 ≤ r.hclk

/-- Whatever the registers hold, the rates keep to the bounds. -/
theorem Rates.ofRegisters_live (cfgr bdcr : Word) : (ofRegisters cfgr bdcr).Live where
  hclk_ge := Nat.div_le_div (Cfgr.le_source cfgr) (ahbDivisor_le _)
    (Nat.ne_of_gt (ahbDivisor_pos _))
  hclk_le := Nat.le_trans (Nat.div_le_self _ _)
    (Nat.mul_le_mul (Cfgr.source_fst_le cfgr) (Cfgr.source_snd_le cfgr))
  pclk1_le := Nat.div_le_self _ _
  pclk2_le := Nat.div_le_self _ _

end Clock

/-! ## The tick -/

/-- The tick timer counts down to zero, so a reload value of one less than the
period is the nearest tick that is not too slow. -/
theorem Ticks.reload_bounds {hclk : Nat} (h : 2 * rateHz ≤ hclk) :
    ∃ reload, Ticks.reload hclk = .ok reload ∧ 0 < reload ∧ reload < hclk / rateHz ∧
      (reload + 1) * rateHz ≤ hclk ∧ hclk < (reload + 2) * rateHz := by
  have hperiod : 2 ≤ hclk / rateHz := (Nat.le_div_iff_mul_le (by decide)).mpr h
  have hreload : Ticks.reload hclk = .ok (hclk / rateHz - 1) := by
    unfold reload
    rw [Checked.div_of_pos (by decide : 0 < rateHz)]
    exact Checked.sub_of_le (Nat.le_of_succ_le hperiod)
  have hfloor : hclk / rateHz * rateHz ≤ hclk := Nat.div_mul_le_self _ _
  have hceiling : hclk < (hclk / rateHz + 1) * rateHz :=
    Nat.lt_mul_of_div_lt (Nat.lt_succ_self _) (by decide)
  obtain ⟨n, hn⟩ : ∃ n, hclk / rateHz = n + 2 := ⟨_, (Nat.sub_add_cancel hperiod).symm⟩
  rw [hn] at hreload hfloor hceiling ⊢
  exact ⟨n + 1, hreload, Nat.succ_pos n, Nat.lt_succ_self _, hfloor, hceiling⟩

/-! ## The console -/

namespace Hardware.Console

/-- The nearest divisor, as a number. -/
def quotient (clock rate : Nat) : Nat :=
  (clock + rate / 2) / rate

/-- The divisor can be computed as long as its sum fits. -/
theorem divisor_eq {clock rate : Nat} (hrate : 0 < rate)
    (hsum : clock + rate / 2 < Checked.limit) :
    divisor clock rate = .ok (quotient clock rate) := by
  unfold divisor
  rw [Checked.div_of_pos (by decide : 0 < 2)]
  show (Checked.add clock (rate / 2) >>= fun sum => Checked.div sum rate) = _
  rw [Checked.add_of_lt hsum]
  exact Checked.div_of_pos hrate

/-- A clock of less than half the console's baud rate is nearest to none. -/
theorem quotient_pos_iff (clock : Nat) : 0 < quotient clock baud ↔ baud / 2 ≤ clock := by
  rw [quotient, Nat.div_pos_iff]
  simp only [baud]
  omega

/-- At the rates of a part the divisor can be computed, and fits the sixteen bits
of its register. -/
theorem divisor_of_live {rates : Rates} (h : rates.Live) (u : Usart) :
    divisor (u.busClockHz rates) baud = .ok (quotient (u.busClockHz rates) baud) ∧
      quotient (u.busClockHz rates) baud < 0x10000 := by
  have hbus : u.busClockHz rates ≤ hseHz * 16 := by
    cases u
    · exact Nat.le_trans h.pclk2_le h.hclk_le
    · exact Nat.le_trans h.pclk1_le h.hclk_le
  refine ⟨divisor_eq (by decide) ?_, ?_⟩
  · exact Nat.lt_of_le_of_lt (Nat.add_le_add_right hbus _) (by decide)
  · exact Nat.lt_of_le_of_lt (Nat.div_le_div_right (Nat.add_le_add_right hbus _)) (by decide)

end Hardware.Console

/-! ## All of it -/

/-- Whatever the two clock registers hold, the rates are decoded without an
overflow and without a division by zero; the tick timer gets a reload value that
fits its 24 bits and gives the tick its period; and either USART gets a divisor
that fits. -/
theorem derived_in_range (cfgr bdcr : Word) :
    let rates := Rates.ofRegisters cfgr bdcr
    (Chain.ofRegisters cfgr bdcr).evaluate = .ok rates ∧
    Checked.add (Cfgr.pllMultiplier.get cfgr).toNat 2 =
      .ok ((Cfgr.pllMultiplier.get cfgr).toNat + 2) ∧
    (Checked.add (Cfgr.adcpre.get cfgr).toNat 1 >>= Checked.mul 2) =
      .ok (Chain.ofRegisters cfgr bdcr).adc ∧
    (∃ reload, Ticks.reload rates.hclk = .ok reload ∧ 0 < reload ∧ reload < 0x1000000 ∧
      (reload + 1) * Ticks.rateHz ≤ rates.hclk ∧ rates.hclk < (reload + 2) * Ticks.rateHz) ∧
    ∀ u : Usart, ∃ divisor, Console.divisor (u.busClockHz rates) Console.baud = .ok divisor ∧
      divisor < 0x10000 := by
  intro rates
  have hlive : rates.Live := Rates.ofRegisters_live cfgr bdcr
  have hpll : (Cfgr.pllMultiplier.get cfgr).toNat ≤ 15 := Cfgr.pllMultiplier.toNat_get_le cfgr
  have hadc : (Cfgr.adcpre.get cfgr).toNat ≤ 3 := Cfgr.adcpre.toNat_get_le cfgr
  refine ⟨Rates.evaluate_ofRegisters cfgr bdcr, ?_, ?_, ?_, fun u => ?_⟩
  · exact Checked.add_of_lt (Nat.lt_of_le_of_lt (Nat.add_le_add_right hpll 2) (by decide))
  · have hsum := Nat.add_le_add_right hadc 1
    rw [Checked.add_of_lt (Nat.lt_of_le_of_lt hsum (by decide))]
    exact Checked.mul_of_lt (Nat.lt_of_le_of_lt (Nat.mul_le_mul_left 2 hsum) (by decide))
  · obtain ⟨reload, hreload, hpos, hlt, hlow, hhigh⟩ :=
      Ticks.reload_bounds (Nat.le_trans (by decide) hlive.hclk_ge)
    have hperiod : rates.hclk / Ticks.rateHz < 0x1000000 :=
      Nat.lt_of_le_of_lt (Nat.div_le_div_right hlive.hclk_le) (by decide)
    exact ⟨reload, hreload, hpos, Nat.lt_trans hlt hperiod, hlow, hhigh⟩
  · exact ⟨_, Console.divisor_of_live hlive u⟩

end BringUp
