import Mathlib.Data.Rat.Cast.Order
import Mathlib.Algebra.Order.Field.Basic
import Mathlib.Tactic.NormNum
import Mathlib.Tactic.Ring
import BringUp.Proofs.OperatingPoint

/-!
The check of a plan against exact frequencies.

The rates of a plan are rounded down at each divider, up to three times in a
row, and the check compares the rounded rates. Here the frequencies are
rationals that nothing is rounded off.

* `PllSource.frequency`, `Plan.sysclkFrequency`, `Plan.hclkFrequency`,
  `Plan.pclk1Frequency`, `Plan.pclk2Frequency`, `Plan.adcFrequency`: the exact
  frequencies of a plan.
* `OscillatorPlan.Runs`, `WaitStates.Serve`: what it is for an oscillator to
  run and for wait states to serve a core clock.
* `Plan.Admissible`: the plan keeps to the part's limits.

Main statements: rounding does not matter, because the sources and the limits
are multiples of a unit that no chain of dividers exceeds (`div_le_iff_frequency`);
the check accepts exactly the admissible plans and answers their rates, which
32-bit arithmetic computes without a fault (`Plan.check_eq_ok_iff`).
-/

namespace BringUp.Clock

/-! ## Rounding -/

/-- The unit that all sources of the system clock and all limits are multiples
of, in Hz. -/
def unitHz : Nat := 2000000

/-- A rate in whole units, rounded down after a division, is above a limit in
whole units only if the exact frequency is. -/
theorem div_le_iff_frequency {rate limit d : Nat} (hrate : unitHz ∣ rate)
    (hlimit : unitHz ∣ limit) (hpos : 0 < d) (hd : d ≤ unitHz) :
    rate / d ≤ limit ↔ (rate : ℚ) / d ≤ limit := by
  have hposQ : (0 : ℚ) < d := by exact_mod_cast hpos
  rw [div_le_iff₀ hposQ]
  norm_cast
  constructor
  · intro h
    obtain ⟨r, rfl⟩ := hrate
    obtain ⟨l, rfl⟩ := hlimit
    have hlt : unitHz * r < (unitHz * l + 1) * d :=
      (Nat.div_lt_iff_lt_mul hpos).mp (Nat.lt_succ_of_le h)
    have hunits : unitHz * r < unitHz * (l * d + 1) := by
      calc unitHz * r
          < (unitHz * l + 1) * d := hlt
        _ = unitHz * (l * d) + d := by ring
        _ ≤ unitHz * (l * d) + unitHz := Nat.add_le_add_left hd _
        _ = unitHz * (l * d + 1) := by ring
    have hle : r ≤ l * d := Nat.lt_succ_iff.mp (Nat.lt_of_mul_lt_mul_left hunits)
    calc unitHz * r
        ≤ unitHz * (l * d) := Nat.mul_le_mul_left _ hle
      _ = unitHz * l * d := by ring
  · intro h
    exact Nat.div_le_of_le_mul (by rwa [Nat.mul_comm])

theorem AhbDivider.divisor_mem (d : AhbDivider) : 0 < d.divisor ∧ d.divisor ≤ 512 := by
  cases d <;> decide

theorem ApbDivider.divisor_mem (d : ApbDivider) : 0 < d.divisor ∧ d.divisor ≤ 16 := by
  cases d <;> decide

theorem AdcDivider.divisor_mem (d : AdcDivider) : 0 < d.divisor ∧ d.divisor ≤ 8 := by
  cases d <;> decide

/-! ## Exact frequencies -/

/-- The frequency at the input of the PLL. -/
def PllSource.frequency (source : PllSource) (divider : HseDivider) : ℚ :=
  match source with
  | .hsiDiv2 => hsiHz / 2
  | .hse => hseHz / divider.divisor

/-- The input of the PLL is not rounded. -/
theorem PllSource.cast_hz (source : PllSource) (divider : HseDivider) :
    (source.hz divider : ℚ) = source.frequency divider := by
  cases source <;> cases divider <;>
    norm_num [hz, frequency, hsiHz, hseHz, HseDivider.divisor]

theorem PllSource.unit_dvd_hz (source : PllSource) (divider : HseDivider) :
    unitHz ∣ source.hz divider := by
  cases source <;> cases divider <;> decide

namespace Plan

/-- The frequency of the system clock. -/
def sysclkFrequency (p : Plan) : ℚ :=
  match p.buses.sysclk with
  | .hsi => hsiHz
  | .hse => hseHz
  | .pll =>
      match p.oscillators.pll with
      | some pll => pll.source.frequency p.oscillators.hseDivider * pll.multiplier.toNat
      | none => 0

/-- The frequency of the core clock. -/
def hclkFrequency (p : Plan) : ℚ :=
  p.sysclkFrequency / p.buses.ahb.divisor

/-- The frequency of the first peripheral bus. -/
def pclk1Frequency (p : Plan) : ℚ :=
  p.hclkFrequency / p.buses.apb1.divisor

/-- The frequency of the second peripheral bus. -/
def pclk2Frequency (p : Plan) : ℚ :=
  p.hclkFrequency / p.buses.apb2.divisor

/-- The frequency of the converter. -/
def adcFrequency (p : Plan) : ℚ :=
  p.pclk2Frequency / p.peripherals.adc.divisor

/-- The system clock is not rounded. -/
theorem cast_sysclk (p : Plan) : (p.rates.sysclk : ℚ) = p.sysclkFrequency := by
  change ((p.source.1 * p.source.2 : Nat) : ℚ) = _
  unfold source sysclkFrequency
  cases p.buses.sysclk with
  | hsi => exact congrArg Nat.cast (Nat.mul_one hsiHz)
  | hse => exact congrArg Nat.cast (Nat.mul_one hseHz)
  | pll =>
      cases p.oscillators.pll with
      | none => exact (congrArg Nat.cast (Nat.zero_mul 1)).trans Nat.cast_zero
      | some pll => exact (Nat.cast_mul _ _).trans (by rw [PllSource.cast_hz])

/-- The system clock is a multiple of the unit. -/
theorem unit_dvd_sysclk (p : Plan) : unitHz ∣ p.rates.sysclk := by
  change unitHz ∣ p.source.1 * p.source.2
  unfold source
  split
  · decide
  · decide
  · split
    · exact Dvd.dvd.mul_right (PllSource.unit_dvd_hz _ _) _
    · exact Nat.dvd_mul_right_of_dvd (Nat.dvd_zero _) _

theorem sysclk_le_iff (p : Plan) (limit : Nat) :
    p.rates.sysclk ≤ limit ↔ p.sysclkFrequency ≤ limit := by
  rw [← cast_sysclk, Nat.cast_le]

theorem hclk_le_iff (p : Plan) {limit : Nat} (hlimit : unitHz ∣ limit) :
    p.rates.hclk ≤ limit ↔ p.hclkFrequency ≤ limit := by
  obtain ⟨hpos, hle⟩ := p.buses.ahb.divisor_mem
  unfold hclkFrequency
  rw [← cast_sysclk]
  exact div_le_iff_frequency p.unit_dvd_sysclk hlimit hpos (Nat.le_trans hle (by decide))

/-- A peripheral bus: two dividers in a row are one. -/
theorem bus_le_iff (p : Plan) (d : ApbDivider) {limit : Nat} (hlimit : unitHz ∣ limit) :
    p.rates.hclk / d.divisor ≤ limit ↔ p.hclkFrequency / d.divisor ≤ limit := by
  obtain ⟨hahb, hahb'⟩ := p.buses.ahb.divisor_mem
  obtain ⟨hapb, hapb'⟩ := d.divisor_mem
  change p.rates.sysclk / p.buses.ahb.divisor / _ ≤ limit ↔ _
  rw [Nat.div_div_eq_div_mul, hclkFrequency, div_div, ← cast_sysclk, ← Nat.cast_mul]
  exact div_le_iff_frequency p.unit_dvd_sysclk hlimit (Nat.mul_pos hahb hapb)
    (Nat.le_trans (Nat.mul_le_mul hahb' hapb') (by decide))

/-- The converter: three dividers in a row are one. -/
theorem adc_le_iff (p : Plan) {limit : Nat} (hlimit : unitHz ∣ limit) :
    p.rates.adc ≤ limit ↔ p.adcFrequency ≤ limit := by
  obtain ⟨hahb, hahb'⟩ := p.buses.ahb.divisor_mem
  obtain ⟨hapb, hapb'⟩ := p.buses.apb2.divisor_mem
  obtain ⟨hadc, hadc'⟩ := p.peripherals.adc.divisor_mem
  change p.rates.sysclk / p.buses.ahb.divisor / p.buses.apb2.divisor /
    p.peripherals.adc.divisor ≤ limit ↔ _
  rw [Nat.div_div_eq_div_mul, Nat.div_div_eq_div_mul, adcFrequency, pclk2Frequency,
    hclkFrequency, div_div, div_div, ← cast_sysclk, ← Nat.cast_mul, ← Nat.cast_mul]
  exact div_le_iff_frequency p.unit_dvd_sysclk hlimit
    (Nat.mul_pos hahb (Nat.mul_pos hapb hadc))
    (Nat.le_trans (Nat.mul_le_mul hahb' (Nat.mul_le_mul hapb' hadc')) (by decide))

end Plan

/-! ## What the check demands -/

/-- The oscillator that feeds the PLL. -/
def PllSource.oscillator : PllSource → Oscillator
  | .hsiDiv2 => .hsi
  | .hse => .hse

/-- The oscillator that feeds the real-time clock, if it has a source. -/
def RtcSource.oscillator : RtcSource → Option Oscillator
  | .none => .none
  | .lse => some .lse
  | .lsi => some .lsi
  | .hseDiv128 => some .hse

theorem OscillatorMode.running_iff (m : OscillatorMode) : m.running = true ↔ m ≠ .off := by
  cases m <;> decide

namespace OscillatorPlan

variable (p : OscillatorPlan)

/-- The oscillator runs under the plan: the internal one unless the plan names
it and switches it off, the others if the plan names them and does not. -/
def Runs : Oscillator → Prop
  | .hsi => p.named.names .hsi = false ∨ p.hsi ≠ .off
  | o => p.named.names o = true ∧ p.mode o ≠ .off

/-- The plan runs this source of the system clock. -/
def Supplies : SysclkSource → Prop
  | .hsi => p.Runs .hsi
  | .hse => p.Runs .hse
  | .pll => ∃ s, p.pll = some s

theorem runs_iff (o : Oscillator) : p.runs o = true ↔ p.Runs o := by
  cases o <;> simp only [runs, Runs, Bool.or_eq_true, Bool.and_eq_true,
    Bool.not_eq_true', OscillatorMode.running_iff, mode]

theorem pllInputRuns_iff (source : PllSource) :
    p.pllInputRuns source = true ↔ p.Runs source.oscillator := by
  cases source with
  | hsiDiv2 => exact p.runs_iff .hsi
  | hse => exact p.runs_iff .hse

theorem sysclkSourceRuns_iff (source : SysclkSource) :
    p.sysclkSourceRuns source = true ↔ p.Supplies source := by
  cases source with
  | hsi => exact p.runs_iff .hsi
  | hse => exact p.runs_iff .hse
  | pll => exact Option.isSome_iff_exists

theorem rtcSourceRuns_iff (source : RtcSource) :
    p.rtcSourceRuns source = true ↔ ∀ o ∈ source.oscillator, p.Runs o := by
  cases source with
  | none => exact iff_of_true rfl nofun
  | lse => exact (p.runs_iff .lse).trans (by simp [RtcSource.oscillator])
  | lsi => exact (p.runs_iff .lsi).trans (by simp [RtcSource.oscillator])
  | hseDiv128 => exact (p.runs_iff .hse).trans (by simp [RtcSource.oscillator])

end OscillatorPlan

namespace WaitStates

/-- The wait states serve a core clock of this frequency. -/
def Serve (ws : WaitStates) (hclk : ℚ) : Prop :=
  match ws with
  | .ws0 => hclk ≤ 24000000
  | .ws1 => hclk ≤ 48000000
  | .ws2 => True

theorem needed_le_ws0_iff (hclk : Nat) :
    (needed hclk).count ≤ ws0.count ↔ hclk ≤ 24000000 := by
  unfold needed
  split
  · next h => exact iff_of_true (Nat.le_refl _) h
  · next h => split <;> exact iff_of_false (by decide) h

theorem needed_le_ws1_iff (hclk : Nat) :
    (needed hclk).count ≤ ws1.count ↔ hclk ≤ 48000000 := by
  unfold needed
  split
  · exact iff_of_true (by decide) (by omega)
  · split
    · next h => exact iff_of_true (Nat.le_refl _) h
    · next h => exact iff_of_false (by decide) h

theorem needed_le_ws2 (hclk : Nat) : (needed hclk).count ≤ ws2.count := by
  cases needed hclk <;> decide

end WaitStates

/-- As many wait states as the core clock needs are those that serve it. -/
theorem Plan.needed_le_iff (p : Plan) :
    (WaitStates.needed p.rates.hclk).count ≤ p.buses.waitStates.count ↔
      p.buses.waitStates.Serve p.hclkFrequency := by
  cases p.buses.waitStates with
  | ws0 =>
      rw [WaitStates.needed_le_ws0_iff, p.hclk_le_iff (by decide)]
      exact Iff.rfl
  | ws1 =>
      rw [WaitStates.needed_le_ws1_iff, p.hclk_le_iff (by decide)]
      exact Iff.rfl
  | ws2 => exact iff_of_true (WaitStates.needed_le_ws2 _) trivial

/-- The plan keeps to the part's limits, with all frequencies exact. -/
structure Plan.Admissible (p : Plan) : Prop where
  multiplier : ∀ s, p.oscillators.pll = some s →
    2 ≤ s.multiplier.toNat ∧ s.multiplier.toNat ≤ 16
  pllInput : ∀ s, p.oscillators.pll = some s → p.oscillators.Runs s.source.oscillator
  source : p.oscillators.Supplies p.buses.sysclk
  sysclk : p.sysclkFrequency ≤ 72000000
  pclk1 : p.pclk1Frequency ≤ 36000000
  pclk2 : p.pclk2Frequency ≤ 72000000
  flash : p.buses.waitStates.Serve p.hclkFrequency
  adc : p.peripherals.named.names .adc = true → p.adcFrequency ≤ 14000000
  rtc : p.peripherals.named.names .rtc = true →
    ∀ o ∈ p.peripherals.rtc.oscillator, p.oscillators.Runs o

/-! ## The steps of the check -/

/-- A guard passes if its condition fails and the rest passes. -/
private theorem guard_eq_ok_iff {ε α : Type} {c : Prop} [Decidable c] {e : ε}
    {x : Except ε α} {a : α} :
    (if c then .error e else x) = .ok a ↔ ¬c ∧ x = .ok a := by
  split
  · next h => exact iff_of_false nofun fun h' => h'.1 h
  · next h => exact (and_iff_right h).symm

/-- A step of a check passes if it does and the rest does. -/
private theorem step_eq_ok_iff {ε α : Type} {x : Except ε Unit} {y : Except ε α} {a : α} :
    (x >>= fun _ => y) = .ok a ↔ x = .ok () ∧ y = .ok a := by
  cases x with
  | error e => exact iff_of_false nofun fun h => nomatch h.1
  | ok u => exact (and_iff_right rfl).symm

namespace Plan

variable (p : Plan)

theorem checkPll_eq_ok_iff :
    p.checkPll = .ok () ↔ ∀ s, p.oscillators.pll = some s →
      (2 ≤ s.multiplier.toNat ∧ s.multiplier.toNat ≤ 16) ∧
        p.oscillators.Runs s.source.oscillator := by
  unfold checkPll
  cases p.oscillators.pll with
  | none => exact iff_of_true rfl nofun
  | some s =>
      simp only [guard_eq_ok_iff, Bool.not_eq_true', Bool.not_eq_false, and_true,
        Option.some.injEq, forall_eq']
      rw [s.inRange_iff, OscillatorPlan.pllInputRuns_iff]

theorem checkSysclkSource_eq_ok_iff :
    p.checkSysclkSource = .ok () ↔ p.oscillators.Supplies p.buses.sysclk := by
  unfold checkSysclkSource
  rw [← OscillatorPlan.sysclkSourceRuns_iff]
  cases p.oscillators.sysclkSourceRuns p.buses.sysclk with
  | false => exact iff_of_false nofun nofun
  | true => exact iff_of_true rfl rfl

theorem checkRates_eq_ok_iff :
    p.checkRates = .ok () ↔ p.sysclkFrequency ≤ 72000000 ∧ p.pclk1Frequency ≤ 36000000 ∧
      p.pclk2Frequency ≤ 72000000 ∧ p.buses.waitStates.Serve p.hclkFrequency := by
  have hsysclk : p.rates.sysclk ≤ sysclkMaxHz ↔ p.sysclkFrequency ≤ 72000000 :=
    p.sysclk_le_iff sysclkMaxHz
  have hpclk1 : p.rates.pclk1 ≤ pclk1MaxHz ↔ p.pclk1Frequency ≤ 36000000 :=
    p.bus_le_iff p.buses.apb1 (by decide)
  have hpclk2 : p.rates.pclk2 ≤ pclk2MaxHz ↔ p.pclk2Frequency ≤ 72000000 :=
    p.bus_le_iff p.buses.apb2 (by decide)
  unfold checkRates
  simp only [guard_eq_ok_iff, not_lt, and_true]
  rw [hsysclk, hpclk1, hpclk2, p.needed_le_iff]

theorem checkPeripherals_eq_ok_iff :
    p.checkPeripherals = .ok () ↔
      (p.peripherals.named.names .adc = true → p.adcFrequency ≤ 14000000) ∧
      (p.peripherals.named.names .rtc = true →
        ∀ o ∈ p.peripherals.rtc.oscillator, p.oscillators.Runs o) := by
  have hadc : p.rates.adc ≤ adcMaxHz ↔ p.adcFrequency ≤ 14000000 :=
    p.adc_le_iff (by decide)
  unfold checkPeripherals
  simp only [guard_eq_ok_iff, Bool.and_eq_true, decide_eq_true_eq, Bool.not_eq_true',
    not_and, not_lt, Bool.not_eq_false, and_true, hadc, OscillatorPlan.rtcSourceRuns_iff]

/-- The check accepts exactly the plans that keep to the limits in exact
frequencies, and answers their rates, which 32-bit arithmetic computes. -/
theorem check_eq_ok_iff :
    p.compute = .ok p.rates ∧ ∀ r, p.check = .ok r ↔ r = p.rates ∧ p.Admissible := by
  refine ⟨p.compute_eq_ok, fun r => ?_⟩
  unfold check
  rw [step_eq_ok_iff, step_eq_ok_iff, step_eq_ok_iff, step_eq_ok_iff, checkPll_eq_ok_iff,
    checkSysclkSource_eq_ok_iff, checkRates_eq_ok_iff, checkPeripherals_eq_ok_iff]
  constructor
  · rintro ⟨hpll, hsource, ⟨hsysclk, hpclk1, hpclk2, hflash⟩, ⟨hadc, hrtc⟩, hr⟩
    exact ⟨(Except.ok.inj hr).symm, {
      multiplier := fun s hs => (hpll s hs).1
      pllInput := fun s hs => (hpll s hs).2
      source := hsource
      sysclk := hsysclk
      pclk1 := hpclk1
      pclk2 := hpclk2
      flash := hflash
      adc := hadc
      rtc := hrtc }⟩
  · rintro ⟨rfl, h⟩
    exact ⟨fun s hs => ⟨h.multiplier s hs, h.pllInput s hs⟩, h.source,
      ⟨h.sysclk, h.pclk1, h.pclk2, h.flash⟩, ⟨h.adc, h.rtc⟩, rfl⟩

end Plan

end BringUp.Clock
