import BringUp.Hardware.ClockReset
import BringUp.Hardware.Flash
import BringUp.Proofs.PartAccess

/-!
The operating point: the rates that a part runs at and the wait states of its
flash, as its registers have them.

* `PeripheralBus`: the two buses whose dividers work alike.
* `Part.rates`, `Part.waitStates`: what `liveRates` and `Flash.waitStates`
  read, without the reads.
* `Rates.WithinLimits`: the bus clocks are within their limits, and the flash
  keeps up with the core. `Part.WithinLimits`, `Plan.WithinLimits`: the same
  for the rates of a part and of a plan.
* `Cfgr.sysclkHz`, `Cfgr.pllHz`: the rates of the system clock and of the PLL
  in a configuration word.

Main statements: three things set the PLL (`Cfgr.agreeOn_pll_iff`), its rate is
that of its setting (`Cfgr.pllHz_of_code`), only a PLL runs the core at its
frequency (`Plan.pll_of_coreHz`), and the check only accepts plans within the
limits (`Plan.withinLimits_of_check`).
-/

namespace BringUp

open Clock

/-! ## Codes in fields -/

/-- The value is one that the field can hold. -/
def Field.Fits (f : Field) (v : Word) : Prop :=
  ((v <<< f.shift) &&& f.mask) >>> f.shift = v

instance (f : Field) (v : Word) : Decidable (f.Fits v) :=
  inferInstanceAs (Decidable (_ = _))

/-- A field that a word took over reads back what was put there. -/
theorem Word.AgreeOn.get_put {f : Field} {mask a v w : Word}
    (h : Word.AgreeOn mask a (f.put v w)) (hsub : f.mask &&& mask = f.mask)
    (hv : f.Fits v) : f.get a = v := by
  rw [h.get hsub, Field.get_put]
  exact hv

namespace Clock

theorem SysclkSource.code_fits (s : SysclkSource) : Cfgr.sw.Fits s.code := by
  cases s <;> decide

theorem AhbDivider.code_fits (d : AhbDivider) : Cfgr.hpre.Fits d.code := by
  cases d <;> decide

/-- The peripheral buses. -/
inductive PeripheralBus where
  | first
  | second

/-- The clock by which a plan names the bus. -/
def PeripheralBus.clock : PeripheralBus → BusClock
  | first => .pclk1
  | second => .pclk2

/-- The field that holds the divider of the bus. -/
def PeripheralBus.divider : PeripheralBus → Field
  | first => Cfgr.ppre1
  | second => Cfgr.ppre2

theorem ApbDivider.code_fits (bus : PeripheralBus) (d : ApbDivider) :
    bus.divider.Fits d.code := by
  cases bus <;> cases d <;> decide

theorem AdcDivider.code_fits (d : AdcDivider) : Cfgr.adcpre.Fits d.code := by
  cases d <;> decide

theorem RtcSource.code_fits (s : RtcSource) : Bdcr.rtcSource.Fits s.code := by
  cases s <;> decide

theorem WaitStates.count_fits (ws : WaitStates) :
    Hardware.Flash.latency.Fits (BitVec.ofNat 32 ws.count) := by
  cases ws <;> decide

theorem WaitStates.decode_count (ws : WaitStates) :
    Hardware.Flash.decodeWaitStates (BitVec.ofNat 32 ws.count) = ws := by
  cases ws <;> rfl

/-- A faster core needs at least as many wait states. -/
theorem WaitStates.needed_mono {a b : Nat} (h : a ≤ b) :
    (needed a).count ≤ (needed b).count := by
  unfold needed
  split
  · exact Nat.zero_le _
  · split
    · rw [if_neg (by omega)]
      split <;> decide
    · exact Nat.le_of_eq (by rw [if_neg (by omega), if_neg (by omega)])

theorem ApbDivider.divisor_le (d : ApbDivider) : d.divisor ≤ ApbDivider.div16.divisor := by
  cases d <;> decide

theorem ApbDivider.divisor_pos (d : ApbDivider) : 0 < d.divisor := by
  cases d <;> decide

/-! ## Rates of a configuration word -/

namespace Cfgr

/-- The rate of the system clock. -/
def sysclkHz (cfgr : Word) : Nat :=
  (source cfgr).1 * (source cfgr).2

/-- The rate of the PLL, if it runs. -/
def pllHz (cfgr : Word) : Nat :=
  pllInputHz cfgr * pllFactor cfgr

/-- The source that the system clock runs from. -/
def running (cfgr : Word) : SysclkSource :=
  .ofCode (sws.get cfgr)

/-- The source that the system clock is requested to run from. -/
def requested (cfgr : Word) : SysclkSource :=
  .ofCode (sw.get cfgr)

theorem sysclkHz_of_hsi {cfgr : Word} (h : running cfgr = .hsi) : sysclkHz cfgr = hsiHz := by
  have hcode : SysclkSource.ofCode (sws.get cfgr) = .hsi := h
  simp only [sysclkHz, source, hcode, Nat.mul_one]

theorem sysclkHz_of_hse {cfgr : Word} (h : running cfgr = .hse) : sysclkHz cfgr = hseHz := by
  have hcode : SysclkSource.ofCode (sws.get cfgr) = .hse := h
  simp only [sysclkHz, source, hcode, Nat.mul_one]

theorem sysclkHz_of_pll {cfgr : Word} (h : running cfgr = .pll) :
    sysclkHz cfgr = pllHz cfgr := by
  have hcode : SysclkSource.ofCode (sws.get cfgr) = .pll := h
  simp only [sysclkHz, source, hcode, pllHz]

/-- Whatever the system clock runs from, it is no faster than the PLL may be. -/
theorem sysclkHz_le {cfgr : Word} (h : pllHz cfgr ≤ coreHz) : sysclkHz cfgr ≤ coreHz := by
  cases hs : running cfgr with
  | hsi =>
      rw [sysclkHz_of_hsi hs]
      decide
  | hse =>
      rw [sysclkHz_of_hse hs]
      decide
  | pll =>
      rw [sysclkHz_of_pll hs]
      exact h

/-- Three things set the PLL: its input, the halver and the multiplier. -/
theorem agreeOn_pll_iff {a b : Word} :
    Word.AgreeOn pll a b ↔ a.has pllSource = b.has pllSource ∧
      a.has pllHalved = b.has pllHalved ∧ pllMultiplier.get a = pllMultiplier.get b := by
  constructor
  · intro h
    exact ⟨h.has (by decide), h.has (by decide), h.get (by decide)⟩
  · rintro ⟨hsource, hhalved, hmultiplier⟩
    have hinput : Word.AgreeOn pllSource a b := .of_has (i := 16) hsource
    have hhalver : Word.AgreeOn pllHalved a b := .of_has (i := 17) hhalved
    have hfactor : Word.AgreeOn pllMultiplier.mask a b := .of_get hmultiplier (by decide)
    exact (hinput.union hhalver).union hfactor

theorem pllHz_congr {a b : Word} (h : Word.AgreeOn pll a b) : pllHz a = pllHz b := by
  obtain ⟨hsource, hhalved, hmultiplier⟩ := agreeOn_pll_iff.mp h
  simp only [pllHz, pllInputHz, pllFactor, hsource, hhalved, hmultiplier]

theorem sysclkHz_congr {a b : Word} (hs : running a = running b) (hp : pllHz a = pllHz b) :
    sysclkHz a = sysclkHz b := by
  cases h : running b with
  | hsi => rw [sysclkHz_of_hsi (hs.trans h), sysclkHz_of_hsi h]
  | hse => rw [sysclkHz_of_hse (hs.trans h), sysclkHz_of_hse h]
  | pll => rw [sysclkHz_of_pll (hs.trans h), sysclkHz_of_pll h, hp]

/-- Without a setting the PLL doubles half of the internal oscillator. -/
theorem pllHz_of_zero {cfgr : Word} (h : cfgr &&& pll = 0) : pllHz cfgr = hsiHz := by
  have hzero : Word.AgreeOn pll cfgr 0 := by
    rw [Word.AgreeOn, h]
    rfl
  rw [pllHz_congr hzero]
  decide

theorem multiplier_fits {n : Nat} (h : n ≤ 15) :
    pllMultiplier.Fits (BitVec.ofNat 32 n) := by
  have hlt : n < 16 := by omega
  have hall : ∀ k : Fin 16, pllMultiplier.Fits (BitVec.ofNat 32 k) := by decide
  exact hall ⟨n, hlt⟩

end Cfgr

/-- The multipliers that the PLL has. -/
theorem PllSetting.inRange_iff (s : PllSetting) :
    s.inRange = true ↔ 2 ≤ s.multiplier.toNat ∧ s.multiplier.toNat ≤ 16 := by
  unfold inRange pllMultiplierMin pllMultiplierMax
  rw [Bool.and_eq_true, decide_eq_true_iff, decide_eq_true_iff]

/-- A setting's code is within the PLL's bits. -/
theorem PllSetting.code_and_pll (s : PllSetting) (divider : HseDivider) :
    s.code divider &&& Cfgr.pll = s.code divider := by
  have hsource : s.sourceBits divider &&& Cfgr.pll = s.sourceBits divider := by
    unfold sourceBits
    split <;> decide
  have hmask : Cfgr.pllMultiplier.mask &&& Cfgr.pll = Cfgr.pllMultiplier.mask := by decide
  unfold code Field.put
  generalize BitVec.ofNat 32 (s.multiplier.toNat - 2) <<< Cfgr.pllMultiplier.shift = v
  ext i hi
  have h1 := Word.getElem_of_subset hsource i hi
  have h2 := Word.getElem_of_subset hmask i hi
  simp only [BitVec.getElem_and, BitVec.getElem_or, BitVec.getElem_not]
  cases hb : (s.sourceBits divider)[i] <;> cases hm : Cfgr.pllMultiplier.mask[i] <;>
    simp_all

namespace Cfgr

variable (s : PllSetting) (divider : HseDivider)

theorem agreeOn_code_iff {cfgr : Word} :
    Word.AgreeOn pll cfgr (s.code divider) ↔ cfgr &&& pll = s.code divider := by
  rw [Word.AgreeOn, PllSetting.code_and_pll]

/-- Beside the multiplier, the code of a setting selects the input. -/
theorem agreeOn_sourceBits :
    Word.AgreeOn (pllSource ||| pllHalved) (s.code divider) (s.sourceBits divider) :=
  Word.agreeOn_put _ _ _ (by decide)

theorem code_has_source : (s.code divider).has pllSource = decide (s.source = .hse) := by
  rw [(agreeOn_sourceBits s divider).has (by decide)]
  unfold PllSetting.sourceBits
  cases s.source <;> cases divider <;> decide

theorem code_has_halved :
    (s.code divider).has pllHalved = decide (s.source = .hse ∧ divider = .div2) := by
  rw [(agreeOn_sourceBits s divider).has (by decide)]
  unfold PllSetting.sourceBits
  cases s.source <;> cases divider <;> decide

/-- A multiplier that the PLL has is in the code, less 2. -/
theorem code_get_multiplier (hs : s.inRange = true) :
    (pllMultiplier.get (s.code divider)).toNat = s.multiplier.toNat - 2 := by
  obtain ⟨hlow, hhigh⟩ := s.inRange_iff.mp hs
  have hget : pllMultiplier.get (s.code divider) =
      BitVec.ofNat 32 (s.multiplier.toNat - 2) := by
    rw [PllSetting.code, Field.get_put]
    exact multiplier_fits (by omega)
  rw [hget, BitVec.toNat_ofNat, Nat.mod_eq_of_lt (by omega)]

end Cfgr

/-- A word with the code of a setting has the setting's multiplier, if it is one
that the PLL has. -/
theorem Cfgr.pllFactor_of_code {cfgr : Word} {s : PllSetting} {divider : HseDivider}
    (h : cfgr &&& pll = s.code divider) (hs : s.inRange = true) :
    pllFactor cfgr = s.multiplier.toNat := by
  obtain ⟨hlow, hhigh⟩ := s.inRange_iff.mp hs
  obtain ⟨-, -, hmultiplier⟩ := agreeOn_pll_iff.mp ((agreeOn_code_iff s divider).mpr h)
  rw [pllFactor, hmultiplier, code_get_multiplier s divider hs]
  omega

/-- A word with the code of a setting has the setting's input. -/
theorem Cfgr.pllInputHz_of_code {cfgr : Word} {s : PllSetting} {divider : HseDivider}
    (h : cfgr &&& pll = s.code divider) : pllInputHz cfgr = s.source.hz divider := by
  obtain ⟨hsource, hhalved, -⟩ := agreeOn_pll_iff.mp ((agreeOn_code_iff s divider).mpr h)
  rw [pllInputHz, hsource, hhalved, code_has_source, code_has_halved]
  cases s.source <;> cases divider <;> rfl

/-- A word with the code of a setting in range runs the PLL at the setting's
rate. -/
theorem Cfgr.pllHz_of_code {cfgr : Word} {s : PllSetting} {divider : HseDivider}
    (h : cfgr &&& pll = s.code divider) (hs : s.inRange = true) :
    pllHz cfgr = s.source.hz divider * s.multiplier.toNat := by
  rw [pllHz, pllInputHz_of_code h, pllFactor_of_code h hs]

/-! ## Plans -/

/-- Only the PLL can run the core at its frequency. -/
theorem Plan.pll_of_coreHz {p : Plan} (h : p.rates.sysclk = coreHz) :
    p.buses.sysclk = .pll ∧ ∃ s, p.oscillators.pll = some s ∧
      s.source.hz p.oscillators.hseDivider * s.multiplier.toNat = coreHz := by
  have hsource : p.source.1 * p.source.2 = coreHz := h
  unfold source at hsource
  split at hsource
  · exact absurd hsource (by decide)
  · exact absurd hsource (by decide)
  · next hpll =>
    split at hsource
    · next s hs => exact ⟨hpll, s, hs, hsource⟩
    · exact absurd hsource (by decide)

/-- The bus clocks are within their limits, and the flash with these wait
states keeps up with the core. -/
structure Rates.WithinLimits (r : Rates) (ws : WaitStates) : Prop where
  flash : (WaitStates.needed r.hclk).count ≤ ws.count
  pclk1 : r.pclk1 ≤ pclk1MaxHz
  pclk2 : r.pclk2 ≤ pclk2MaxHz

/-- With a core no faster than the internal oscillator, any dividers and wait
states will do. -/
theorem Rates.withinLimits_of_le {r : Rates} (hhclk : r.hclk ≤ hsiHz)
    (hpclk1 : r.pclk1 ≤ r.hclk) (hpclk2 : r.pclk2 ≤ r.hclk) (ws : WaitStates) :
    r.WithinLimits ws := by
  refine ⟨?_, ?_, ?_⟩
  · calc (WaitStates.needed r.hclk).count
        ≤ (WaitStates.needed hsiHz).count := WaitStates.needed_mono hhclk
      _ = 0 := by decide
      _ ≤ ws.count := Nat.zero_le _
  · exact Nat.le_trans (Nat.le_trans hpclk1 hhclk) (by decide)
  · exact Nat.le_trans (Nat.le_trans hpclk2 hhclk) (by decide)

/-- The rates of a plan are within the limits, also that of the converter if
the plan names it. -/
structure Plan.WithinLimits (p : Plan) : Prop where
  buses : p.rates.WithinLimits p.buses.waitStates
  adc : p.peripherals.named.names .adc = true → p.rates.adc ≤ adcMaxHz

/-- A sequence of checks passes if each of them does. -/
private theorem bind_ok {ε α β : Type} {x : Except ε α} {f : α → Except ε β} {b : β}
    (h : (x >>= f) = .ok b) : ∃ a, x = .ok a ∧ f a = .ok b := by
  cases x with
  | error e => cases h
  | ok a => exact ⟨a, rfl, h⟩

/-- The check only accepts plans within the limits. -/
theorem Plan.withinLimits_of_check {p : Plan} {rates : Rates} (h : p.check = .ok rates) :
    p.WithinLimits := by
  unfold check at h
  obtain ⟨_, _, h⟩ := bind_ok h
  obtain ⟨_, _, h⟩ := bind_ok h
  obtain ⟨_, hrates, h⟩ := bind_ok h
  obtain ⟨_, hperiph, _⟩ := bind_ok h
  constructor
  · unfold checkRates at hrates
    dsimp only at hrates
    split at hrates
    · cases hrates
    · split at hrates
      · cases hrates
      · split at hrates
        · cases hrates
        · split at hrates
          · cases hrates
          · refine ⟨?_, ?_, ?_⟩ <;> omega
  · intro hadc
    unfold checkPeripherals at hperiph
    dsimp only at hperiph
    split at hperiph
    · cases hperiph
    · next hle =>
      rw [hadc, Bool.true_and, decide_eq_true_eq] at hle
      omega

/-- The check only accepts a PLL with a multiplier that it has, and with an
input that runs. -/
theorem Plan.pll_of_check {p : Plan} {rates : Rates} (h : p.check = .ok rates)
    {s : PllSetting} (hs : p.oscillators.pll = some s) :
    s.inRange = true ∧ p.oscillators.pllInputRuns s.source = true := by
  unfold check at h
  obtain ⟨_, hpll, _⟩ := bind_ok h
  unfold checkPll at hpll
  rw [hs] at hpll
  dsimp only at hpll
  split at hpll
  · cases hpll
  · next hrange =>
    split at hpll
    · cases hpll
    · next hruns => exact ⟨by simpa using hrange, by simpa using hruns⟩

/-- And a system clock whose source does. -/
theorem Plan.sysclkSourceRuns_of_check {p : Plan} {rates : Rates} (h : p.check = .ok rates) :
    p.oscillators.sysclkSourceRuns p.buses.sysclk = true := by
  unfold check at h
  obtain ⟨_, _, h⟩ := bind_ok h
  obtain ⟨_, hsource, _⟩ := bind_ok h
  unfold checkSysclkSource at hsource
  split at hsource
  · assumption
  · cases hsource

end Clock

/-! ## The operating point of a part -/

namespace Part

/-- The rates that the part runs at. -/
def rates (p : Part) : Rates :=
  .ofRegisters (p.peek .cfgr) (p.peek .bdcr)

/-- The wait states that are in force. -/
def waitStates (p : Part) : WaitStates :=
  Hardware.Flash.decodeWaitStates (Hardware.Flash.latency.get (p.peek .acr))

/-- The part runs within its limits. -/
def WithinLimits (p : Part) : Prop :=
  p.rates.WithinLimits p.waitStates

end Part

/-- The driver that reads the rates reads those that the part runs at. -/
theorem Hardware.liveRates_run (t : Temper) (patience : Nat) (p : Part) :
    liveRates.run ((simulated t).handler patience) p =
      ⟨.ok p.rates, (p.tick .cfgr).tick .bdcr, []⟩ := by
  have hbdcr : (p.tick .cfgr).peek .bdcr = p.peek .bdcr :=
    p.peek_tick_of_ne (by decide)
  change (Proc.ofExcept (Chain.ofRegisters (p.peek .cfgr)
    ((p.tick .cfgr).peek .bdcr)).evaluate).run _ ((p.tick .cfgr).tick .bdcr) = _
  rw [hbdcr, Rates.evaluate_ofRegisters]
  rfl

/-- The driver that reads the wait states reads those in force. -/
theorem Hardware.waitStates_run (t : Temper) (patience : Nat) (p : Part) :
    Flash.waitStates.run ((simulated t).handler patience) p =
      ⟨.ok p.waitStates, p.tick .acr, []⟩ :=
  rfl

end BringUp
