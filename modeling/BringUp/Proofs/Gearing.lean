import BringUp.Proofs.BusClocks
import BringUp.Proofs.ResetState

/-!
The gearing: what decides about the rates of the core and the peripheral buses.

* `Gearing`: the source of the system clock, the rate of the PLL and the
  divisors, with the rates that follow from them.
* `Gearing.apb`, `Gearing.pclk`, `Gearing.withApb`: the divisor, the rate and a
  change of either peripheral bus.
* `Cfgr.gearing`, `Part.gearing`: the gearing of a configuration word, and that
  of a part; `Cfgr.gears`: the bits that it depends on.
* `BusPlan.target`: the configuration word with the fields that a plan names
  written into it, and the source in use that the word then selects.

Main statements: the rates of a word are those of its gearing
(`Cfgr.gearing_hclk`, `Cfgr.gearing_pclk`), each field of the word is one part
of the gearing (`BusPlan.gearing_target`), and what a driver may change of the
word it may change of the gearing, and no more (`Confined.gearing_eq`,
`Confined.gearing_apb`).

A change of one divider is an update of one component, and what follows for the
rates is arithmetic.
-/

namespace BringUp

open Clock

/-- The rate of a peripheral bus. -/
def Clock.Rates.pclk (r : Rates) : PeripheralBus → Nat
  | .first => r.pclk1
  | .second => r.pclk2

/-- The source of the system clock, the rate of the PLL, and the divisors of the
core and of the peripheral buses. -/
@[ext]
structure Gearing where
  source : SysclkSource
  pllHz : Nat
  ahb : Nat
  apb1 : Nat
  apb2 : Nat

namespace Gearing

/-- The rate of the system clock. -/
def sysclk (g : Gearing) : Nat :=
  match g.source with
  | .hsi => hsiHz
  | .hse => hseHz
  | .pll => g.pllHz

/-- The rate of the core. -/
def hclk (g : Gearing) : Nat :=
  g.sysclk / g.ahb

def pclk1 (g : Gearing) : Nat :=
  g.hclk / g.apb1

def pclk2 (g : Gearing) : Nat :=
  g.hclk / g.apb2

/-- The divisor of a peripheral bus. -/
def apb (g : Gearing) : PeripheralBus → Nat
  | .first => g.apb1
  | .second => g.apb2

/-- The rate of a peripheral bus. -/
def pclk (g : Gearing) (bus : PeripheralBus) : Nat :=
  g.hclk / g.apb bus

/-! ### Changes of one part -/

def withSource (s : SysclkSource) (g : Gearing) : Gearing :=
  { g with source := s }

def withAhb (divisor : Nat) (g : Gearing) : Gearing :=
  { g with ahb := divisor }

def withApb (bus : PeripheralBus) (divisor : Nat) (g : Gearing) : Gearing :=
  match bus with
  | .first => { g with apb1 := divisor }
  | .second => { g with apb2 := divisor }

@[simp]
theorem sysclk_withApb (bus : PeripheralBus) (divisor : Nat) (g : Gearing) :
    (g.withApb bus divisor).sysclk = g.sysclk := by
  cases bus <;> rfl

@[simp]
theorem hclk_withApb (bus : PeripheralBus) (divisor : Nat) (g : Gearing) :
    (g.withApb bus divisor).hclk = g.hclk := by
  cases bus <;> rfl

theorem pclk_withApb_of_ne {bus other : PeripheralBus} (h : bus ≠ other) (divisor : Nat)
    (g : Gearing) : (g.withApb bus divisor).pclk other = g.pclk other := by
  cases bus <;> cases other <;> first | rfl | exact absurd rfl h

end Gearing

namespace Clock.Cfgr

/-- The gearing of a configuration word. -/
def gearing (cfgr : Word) : Gearing where
  source := running cfgr
  pllHz := pllHz cfgr
  ahb := ahbDivisor (hpre.get cfgr)
  apb1 := apbDivisor (ppre1.get cfgr)
  apb2 := apbDivisor (ppre2.get cfgr)

/-! ## The rates -/

theorem gearing_sysclk (cfgr : Word) : (gearing cfgr).sysclk = sysclkHz cfgr := by
  unfold Gearing.sysclk
  cases hs : running cfgr with
  | hsi => simp only [gearing, hs, sysclkHz_of_hsi hs]
  | hse => simp only [gearing, hs, sysclkHz_of_hse hs]
  | pll => simp only [gearing, hs, sysclkHz_of_pll hs]

theorem gearing_hclk (cfgr bdcr : Word) :
    (Rates.ofRegisters cfgr bdcr).hclk = (gearing cfgr).hclk := by
  rw [Gearing.hclk, gearing_sysclk]
  rfl

theorem gearing_pclk (bus : PeripheralBus) (cfgr bdcr : Word) :
    (Rates.ofRegisters cfgr bdcr).pclk bus = (gearing cfgr).pclk bus := by
  rw [Gearing.pclk, ← gearing_hclk cfgr bdcr]
  cases bus <;> rfl

/-- At most the PLL multiplies the external oscillator by sixteen. -/
theorem pllHz_le (cfgr : Word) : pllHz cfgr ≤ hseHz * 16 :=
  Nat.mul_le_mul (pllInputHz_le cfgr) (Nat.min_le_right _ _)

/-! ## The fields -/

/-- All that the gearing depends on. -/
def gears : Word :=
  sws.mask ||| hpre.mask ||| ppre1.mask ||| ppre2.mask ||| pll

/-- Beside the source and the PLL, the dividers are all there is. -/
theorem gearing_dividers {cfgr w : Word} (h : Word.AgreeOn (sws.mask ||| pll) w cfgr) :
    gearing w = (((gearing cfgr).withAhb (ahbDivisor (hpre.get w))).withApb .first
      (apbDivisor (ppre1.get w))).withApb .second (apbDivisor (ppre2.get w)) := by
  have hrunning : running w = running cfgr :=
    congrArg SysclkSource.ofCode (h.get (by decide))
  have hpll : pllHz w = pllHz cfgr := pllHz_congr (h.mono (by decide))
  exact Gearing.ext hrunning hpll rfl rfl rfl

theorem gearing_congr {cfgr w : Word} (h : Word.AgreeOn gears w cfgr) :
    gearing w = gearing cfgr := by
  rw [gearing_dividers (h.mono (by decide)), h.get (f := hpre) (by decide),
    h.get (f := ppre1) (by decide), h.get (f := ppre2) (by decide)]
  rfl

/-- A word with another divider of the core. -/
theorem gearing_hpre {cfgr w : Word} (h : Word.AgreeOn (gears &&& ~~~hpre.mask) w cfgr) :
    gearing w = (gearing cfgr).withAhb (ahbDivisor (hpre.get w)) := by
  rw [gearing_dividers (h.mono (by decide)), h.get (f := ppre1) (by decide),
    h.get (f := ppre2) (by decide)]
  rfl

/-- A word with another divider of a peripheral bus. -/
theorem gearing_apb (bus : PeripheralBus) {cfgr w : Word}
    (h : Word.AgreeOn (gears &&& ~~~bus.divider.mask) w cfgr) :
    gearing w = (gearing cfgr).withApb bus (apbDivisor (bus.divider.get w)) := by
  rw [gearing_dividers (h.mono (by cases bus <;> decide)),
    h.get (f := hpre) (by cases bus <;> decide)]
  cases bus with
  | first =>
      rw [h.get (f := ppre2) (by decide)]
      rfl
  | second =>
      rw [h.get (f := ppre1) (by decide)]
      rfl

theorem gearing_put_hpre (d : AhbDivider) (cfgr : Word) :
    gearing (hpre.put d.code cfgr) = (gearing cfgr).withAhb d.divisor := by
  rw [gearing_hpre (Word.agreeOn_put _ _ _ (by decide)), Field.get_put, d.code_fits,
    ahbDivisor_code]

theorem gearing_put_apb (bus : PeripheralBus) (d : ApbDivider) (cfgr : Word) :
    gearing (bus.divider.put d.code cfgr) = (gearing cfgr).withApb bus d.divisor := by
  rw [gearing_apb bus (Word.agreeOn_put _ _ _ (by cases bus <;> decide)), Field.get_put,
    d.code_fits bus, apbDivisor_code]

/-- Once the switch is over, the system clock runs from the selected source. -/
theorem gearing_settle (cfgr : Word) :
    gearing (StatusFlag.sysclk.settle cfgr) = (gearing cfgr).withSource (requested cfgr) := by
  have hother : Word.AgreeOn (~~~sws.mask) (StatusFlag.sysclk.settle cfgr) cfgr :=
    StatusFlag.sysclk.agreeOn_settle cfgr (by decide)
  have hrunning : running (StatusFlag.sysclk.settle cfgr) = requested cfgr := by
    rw [running, StatusFlag.sws_get, StatusFlag.shown_settle, ← StatusFlag.sw_get]
    rfl
  refine Gearing.ext hrunning (pllHz_congr (hother.mono (by decide))) ?_ ?_ ?_
  · exact congrArg ahbDivisor (hother.get (by decide))
  · exact congrArg apbDivisor (hother.get (by decide))
  · exact congrArg apbDivisor (hother.get (by decide))

theorem gearing_put_sw (s : SysclkSource) (cfgr : Word) :
    gearing (sw.put s.code cfgr) = gearing cfgr :=
  gearing_congr (Word.agreeOn_put _ _ _ (by decide))

theorem requested_put_sw (s : SysclkSource) (cfgr : Word) :
    requested (sw.put s.code cfgr) = s := by
  rw [requested, Field.get_put, s.code_fits, SysclkSource.ofCode_code]

end Clock.Cfgr

/-! ## What a plan aims at -/

namespace Clock.BusPlan

/-- The word with the named fields written into it, and the system clock running
from the source that it then selects. -/
def target (b : BusPlan) (cfgr : Word) : Word :=
  let selected := if b.named.names .sysclk then Cfgr.sw.put b.sysclk.code cfgr else cfgr
  let switched := StatusFlag.sysclk.settle selected
  let core := if b.named.names .hclk then Cfgr.hpre.put b.ahb.code switched else switched
  let first := if b.named.names .pclk1 then Cfgr.ppre1.put b.apb1.code core else core
  if b.named.names .pclk2 then Cfgr.ppre2.put b.apb2.code first else first

/-- The gearing with the named parts as planned. -/
def gear (b : BusPlan) (g : Gearing) : Gearing :=
  { g with
    source := if b.named.names .sysclk then b.sysclk else g.source
    ahb := if b.named.names .hclk then b.ahb.divisor else g.ahb
    apb1 := if b.named.names .pclk1 then b.apb1.divisor else g.apb1
    apb2 := if b.named.names .pclk2 then b.apb2.divisor else g.apb2 }

theorem gearing_target (b : BusPlan) {cfgr : Word} (h : Cfgr.sw.get cfgr = Cfgr.sws.get cfgr) :
    Cfgr.gearing (b.target cfgr) = b.gear (Cfgr.gearing cfgr) := by
  have hkept : Cfgr.requested cfgr = Cfgr.running cfgr := congrArg SysclkSource.ofCode h
  have hppre1 : ∀ (d : ApbDivider) (w : Word), Cfgr.gearing (Cfgr.ppre1.put d.code w) =
      (Cfgr.gearing w).withApb .first d.divisor := Cfgr.gearing_put_apb .first
  have hppre2 : ∀ (d : ApbDivider) (w : Word), Cfgr.gearing (Cfgr.ppre2.put d.code w) =
      (Cfgr.gearing w).withApb .second d.divisor := Cfgr.gearing_put_apb .second
  unfold target gear
  cases b.named.names .sysclk <;> cases b.named.names .hclk <;>
    cases b.named.names .pclk1 <;> cases b.named.names .pclk2 <;>
    simp only [if_true, if_false, Bool.false_eq_true, Cfgr.gearing_put_hpre, hppre1, hppre2,
      Cfgr.gearing_settle, Cfgr.gearing_put_sw, Cfgr.requested_put_sw, hkept] <;> rfl

end Clock.BusPlan

/-! ## The gearing of a part -/

/-- The gearing that the part has. -/
def Part.gearing (p : Part) : Gearing :=
  Cfgr.gearing (p.peek .cfgr)

theorem Part.rates_hclk (p : Part) : p.rates.hclk = p.gearing.hclk :=
  Cfgr.gearing_hclk _ _

namespace Confined

variable {m : Footprint} {p q : Part}

/-- With no switch under way, the source in use is kept along with all bits that
are out of reach. -/
theorem agreeOn_settled (h : Confined m p q) (hp : p.Settled)
    (hm : m .cfgr &&& (Cfgr.sw.mask ||| Cfgr.sws.mask) = 0) (mask : Word)
    (hmask : (m .cfgr ||| StatusFlag.statusOf .cfgr) &&& mask = 0) :
    Word.AgreeOn (Cfgr.sws.mask ||| mask) (q.peek .cfgr) (p.peek .cfgr) :=
  (Word.AgreeOn.of_get (h.sws_of_settled hm hp) (by decide)).union
    (h.agreeOn_open Register.cfgr_open hmask)

/-- A driver that leaves the clock tree alone leaves the gearing alone. -/
theorem gearing_eq (h : Confined m p q) (hp : p.Settled)
    (hm : m .cfgr &&& (Cfgr.sw.mask ||| Cfgr.sws.mask) = 0) (htree : m .cfgr &&& Cfgr.tree = 0) :
    q.gearing = p.gearing := by
  have hkept := h.agreeOn_settled hp hm Cfgr.tree (Word.or_and_eq_zero htree (by decide))
  exact Cfgr.gearing_congr (hkept.mono (by decide))

/-- A switch of the source leaves the PLL and the dividers alone. -/
theorem gearing_source (h : Confined (.only .cfgr Cfgr.sw.mask) p q) :
    q.gearing = p.gearing.withSource (Cfgr.running (q.peek .cfgr)) := by
  have hpll : Cfgr.pllHz (q.peek .cfgr) = Cfgr.pllHz (p.peek .cfgr) :=
    Cfgr.pllHz_congr (h.agreeOn_open Register.cfgr_open (by decide))
  refine Gearing.ext rfl hpll ?_ ?_ ?_
  · exact congrArg ahbDivisor (h.get_cfgr (by decide))
  · exact congrArg apbDivisor (h.get_cfgr (by decide))
  · exact congrArg apbDivisor (h.get_cfgr (by decide))

theorem gearing_ahb (h : Confined (.only .cfgr Cfgr.hpre.mask) p q) (hp : p.Settled) :
    q.gearing = p.gearing.withAhb (ahbDivisor (Cfgr.hpre.get (q.peek .cfgr))) := by
  have hkept := h.agreeOn_settled hp (by decide)
    (Cfgr.gears &&& ~~~(Cfgr.sws.mask ||| Cfgr.hpre.mask)) (by decide)
  exact Cfgr.gearing_hpre (hkept.mono (by decide))

theorem gearing_apb (bus : PeripheralBus) (h : Confined (.only .cfgr bus.divider.mask) p q)
    (hp : p.Settled) :
    q.gearing = p.gearing.withApb bus (apbDivisor (bus.divider.get (q.peek .cfgr))) := by
  have hkept := h.agreeOn_settled hp (by cases bus <;> decide)
    (Cfgr.gears &&& ~~~(Cfgr.sws.mask ||| bus.divider.mask)) (by cases bus <;> decide)
  exact Cfgr.gearing_apb bus (hkept.mono (by cases bus <;> decide))

end Confined

end BringUp
