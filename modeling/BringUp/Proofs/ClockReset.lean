import Mathlib.Logic.Function.Basic
import BringUp.Proofs.AtRest
import BringUp.Proofs.PartLimits

/-!
What the reset of the clocks makes of any part.

* `Part.Holds words p`: but for status bits, the registers of `p` hold these
  words.
* `Ensures.writeHeld`, `Ensures.modifyHeld`: what a write or a
  read-modify-write of an open register makes of the words.
* `ClocksReset p q`: the clock tree of `q` is reset, and nothing else of `p` was
  touched.

Main statement: from any part the reset leads to one whose clock tree is reset.
From then on, whenever the rates are read, they are those of the internal
oscillator (`resetPart_restores`).

The source of the system clock is a status, and no write can reach it. It may
name the PLL for any time after the reset, or for ever. The PLL then doubles
half of the internal oscillator, because its setting is cleared.
-/

namespace BringUp

open Clock

namespace Word.AgreeOn

variable {mask a b : Word}

theorem or (h : AgreeOn mask a b) (bits : Word) : AgreeOn mask (a ||| bits) (b ||| bits) := by
  have hdistrib : ∀ w : Word, (w ||| bits) &&& mask = w &&& mask ||| bits &&& mask := by
    intro w
    rw [BitVec.and_comm, BitVec.and_or_distrib_left, BitVec.and_comm mask, BitVec.and_comm mask]
  rw [AgreeOn, hdistrib, hdistrib, h]

theorem and (h : AgreeOn mask a b) (kept : Word) : AgreeOn mask (a &&& kept) (b &&& kept) := by
  have hswap : ∀ w : Word, w &&& kept &&& mask = w &&& mask &&& kept := by
    intro w
    rw [BitVec.and_assoc, BitVec.and_comm kept, BitVec.and_assoc]
  rw [AgreeOn, hswap, hswap, h]

end Word.AgreeOn

/-- Of bits that two steps keep none of in common, nothing is left. -/
theorem Word.and_and_eq_zero (w : Word) {kept kept' mask : Word}
    (h : kept &&& kept' &&& mask = 0) : w &&& kept &&& kept' &&& mask = 0 := by
  rw [BitVec.and_assoc, BitVec.and_assoc, ← BitVec.and_assoc kept, h]
  exact BitVec.and_zero

namespace Register

theorem cir_open : Open .cir :=
  ⟨fun _ _ => rfl, by decide, by rintro ⟨u, h⟩; cases h⟩

theorem vtor_open : Open .vtor :=
  ⟨fun _ _ => rfl, by decide, by rintro ⟨u, h⟩; cases h⟩

end Register

/-! ## Words in registers -/

/-- But for status bits, the registers hold these words. -/
def Part.Holds (words : Register → Word) (p : Part) : Prop :=
  ∀ r, ¬r.IsUsartStatus → Word.AgreeOn (~~~StatusFlag.statusOf r) (p.peek r) (words r)

namespace Part.Holds

variable {t : Temper} {words : Register → Word} {p : Part} {r : Register}

theorem refl (p : Part) : p.Holds p.peek :=
  fun _ _ => .refl _ _

/-- A register without status bits holds its word. -/
theorem peek_eq (h : p.Holds words) (hstatus : ¬r.IsUsartStatus)
    (hflagless : StatusFlag.statusOf r = 0) : p.peek r = words r := by
  have hagree := h r hstatus
  have hall : ∀ w : Word, w &&& ~~~0 = w := fun w => BitVec.and_allOnes
  rwa [hflagless, Word.AgreeOn, hall, hall] at hagree

/-- Time does not change what is held. -/
theorem tick (h : p.Holds words) (s : Register) : (p.tick s).Holds words :=
  fun r hr => ((SameAtRest.tick p s).steady r hr).trans (h r hr)

/-- A write replaces one of the words. -/
theorem write (ht : t.Unlatched) (hr : r.Open) (h : p.Holds words) (v : Word) :
    (p.write t r v).Holds (Function.update words r v) := by
  intro s hs
  by_cases hsame : s = r
  · subst hsame
    rw [Function.update_self]
    exact Part.steady_write ht hr v p
  · rw [Function.update_of_ne hsame, p.peek_write_of_ne t v hsame hs]
    exact h s hs

end Part.Holds

namespace Ensures

variable {t : Temper} (ht : t.Unlatched) {patience : Nat} {words : Register → Word} {p : Part}
  {r : Register}

include ht

theorem writeHeld (hr : r.Open) (hp : p.Holds words) (v : Word) :
    Ensures (simulated t) patience (fun _ => True) (Driver.write r v) p
      (fun _ q => q.Holds (Function.update words r v)) :=
  .write trivial (hp.write ht hr v)

/-- A change that looks at each bit by itself makes the same of the word that is
held as of the word that is read. -/
theorem modifyHeld (hr : r.Open) {f : Word → Word}
    (hf : ∀ {mask a b : Word}, Word.AgreeOn mask a b → Word.AgreeOn mask (f a) (f b))
    (hp : p.Holds words) :
    Ensures (simulated t) patience (fun _ => True) (Driver.modify r f) p
      (fun _ q => q.Holds (Function.update words r (f (words r)))) := by
  refine .modify trivial trivial fun s hs => ?_
  refine ((hp.tick r).write ht hr (f (p.peek r)) s hs).trans ?_
  by_cases hsame : s = r
  · subst hsame
    rw [Function.update_self, Function.update_self]
    exact hf (hp s hs)
  · rw [Function.update_of_ne hsame, Function.update_of_ne hsame]
    exact .refl _ _

end Ensures

/-! ## The words that the reset leaves -/

namespace Clock

/-- What the reset switches off: the external oscillator with its bypass and
its supervision, and the PLL. -/
def Cr.external : Word :=
  hseOn ||| hseBypass ||| securityOn ||| pllOn

/-- The selection of what is put out on the clock pin. -/
def Cfgr.clockOutput : Word := 0x07000000

/-- The divider of the USB clock. -/
def Cfgr.usbDivider : Word := 0x00400000

/-- What the reset clears: the tree, the clock output and the USB divider. -/
def Cfgr.cleared : Word :=
  tree ||| clockOutput ||| usbDivider

/-- The rates of the internal oscillator without a multiplier or a divider; the
converter has no undivided clock. -/
def Rates.internal (rtc : Nat) : Rates where
  sysclk := 8000000
  hclk := 8000000
  pclk1 := 8000000
  pclk2 := 8000000
  adc := 4000000
  rtc := rtc

end Clock

namespace Hardware

variable {t : Temper} (ht : t.Unlatched) {patience : Nat}

/-- The words that the reset makes of these words. -/
def resetWords (words : Register → Word) : Register → Word
  | .cr => (words .cr ||| Cr.hsiOn) &&& keepBesideOscillators &&& keepBesideBypass
  | .cfgr => words .cfgr &&& keepBesideBusClocks &&& keepBesidePll
  | .cir => clearClockInterrupts
  | .vtor => SystemControl.flashTable
  | r => words r

include ht in
theorem resetPart_holds {words : Register → Word} {p : Part} (hp : p.Holds words) :
    Ensures (simulated t) patience (fun _ => True) resetPart p
      (fun _ q => q.Holds (resetWords words)) := by
  unfold resetPart resetClocks
  simp only [bind_assoc]
  refine .bind (.modifyHeld ht Register.cr_open (fun h => h.or _) hp) fun _ q1 h1 => ?_
  refine .bind (.modifyHeld ht Register.cfgr_open (fun h => h.and _) h1) fun _ q2 h2 => ?_
  refine .bind (.modifyHeld ht Register.cr_open (fun h => h.and _) h2) fun _ q3 h3 => ?_
  refine .bind (.modifyHeld ht Register.cr_open (fun h => h.and _) h3) fun _ q4 h4 => ?_
  refine .bind (.modifyHeld ht Register.cfgr_open (fun h => h.and _) h4) fun _ q5 h5 => ?_
  refine .bind (.writeHeld ht Register.cir_open h5 _) fun _ q6 h6 => ?_
  refine (Ensures.writeHeld ht Register.vtor_open h6 _).imp fun _ q h => ?_
  intro r hr
  have hagree := h r hr
  cases r <;> simpa [Function.update, resetWords] using hagree

end Hardware

/-! ## The reset -/

/-- The clock tree of `q` is reset, and nothing else of `p` was touched. -/
structure ClocksReset (p q : Part) : Prop where
  hsiOn : (q.peek .cr).has Cr.hsiOn = true
  external : q.peek .cr &&& Cr.external = 0
  control : Word.AgreeOn (~~~(Cr.hsiOn ||| Cr.external ||| StatusFlag.statusOf .cr))
    (q.peek .cr) (p.peek .cr)
  cleared : q.peek .cfgr &&& Cfgr.cleared = 0
  configuration : Word.AgreeOn (~~~(Cfgr.cleared ||| StatusFlag.statusOf .cfgr))
    (q.peek .cfgr) (p.peek .cfgr)
  interrupts : q.peek .cir = 0x009F0000
  vectors : q.peek .vtor = 0x08000000
  others : ∀ r, r ∉ [.cr, .cfgr, .cir, .vtor] → ¬r.IsUsartStatus → q.peek r = p.peek r

theorem ClocksReset.of_holds {p q : Part} (h : q.Holds (Hardware.resetWords p.peek))
    (hothers : ∀ r, r ∉ [Register.cr, .cfgr, .cir, .vtor] → ¬r.IsUsartStatus →
      q.peek r = p.peek r) : ClocksReset p q := by
  have hcr := h .cr Register.cr_open.notUsart
  have hcfgr := h .cfgr Register.cfgr_open.notUsart
  constructor
  case hsiOn =>
    have hon : Word.AgreeOn Cr.hsiOn (q.peek .cr) (p.peek .cr ||| Cr.hsiOn) := by
      refine (hcr.mono (by decide)).trans ?_
      exact (Word.agreeOn_and _ (by decide)).trans (Word.agreeOn_and _ (by decide))
    exact (hon.has rfl).trans (Word.has_or_of_subset _ rfl (by decide))
  case external => exact (hcr.and_eq (by decide)).trans (Word.and_and_eq_zero _ (by decide))
  case control =>
    refine (hcr.mono (by decide)).trans ?_
    refine (Word.agreeOn_and _ (by decide)).trans ?_
    exact (Word.agreeOn_and _ (by decide)).trans (Word.agreeOn_or _ (by decide))
  case cleared => exact (hcfgr.and_eq (by decide)).trans (Word.and_and_eq_zero _ (by decide))
  case configuration =>
    refine (hcfgr.mono (by decide)).trans ?_
    exact (Word.agreeOn_and _ (by decide)).trans (Word.agreeOn_and _ (by decide))
  case interrupts => exact h.peek_eq Register.cir_open.notUsart rfl
  case vectors => exact h.peek_eq Register.vtor_open.notUsart rfl
  case others => exact hothers

/-- A cleared tree runs at the rates of the internal oscillator, whatever source
is in use. -/
theorem Part.rates_of_tree {p : Part} (h : Word.AgreeOn Cfgr.tree (p.peek .cfgr) 0) :
    p.rates = Rates.internal (Bdcr.rtcHz (p.peek .bdcr)) := by
  have hsysclk : (Cfgr.source (p.peek .cfgr)).1 * (Cfgr.source (p.peek .cfgr)).2 = 8000000 :=
    (Idling.of_tree h).sysclk
  have hahb : ahbDivisor (Cfgr.hpre.get (p.peek .cfgr)) = 1 := by
    rw [h.get (by decide)]
    decide
  have hapb1 : apbDivisor (Cfgr.ppre1.get (p.peek .cfgr)) = 1 := by
    rw [h.get (by decide)]
    decide
  have hapb2 : apbDivisor (Cfgr.ppre2.get (p.peek .cfgr)) = 1 := by
    rw [h.get (by decide)]
    decide
  have hadc : 2 * ((Cfgr.adcpre.get (p.peek .cfgr)).toNat + 1) = 2 := by
    rw [h.get (by decide)]
    decide
  simp only [rates, Rates.ofRegisters, Chain.rates, Chain.ofRegisters, hsysclk, hahb, hapb1,
    hapb2, hadc]
  rfl

/-- Where nothing but time has passed since the reset, the rates are those of
the internal oscillator. -/
theorem ClocksReset.rates_eq {p q : Part} (h : ClocksReset p q) (reads : List Register) :
    (q.elapse reads).rates = Rates.internal (Bdcr.rtcHz (p.peek .bdcr)) := by
  have htime := SameAtRest.elapse q reads
  have hcfgr := htime.steady .cfgr Register.cfgr_open.notUsart
  have hbdcr := htime.steady .bdcr StatusFlag.lse.register_notUsart
  rw [h.others .bdcr (by decide) StatusFlag.lse.register_notUsart] at hbdcr
  have htree : Word.AgreeOn Cfgr.tree ((q.elapse reads).peek .cfgr) 0 := by
    refine (hcfgr.mono (by decide)).trans ?_
    have hzero : Word.AgreeOn Cfgr.cleared (q.peek .cfgr) 0 := h.cleared
    exact hzero.mono (by decide)
  have hsource : Bdcr.rtcSource.get ((q.elapse reads).peek .bdcr) =
      Bdcr.rtcSource.get (p.peek .bdcr) := hbdcr.get (by decide)
  rw [Part.rates_of_tree htree, Bdcr.rtcHz, Bdcr.rtcHz, hsource]

/-- The reset of the clocks, from any part without stuck bits.

It runs to its end, it leaves a part whose clock tree is reset, and nothing else
is touched. However much time passes afterwards, and whether or not the system
clock has followed: the rates that are read are those of the internal oscillator,
and the real-time clock runs at the rate that was read before. -/
theorem resetPart_restores {t : Temper} (ht : t.Unlatched) (patience : Nat) (p : Part) :
    ∃ q log before,
      Hardware.resetPart.run ((simulated t).handler patience) p = ⟨.ok (), q, log⟩ ∧
      ClocksReset p q ∧
      (Hardware.liveRates.run ((simulated t).handler patience) p).outcome = .ok before ∧
      ∀ reads, (Hardware.liveRates.run ((simulated t).handler patience)
        (q.elapse reads)).outcome = .ok {
          sysclk := 8000000
          hclk := 8000000
          pclk1 := 8000000
          pclk2 := 8000000
          adc := 4000000
          rtc := before.rtc } := by
  have hhold : Ensures (simulated t) patience (fun _ => True) Hardware.resetPart p
      (fun _ q => q.Holds (Hardware.resetWords p.peek)) :=
    Hardware.resetPart_holds ht (.refl p)
  obtain ⟨_, q, log, hrun, hq⟩ := hhold.returns
  have hothers : ∀ r, r ∉ [Register.cr, .cfgr, .cir, .vtor] → ¬r.IsUsartStatus →
      q.peek r = p.peek r := by
    intro r hr hstatus
    obtain ⟨_, u, _, hrun', hkept, -⟩ :=
      (hhold.within (Part.peek_keeps t hr hstatus (p.peek r)) Hardware.resetPart_among rfl).returns
    rw [hrun] at hrun'
    cases hrun'
    exact hkept
  have hreset : ClocksReset p q := .of_holds hq hothers
  refine ⟨q, log, p.rates, hrun, hreset, ?_, fun reads => ?_⟩
  · rw [Hardware.liveRates_run]
  · rw [Hardware.liveRates_run, hreset.rates_eq reads]
    rfl

/-- A part without stuck bits whose flags never follow. -/
def Temper.frozen : Temper :=
  { Temper.prompt with delay := fun _ => ⟨none, none⟩ }

/-- A part that runs from the PLL, with every oscillator on, everything divided,
and the crystal behind the real-time clock. -/
def Part.onDividedPll : Part :=
  (((Part.powerOn fun _ => 0).poke .cr 0x030F0083).poke .cfgr 0x075DFFFA).poke .bdcr 0x00008103

/-- A part that stays on the PLL for ever is reset all the same. -/
theorem resetPart_restores_onDividedPll :
    Temper.frozen.Unlatched ∧
    ∃ q log,
      Hardware.resetPart.run ((simulated Temper.frozen).handler 0) Part.onDividedPll =
        ⟨.ok (), q, log⟩ ∧
      ClocksReset Part.onDividedPll q ∧ Cfgr.running (q.peek .cfgr) = .pll ∧
      (Hardware.liveRates.run ((simulated Temper.frozen).handler 0) q).outcome = .ok {
        sysclk := 8000000
        hclk := 8000000
        pclk1 := 8000000
        pclk2 := 8000000
        adc := 4000000
        rtc := 32768 } := by
  have hfrozen : Temper.frozen.Unlatched := fun _ => rfl
  obtain ⟨q, log, before, hrun, hreset, hbefore, hrates⟩ :=
    resetPart_restores hfrozen 0 Part.onDividedPll
  have hpll : Cfgr.running ((Hardware.resetPart.run ((simulated Temper.frozen).handler 0)
      Part.onDividedPll).state.peek .cfgr) = .pll := by decide +kernel
  rw [hrun] at hpll
  have hrtc : before.rtc = 32768 := by
    rw [Hardware.liveRates_run] at hbefore
    cases hbefore
    decide +kernel
  have hnow := hrates []
  rw [hrtc] at hnow
  exact ⟨hfrozen, q, log, hrun, hreset, hpll, hnow⟩

end BringUp
