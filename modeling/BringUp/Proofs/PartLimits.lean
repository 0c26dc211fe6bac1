import BringUp.Proofs.BusClocks
import BringUp.Proofs.Oscillators
import BringUp.Proofs.ResetState
import BringUp.Proofs.Sequences

/-!
The bring-up keeps the part within its limits.

* `Idling`: the part runs at the speed of the internal oscillator, and nothing
  faster is requested.
* `Geared`: the dividers and wait states are ready for the planned rates.
* `Tame`: one of the two. Either way the part is within its limits.

Main statement: from the end of the clock reset on, every state that the
bring-up of an accepted plan passes through is within the limits
(`bringUp_withinLimits`).

The source of the system clock is a status that may lag behind its request for
any time, and beyond a step that gave up waiting for it. So neither half of
`Tame` mentions that a switch is over. Before the switch is requested, no source
that may be in use is faster than the internal oscillator. From just before
the request on, the dividers and wait states serve the fastest of them.
-/

namespace BringUp

open Clock Board Hardware

/-- The part runs at the speed of the internal oscillator, whatever source it
is, and no other is requested. -/
structure Idling (p : Part) : Prop where
  requested : Cfgr.requested (p.peek .cfgr) = .hsi
  sysclk : Cfgr.sysclkHz (p.peek .cfgr) = hsiHz
  pll : Cfgr.pllHz (p.peek .cfgr) ≤ coreHz

/-- The dividers and the wait states serve the planned rates, and the PLL is
no faster than the core may be. -/
structure Geared (plan : BusPlan) (p : Part) : Prop where
  pll : Cfgr.pllHz (p.peek .cfgr) ≤ coreHz
  ahb : Cfgr.hpre.get (p.peek .cfgr) = plan.ahb.code
  apb1 : plan.apb1.divisor ≤ apbDivisor (Cfgr.ppre1.get (p.peek .cfgr))
  apb2 : plan.apb2.divisor ≤ apbDivisor (Cfgr.ppre2.get (p.peek .cfgr))
  flash : plan.waitStates.count ≤ p.waitStates.count

/-- The part idles, or it is geared for the plan. -/
def Tame (plan : BusPlan) (p : Part) : Prop :=
  Idling p ∨ Geared plan p

/-! ## Within the limits -/

/-- At the speed of the internal oscillator any dividers and wait states will
do. -/
theorem Idling.withinLimits {p : Part} (h : Idling p) : p.WithinLimits := by
  have hhclk : p.rates.hclk ≤ hsiHz := by
    show Cfgr.sysclkHz (p.peek .cfgr) / _ ≤ hsiHz
    rw [h.sysclk]
    exact Nat.div_le_self _ _
  exact Rates.withinLimits_of_le hhclk (Nat.div_le_self _ _) (Nat.div_le_self _ _) _

/-- Geared for a plan within the limits, no source is too fast. -/
theorem Geared.withinLimits {plan : Plan} {p : Part} (hplan : plan.WithinLimits)
    (hcore : plan.rates.sysclk = coreHz) (h : Geared plan.buses p) : p.WithinLimits := by
  have hsysclk : p.rates.sysclk ≤ plan.rates.sysclk := by
    rw [hcore]
    exact Cfgr.sysclkHz_le h.pll
  have hhclk : p.rates.hclk ≤ plan.rates.hclk := by
    show p.rates.sysclk / ahbDivisor _ ≤ plan.rates.sysclk / plan.buses.ahb.divisor
    rw [h.ahb, ahbDivisor_code]
    exact Nat.div_le_div_right hsysclk
  refine ⟨?_, ?_, ?_⟩
  · exact Nat.le_trans (Nat.le_trans (WaitStates.needed_mono hhclk) hplan.buses.flash) h.flash
  · have hpclk1 : p.rates.pclk1 ≤ plan.rates.pclk1 :=
      Nat.div_le_div hhclk h.apb1 (Nat.pos_iff_ne_zero.mp plan.buses.apb1.divisor_pos)
    exact Nat.le_trans hpclk1 hplan.buses.pclk1
  · have hpclk2 : p.rates.pclk2 ≤ plan.rates.pclk2 :=
      Nat.div_le_div hhclk h.apb2 (Nat.pos_iff_ne_zero.mp plan.buses.apb2.divisor_pos)
    exact Nat.le_trans hpclk2 hplan.buses.pclk2

theorem Tame.withinLimits {plan : Plan} {p : Part} (hplan : plan.WithinLimits)
    (hcore : plan.rates.sysclk = coreHz) (h : Tame plan.buses p) : p.WithinLimits := by
  rcases h with hidle | hgeared
  · exact hidle.withinLimits
  · exact hgeared.withinLimits hplan hcore

/-! ## What keeps it so -/

/-- A part goes on idling as long as neither the source nor the PLL is
touched. -/
theorem Idling.of_confined {m : Footprint} {p q : Part} (h : Confined m p q)
    (hs : m .cfgr &&& (Cfgr.sw.mask ||| Cfgr.sws.mask) = 0) (hpll : m .cfgr &&& Cfgr.pll = 0)
    (hp : Idling p) : Idling q := by
  have hsetting : Cfgr.pllHz (q.peek .cfgr) = Cfgr.pllHz (p.peek .cfgr) :=
    Cfgr.pllHz_congr (h.agreeOn_open Register.cfgr_open (Word.or_and_eq_zero hpll (by decide)))
  refine ⟨?_, ?_, ?_⟩
  · exact (h.requested_eq hs).trans hp.requested
  · rcases h.running_cases hs with hkept | hsettled
    · exact (Cfgr.sysclkHz_congr hkept hsetting).trans hp.sysclk
    · exact Cfgr.sysclkHz_of_hsi (hsettled.trans hp.requested)
  · rw [hsetting]
    exact hp.pll

/-- A geared part stays geared as long as neither the PLL nor a divider is
touched, and there are enough wait states. -/
theorem Geared.of_confined {plan : BusPlan} {m : Footprint} {p q : Part} (h : Confined m p q)
    (hcfgr : m .cfgr &&& (Cfgr.pll ||| (Cfgr.hpre.mask ||| (Cfgr.ppre1.mask |||
      Cfgr.ppre2.mask))) = 0)
    (hflash : plan.waitStates.count ≤ q.waitStates.count) (hp : Geared plan p) :
    Geared plan q := by
  obtain ⟨hpll, hrest⟩ := (Word.and_or_eq_zero_iff _ _ _).mp hcfgr
  obtain ⟨hhpre, hrest⟩ := (Word.and_or_eq_zero_iff _ _ _).mp hrest
  obtain ⟨hppre1, hppre2⟩ := (Word.and_or_eq_zero_iff _ _ _).mp hrest
  refine ⟨?_, ?_, ?_, ?_, hflash⟩
  · rw [Cfgr.pllHz_congr (h.agreeOn_open Register.cfgr_open (Word.or_and_eq_zero hpll (by decide)))]
    exact hp.pll
  · rw [h.get_cfgr (Word.or_and_eq_zero hhpre (by decide))]
    exact hp.ahb
  · rw [h.get_cfgr (Word.or_and_eq_zero hppre1 (by decide))]
    exact hp.apb1
  · rw [h.get_cfgr (Word.or_and_eq_zero hppre2 (by decide))]
    exact hp.apb2

/-- A cleared configuration idles, even if it still runs from the PLL. -/
theorem Idling.of_tree {p : Part} (h : Word.AgreeOn Cfgr.tree (p.peek .cfgr) 0) : Idling p := by
  have hpll : Cfgr.pllHz (p.peek .cfgr) = hsiHz := by
    refine Cfgr.pllHz_of_zero ?_
    rw [h.and_eq (by decide)]
    decide
  refine ⟨?_, ?_, ?_⟩
  · rw [Cfgr.requested, h.get (by decide)]
    decide
  · cases hs : Cfgr.running (p.peek .cfgr) with
    | hsi => exact Cfgr.sysclkHz_of_hsi hs
    | hse => exact Cfgr.sysclkHz_of_hse hs
    | pll => exact (Cfgr.sysclkHz_of_pll hs).trans hpll
  · rw [hpll]
    decide

/-- Setting the PLL keeps the part idling: whatever the PLL is set to, the
system clock does not run from it. -/
theorem Idling.of_pll {wanted : Option PllSetting} {divider : HseDivider} {p q : Part}
    (hmax : ∀ s, wanted = some s → s.source.hz divider * s.multiplier.toNat ≤ coreHz)
    (h : Confined Footprint.pll p q) (hset : Programmed wanted divider p q)
    (hkept : Cfgr.running (p.peek .cfgr) = .pll → Confined .none p q) (hp : Idling p) :
    Idling q := by
  by_cases hpll : Cfgr.running (p.peek .cfgr) = .pll
  · exact hp.of_confined (hkept hpll) (by simp) (by simp)
  · refine ⟨?_, ?_, ?_⟩
    · exact (h.requested_eq (by decide)).trans hp.requested
    · rcases h.running_cases (by decide) with hsame | hsettled
      · cases hs : Cfgr.running (p.peek .cfgr) with
        | hsi => exact Cfgr.sysclkHz_of_hsi (hsame.trans hs)
        | hse => exact Cfgr.sysclkHz_of_hse (hsame.trans hs)
        | pll => exact absurd hs hpll
      · exact Cfgr.sysclkHz_of_hsi (hsettled.trans hp.requested)
    · rcases hset with hold | ⟨s, hs, hrange, hnew⟩
      · rw [Cfgr.pllHz_congr hold]
        exact hp.pll
      · rw [Cfgr.pllHz_of_code hnew hrange]
        exact hmax s hs

/-! ## The steps of the bring-up -/

section Steps

variable {t : Temper} (ht : t.Unlatched) {patience : Nat}

include ht in
/-- The part idles while the oscillators are being operated. -/
theorem configureOscillators_idling {plan : OscillatorPlan}
    (hmax : ∀ s, plan.pll = some s →
      s.source.hz plan.hseDivider * s.multiplier.toNat ≤ coreHz)
    {p : Part} (hp : Idling p) :
    Ensures (simulated t) patience (fun e => Idling e.after) (configureOscillators plan).run p
      (fun _ q => Idling q) := by
  have hstart : ∀ p q, Confined Footprint.oscillators p q → Idling p → Idling q :=
    fun p q h => Idling.of_confined h (by decide) (by decide)
  rw [configureOscillators_eq]
  refine .setupBind ((operateOscillators_confines ht plan).keeps hstart hp) ?_ (fun _ _ hq => hq)
  intro _ q hq
  refine (configurePll_ensures ht plan.pll plan.hseDivider q).mono ?_ ?_
  · intro e he
    obtain ⟨hstep, hkept⟩ := he
    exact hq.of_pll hmax hstep.after hstep.programmed fun hpll => (hkept hpll).2
  · intro _ u hu
    obtain ⟨hdone, hkept⟩ := hu
    exact hq.of_pll hmax hdone.confined hdone.programmed hkept

include ht in
/-- Dividing the core's clock takes an idling part to a geared one. -/
theorem divideCore_geared {plan : BusPlan} (hpclk1 : plan.named.names .pclk1 = true)
    (hpclk2 : plan.named.names .pclk2 = true) {p : Part} (hp : Idling p)
    (hws : plan.waitStates.count ≤ p.waitStates.count) :
    Ensures (simulated t) patience (fun e => Idling e.after) (divideCore plan) p
      (fun _ q => Geared plan q) := by
  have hidle : ∀ {q : Part}, Confined .dividers p q → Idling q :=
    fun h => hp.of_confined h (by decide) (by decide)
  refine (divideCore_ensures ht plan p).mono (fun e he => hidle he.2) ?_
  intro _ q hq
  obtain ⟨hq, hhpre, hppre1, hppre2⟩ := hq
  refine ⟨(hidle hq).pll, hhpre, ?_, ?_, ?_⟩
  · rw [hppre1, divided, if_pos hpclk1, apbDivisor_code]
    exact plan.apb1.divisor_le
  · rw [hppre2, divided, if_pos hpclk2, apbDivisor_code]
    exact plan.apb2.divisor_le
  · rw [hq.waitStates_eq (by decide)]
    exact hws

include ht in
/-- Setting the dividers of the peripheral buses keeps the part geared. -/
theorem dividePeripheralBuses_geared {plan : BusPlan} {p : Part} (hp : Geared plan p) :
    Ensures (simulated t) patience (fun e => Geared plan e.after) (dividePeripheralBuses plan) p
      (fun _ q => Geared plan q) := by
  have hgeared : ∀ {q : Part}, Confined .busDividers p q →
      (Cfgr.ppre1.get (q.peek .cfgr) = Cfgr.ppre1.get (p.peek .cfgr) ∨
        Cfgr.ppre1.get (q.peek .cfgr) = plan.apb1.code) →
      (Cfgr.ppre2.get (q.peek .cfgr) = Cfgr.ppre2.get (p.peek .cfgr) ∨
        Cfgr.ppre2.get (q.peek .cfgr) = plan.apb2.code) → Geared plan q := by
    intro q hq hppre1 hppre2
    refine ⟨?_, ?_, ?_, ?_, ?_⟩
    · rw [Cfgr.pllHz_congr (hq.agreeOn_open Register.cfgr_open (by decide))]
      exact hp.pll
    · rw [hq.get_cfgr (by decide)]
      exact hp.ahb
    · rcases hppre1 with hold | hnew
      · rw [hold]
        exact hp.apb1
      · exact Nat.le_of_eq (by rw [hnew, apbDivisor_code])
    · rcases hppre2 with hold | hnew
      · rw [hold]
        exact hp.apb2
      · exact Nat.le_of_eq (by rw [hnew, apbDivisor_code])
    · rw [hq.waitStates_eq (by decide)]
      exact hp.flash
  refine (dividePeripheralBuses_ensures ht plan p).mono
    (fun e he => hgeared he.2.1 he.2.2.1 he.2.2.2) ?_
  intro _ q hq
  obtain ⟨hq, hppre1, hppre2⟩ := hq
  refine hgeared hq ?_ ?_
  · rw [hppre1, divided]
    split
    · exact .inr rfl
    · exact .inl rfl
  · rw [hppre2, divided]
    split
    · exact .inr rfl
    · exact .inl rfl

include ht in
/-- The part is tame while the bus clocks are being configured: it idles up to
the core's divider, and is geared from there on. -/
theorem configureBusClocks_tame {plan : BusPlan} (hhclk : plan.named.names .hclk = true)
    (hpclk1 : plan.named.names .pclk1 = true) (hpclk2 : plan.named.names .pclk2 = true)
    {p : Part} (hp : Idling p) :
    Ensures (simulated t) patience (fun e => Tame plan e.after) (configureBusClocks plan).run p
      (fun _ q => Tame plan q) := by
  have hraise : ∀ {q : Part}, Confined .waitStates p q → Idling q :=
    fun h => hp.of_confined h (by decide) (by decide)
  rw [configureBusClocks_eq]
  refine .setupBind (R := fun _ q => Idling q ∧ plan.waitStates.count ≤ q.waitStates.count) ?_ ?_
    (fun _ _ hq => .inl hq.1)
  · refine (raiseWaitStates_ensures ht plan.waitStates p).mono
      (fun e he => .inl (hraise he.2.1)) ?_
    rintro _ q ⟨-, hq, hws⟩
    exact ⟨hraise hq, Nat.le_trans (Nat.le_max_right _ _) (Nat.le_of_eq hws.symm)⟩
  intro _ q1 hq1
  obtain ⟨h1, hws⟩ := hq1
  refine .setupBind (R := fun _ q => Geared plan q) ?_ ?_ (fun _ _ hq => .inr hq)
  · refine .optionally (fun _ => .lift ?_) (fun hskip => ?_)
    · exact (divideCore_geared ht hpclk1 hpclk2 h1 hws).weaken (fun e he => .inl he)
    · rw [hhclk] at hskip
      cases hskip
  intro _ q2 h2
  refine .setupBind (R := fun _ q => Geared plan q) ?_ ?_ (fun _ _ hq => .inr hq)
  · have hswitch : ∀ {q : Part}, Confined (.only .cfgr Cfgr.sw.mask) q2 q → Geared plan q := by
      intro q hq
      refine h2.of_confined hq (by decide) ?_
      rw [hq.waitStates_eq (by decide)]
      exact h2.flash
    exact (optionalSwitch_ensures ht plan q2).mono (fun e he => .inr (hswitch he.2))
      (fun _ q hq => hswitch hq.2.1)
  intro _ q3 h3
  refine .setupBind (R := fun _ q => Geared plan q) ?_ ?_ (fun _ _ hq => .inr hq)
  · refine (lowerWaitStates_ensures ht h3.flash).mono ?_ ?_
    · exact fun e he => .inr (h3.of_confined he.2.1 (by decide) he.2.2)
    · exact fun _ q hq => h3.of_confined hq.2.1 (by decide) (Nat.le_of_eq (by rw [hq.2.2]))
  intro _ q4 h4
  exact .lift ((dividePeripheralBuses_geared ht h4).mono (fun e he => .inr he)
    (fun _ q hq => .inr hq))

include ht in
/-- Whatever the source selection does, a tame part stays tame. -/
theorem configurePeripheralClocks_tame {buses : BusPlan} (plan : PeripheralPlan) {p : Part}
    (hp : Tame buses p) :
    Ensures (simulated t) patience (fun e => Tame buses e.after)
      (configurePeripheralClocks plan).run p (fun _ q => Tame buses q) := by
  refine (configurePeripheralClocks_confines ht patience plan).keeps ?_ hp
  intro p q h htame
  rcases htame with hidle | hgeared
  · exact .inl (hidle.of_confined h (by decide) (by decide))
  · refine .inr (hgeared.of_confined h (by decide) ?_)
    rw [h.waitStates_eq (by decide)]
    exact hgeared.flash

include ht in
/-- The steps before the clocks leave an idling part idling. -/
theorem initialise_idling (ceiling : Log.Ceiling) {p : Part} (hp : Idling p) :
    Ensures (simulated t) patience (fun e => Idling e.after) (initialise ceiling) p
      (fun _ q => Idling q) :=
  (initialise_confines ht patience ceiling).keeps
    (fun _ _ h => Idling.of_confined h (by decide) (by decide)) hp

include ht in
theorem installStubs_idling {p : Part} (hp : Idling p) :
    Ensures (simulated t) patience (fun e => Idling e.after) SystemControl.installStubs p
      (fun _ q => Idling q) :=
  (installStubs_confines ht patience).keeps
    (fun _ _ h => Idling.of_confined h (by decide) (by decide)) hp

include ht in
/-- From an idling part on, the bring-up of a plan that names the core and both
peripheral buses keeps the part tame. -/
theorem afterReset_tame {plan : Plan} {ceiling : Log.Ceiling}
    (hmax : ∀ s, plan.oscillators.pll = some s →
      s.source.hz plan.oscillators.hseDivider * s.multiplier.toNat ≤ coreHz)
    (hhclk : plan.buses.named.names .hclk = true)
    (hpclk1 : plan.buses.named.names .pclk1 = true)
    (hpclk2 : plan.buses.named.names .pclk2 = true) {p : Part} (hp : Idling p) :
    Ensures (simulated t) patience (fun e => Tame plan.buses e.after)
      (onRegisters ceiling (afterReset plan)) p (fun _ q => Tame plan.buses q) := by
  refine .afterReset (A := Idling) (B := Idling) (C := fun _ => Idling)
    (D := fun _ _ => Tame plan.buses) ?_ ?_ ?_ ?_ ?_
  · exact (initialise_idling ht ceiling hp).weaken (fun _ he => .inl he)
  · exact fun q hq => (installStubs_idling ht hq).weaken (fun _ he => .inl he)
  · exact fun q hq => (configureOscillators_idling ht hmax hq).weaken (fun _ he => .inl he)
  · exact fun _ q hq => configureBusClocks_tame ht hhclk hpclk1 hpclk2 hq
  · exact fun _ _ q hq => (configurePeripheralClocks_tame ht plan.peripherals hq).imp
      fun _ _ hu _ _ _ _ _ => hu

end Steps

/-- The bring-up never overclocks the part. Take any plan that the check
accepts, that runs the core at the board's frequency and that names the core
and both peripheral buses, and any part without stuck bits, in any state and
with flags that take any time, or never follow. Then the bring-up comes to its
end, and the part is within its limits when the clocks have been reset and in
every state after that, whichever steps fail. -/
theorem bringUp_withinLimits {t : Temper} (ht : t.Unlatched) (patience : Nat)
    (ceiling : Log.Ceiling) {plan : Plan} {rates : Rates} (hcheck : plan.check = .ok rates)
    (hcore : plan.rates.sysclk = coreHz) (hhclk : plan.buses.named.names .hclk = true)
    (hpclk1 : plan.buses.named.names .pclk1 = true)
    (hpclk2 : plan.buses.named.names .pclk2 = true) (p : Part) :
    ∃ q resetLog platform last log later,
      resetPart.run ((simulated t).handler patience) p = ⟨.ok (), q, resetLog⟩ ∧
      (onRegisters ceiling (bringUp plan)).run ((simulated t).handler patience) p =
        ⟨.ok platform, last, log⟩ ∧
      (onRegisters ceiling (bringUp plan)).history (simulated t) patience p =
        resetPart.history (simulated t) patience p ++ later ∧
      q.WithinLimits ∧ ∀ e ∈ later, e.after.WithinLimits := by
  have hplan := Plan.withinLimits_of_check hcheck
  have hmax : ∀ s, plan.oscillators.pll = some s →
      s.source.hz plan.oscillators.hseDivider * s.multiplier.toNat ≤ coreHz := by
    intro s hs
    obtain ⟨_, s', hs', hrate⟩ := Plan.pll_of_coreHz hcore
    rw [hs] at hs'
    cases hs'
    exact Nat.le_of_eq hrate
  have htame : ∀ {u : Part}, Tame plan.buses u → u.WithinLimits :=
    fun h => h.withinLimits hplan hcore
  have hreset : Ensures (simulated t) patience (fun _ => True) resetPart p
      (fun _ q => Idling q) :=
    (resetPart_ensures ht p).imp fun _ _ hq => Idling.of_tree hq.2.1
  have hafter : ∀ q, Idling q → Ensures (simulated t) patience
      (fun e => Tame plan.buses e.after) (onRegisters ceiling (afterReset plan)) q
      (fun _ u => Tame plan.buses u) :=
    fun q hq => afterReset_tame ht hmax hhclk hpclk1 hpclk2 hq
  have hwhole : Ensures (simulated t) patience (fun _ => True)
      (onRegisters ceiling (bringUp plan)) p (fun _ _ => True) :=
    .bringUp hcore hreset fun q hq =>
      (hafter q hq).unguarded.imp (fun _ _ _ => trivial)
  obtain ⟨_, _, q, resetLog, hrun, hidle⟩ := hreset
  obtain ⟨_, platform, last, log, hplatform, _⟩ := hwhole
  refine ⟨q, resetLog, platform, last, log, _, hrun, hplatform, bringUp_history hcore hrun,
    hidle.withinLimits, ?_⟩
  intro e he
  exact htame ((hafter q hidle).guarded e he)

/-- The board's plan on a part at power-on. -/
theorem bringUp_withinLimits_board :
    ∃ rates q resetLog later, Plan.board.check = .ok rates ∧
      Plan.board.rates.sysclk = coreHz ∧
      resetPart.run ((simulated .prompt).handler 0) (.powerOn Part.bootVector) =
        ⟨.ok (), q, resetLog⟩ ∧
      (onRegisters .all (bringUp .board)).history (simulated .prompt) 0
          (.powerOn Part.bootVector) =
        resetPart.history (simulated .prompt) 0 (.powerOn Part.bootVector) ++ later ∧
      q.WithinLimits ∧ ∀ e ∈ later, e.after.WithinLimits := by
  have hcheck : Plan.board.check = .ok Plan.board.rates := by rfl
  have hcore : Plan.board.rates.sysclk = coreHz := by decide
  obtain ⟨q, resetLog, _, _, _, later, hreset, _, hhistory, hq, hlater⟩ :=
    bringUp_withinLimits Temper.prompt_unlatched 0 .all hcheck hcore (by decide) (by decide)
      (by decide) (.powerOn Part.bootVector)
  exact ⟨_, q, resetLog, later, hcheck, hcore, hreset, hhistory, hq, hlater⟩

end BringUp
