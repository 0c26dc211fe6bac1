import BringUp.Proofs.BusClocks
import BringUp.Proofs.Oscillators
import BringUp.Proofs.PeripheralClocks
import BringUp.Proofs.RegisterPlans
import BringUp.Proofs.ResetState
import BringUp.Proofs.Sequences

/-!
The rates that a successful bring-up leaves behind.

* `Plan.applied`: what of a plan reaches the registers: the fields of the
  clocks that it names, and the reset state of the others.
* `Carries plan p`: the registers of `p` hold the codes of the plan.

Main statements: after a bring-up that reached its target the part carries the
applied plan (`bringUp_carries`). If the plan names all clocks, then that is
the plan itself, and the part runs at the planned rates
(`bringUp_reaches_rates`).
-/

namespace BringUp

open Clock Board Hardware

namespace Clock

/-- The bus plan with the reset state for the clocks that it does not name. -/
def BusPlan.applied (b : BusPlan) : BusPlan :=
  { b with
    sysclk := if b.named.names .sysclk then b.sysclk else .hsi
    ahb := if b.named.names .hclk then b.ahb else .div1
    apb1 := if b.named.names .pclk1 then b.apb1 else .div1
    apb2 := if b.named.names .pclk2 then b.apb2 else .div1 }

/-- The same for the converter. The source of the real-time clock survives a
reset of the clocks, so there is no such state for it. -/
def PeripheralPlan.applied (r : PeripheralPlan) : PeripheralPlan :=
  { r with adc := if r.named.names .adc then r.adc else .div2 }

/-- What of the plan reaches the registers. -/
def Plan.applied (p : Plan) : Plan :=
  { p with buses := p.buses.applied, peripherals := p.peripherals.applied }

/-- A plan that names everything is applied as it is. -/
theorem Plan.applied_of_names {p : Plan} (hsysclk : p.buses.named.names .sysclk = true)
    (hhclk : p.buses.named.names .hclk = true) (hpclk1 : p.buses.named.names .pclk1 = true)
    (hpclk2 : p.buses.named.names .pclk2 = true)
    (hadc : p.peripherals.named.names .adc = true) : p.applied = p := by
  simp only [applied, BusPlan.applied, PeripheralPlan.applied, hsysclk, hhclk, hpclk1, hpclk2,
    hadc, if_true]

end Clock

/-! ## Carrying a plan -/

/-- The registers hold the codes of the plan, and the system clock runs at the
planned rate. -/
structure Carries (plan : Plan) (p : Part) : Prop where
  sysclk : Cfgr.sysclkHz (p.peek .cfgr) = plan.rates.sysclk
  ahb : Cfgr.hpre.get (p.peek .cfgr) = plan.buses.ahb.code
  apb1 : Cfgr.ppre1.get (p.peek .cfgr) = plan.buses.apb1.code
  apb2 : Cfgr.ppre2.get (p.peek .cfgr) = plan.buses.apb2.code
  adc : Cfgr.adcpre.get (p.peek .cfgr) = plan.peripherals.adc.code
  waitStates : p.waitStates = plan.buses.waitStates

/-- A part that carries a plan runs at the planned rates. The real-time clock
has a register of its own. -/
theorem Carries.rates {plan : Plan} {p : Part} (h : Carries plan p) :
    p.rates = { plan.rates with rtc := Bdcr.rtcHz (p.peek .bdcr) } := by
  have hsysclk : p.rates.sysclk = plan.rates.sysclk := h.sysclk
  have hhclk : p.rates.hclk = plan.rates.hclk := by
    show p.rates.sysclk / ahbDivisor _ = plan.rates.sysclk / plan.buses.ahb.divisor
    rw [hsysclk, h.ahb, ahbDivisor_code]
  have hpclk1 : p.rates.pclk1 = plan.rates.pclk1 := by
    show p.rates.hclk / apbDivisor _ = plan.rates.hclk / plan.buses.apb1.divisor
    rw [hhclk, h.apb1, apbDivisor_code]
  have hpclk2 : p.rates.pclk2 = plan.rates.pclk2 := by
    show p.rates.hclk / apbDivisor _ = plan.rates.hclk / plan.buses.apb2.divisor
    rw [hhclk, h.apb2, apbDivisor_code]
  have hadc : p.rates.adc = plan.rates.adc := by
    show p.rates.pclk2 / (2 * ((Cfgr.adcpre.get (p.peek .cfgr)).toNat + 1)) =
      plan.rates.pclk2 / plan.peripherals.adc.divisor
    rw [hpclk2, h.adc, AdcDivider.divisor_eq]
  dsimp only
  rw [← hsysclk, ← hhclk, ← hpclk1, ← hpclk2, ← hadc]
  rfl

/-! ## On the way to the plan -/

/-- On the planned source, the system clock runs at the planned rate. -/
theorem OnSource.sysclkHz_eq {plan : Plan} {p : Part} (hs : OnSource plan.buses.sysclk p)
    (hpll : PllSet plan.oscillators p)
    (hsome : plan.buses.sysclk = .pll → plan.oscillators.pll ≠ none) :
    Cfgr.sysclkHz (p.peek .cfgr) = plan.rates.sysclk := by
  show Cfgr.sysclkHz (p.peek .cfgr) = plan.source.1 * plan.source.2
  obtain ⟨hrunning, -⟩ := hs
  unfold Plan.source
  cases hsource : plan.buses.sysclk with
  | hsi => rw [Cfgr.sysclkHz_of_hsi (hrunning.trans hsource), Nat.mul_one]
  | hse => rw [Cfgr.sysclkHz_of_hse (hrunning.trans hsource), Nat.mul_one]
  | pll =>
      cases hwanted : plan.oscillators.pll with
      | none => exact absurd hwanted (hsome hsource)
      | some s =>
          obtain ⟨hrange, hcode⟩ := hpll s hwanted
          rw [Cfgr.sysclkHz_of_pll (hrunning.trans hsource)]
          exact Cfgr.pllHz_of_code hcode hrange

/-- The source and the dividers of all clocks. -/
def Clock.Cfgr.divisions : Word :=
  sw.mask ||| hpre.mask ||| ppre1.mask ||| ppre2.mask ||| adcpre.mask

/-- Before the bus clocks are configured: no source is requested and no divider
is set. The internal oscillator is in use if the plan does not name the system
clock. -/
structure Cleared (plan : BusPlan) (outOfReset : Prop) (p : Part) : Prop where
  divisions : Word.AgreeOn Cfgr.divisions (p.peek .cfgr) 0
  source : plan.named.names .sysclk = false → OnSource .hsi p
  backup : outOfReset → p.NoDomainReset

/-- After the bus clocks have been configured. -/
structure BusesCarry (plan : BusPlan) (outOfReset : Prop) (p : Part) : Prop where
  source : OnSource plan.applied.sysclk p
  ahb : Cfgr.hpre.get (p.peek .cfgr) = plan.applied.ahb.code
  apb1 : Cfgr.ppre1.get (p.peek .cfgr) = plan.applied.apb1.code
  apb2 : Cfgr.ppre2.get (p.peek .cfgr) = plan.applied.apb2.code
  adc : Cfgr.adcpre.get (p.peek .cfgr) = 0
  waitStates : p.waitStates = plan.waitStates
  backup : outOfReset → p.NoDomainReset

theorem Cleared.of_confined {plan : BusPlan} {outOfReset : Prop} {m : Footprint} {p q : Part}
    (h : Confined m p q) (hs : m .cfgr &&& (Cfgr.sw.mask ||| Cfgr.sws.mask) = 0)
    (hd : m .cfgr &&& Cfgr.divisions = 0) (hb : (m .bdcr).getLsbD 16 = false)
    (hp : Cleared plan outOfReset p) : Cleared plan outOfReset q where
  divisions :=
    (h.agreeOn_open Register.cfgr_open (Word.or_and_eq_zero hd (by decide))).trans hp.divisions
  source := fun hoff => (hp.source hoff).of_confined h hs
  backup := fun hout => h.noDomainReset hb (hp.backup hout)

/-- A named divider holds the planned code; one that is not named is still
cleared. -/
theorem Cleared.divided_eq {plan : BusPlan} {outOfReset : Prop} {p : Part}
    (hp : Cleared plan outOfReset p) {f : Field} (hf : f.mask &&& Cfgr.divisions = f.mask)
    (named : Bool) (code : Word) : divided f named code p = if named then code else 0 := by
  have hzero : f.get (p.peek .cfgr) = 0 := by
    rw [hp.divisions.get hf, Field.get]
    simp
  rw [divided, hzero]

theorem AhbDivider.code_ite (named : Bool) (d : AhbDivider) :
    (if named then d else .div1).code = if named then d.code else 0 := by
  cases named <;> rfl

theorem ApbDivider.code_ite (named : Bool) (d : ApbDivider) :
    (if named then d else .div1).code = if named then d.code else 0 := by
  cases named <;> rfl

theorem AdcDivider.code_ite (named : Bool) (d : AdcDivider) :
    (if named then d else .div2).code = if named then d.code else 0 := by
  cases named <;> rfl

/-- The bus clocks of a cleared part come to the applied plan. -/
theorem Hardware.BusesSet.carry {plan : BusPlan} {outOfReset : Prop} {p q : Part}
    (hp : Cleared plan outOfReset p) (h : Confined (.buses plan.named) p q)
    (hset : BusesSet plan p q) : BusesCarry plan outOfReset q := by
  refine ⟨?_, ?_, ?_, ?_, ?_, hset.waitStates, ?_⟩
  · cases hnamed : plan.named.names .sysclk with
    | true =>
        obtain ⟨hsw, hsettled⟩ := hset.source hnamed
        have hsource : plan.applied.sysclk = plan.sysclk := by
          simp only [BusPlan.applied, hnamed, if_true]
        rw [hsource]
        refine ⟨?_, ?_⟩
        · rw [Cfgr.running, ← hsettled, hsw, SysclkSource.ofCode_code]
        · rw [Cfgr.requested, hsw, SysclkSource.ofCode_code]
    | false =>
        have hsource : plan.applied.sysclk = .hsi := by
          simp only [BusPlan.applied, hnamed, Bool.false_eq_true, if_false]
        rw [hsource]
        refine (hp.source hnamed).of_confined h ?_
        simp only [Footprint.buses, hnamed]
        decide
  · rw [hset.hpre, hp.divided_eq (by decide)]
    exact (AhbDivider.code_ite _ _).symm
  · rw [hset.ppre1, hp.divided_eq (by decide)]
    exact (ApbDivider.code_ite _ _).symm
  · rw [hset.ppre2, hp.divided_eq (by decide)]
    exact (ApbDivider.code_ite _ _).symm
  · have hkept : Cfgr.adcpre.get (q.peek .cfgr) = Cfgr.adcpre.get (p.peek .cfgr) := by
      refine h.get_cfgr ?_
      simp only [Footprint.buses]
      split <;> decide
    rw [hkept, hp.divisions.get (by decide)]
    decide
  · exact fun hout => h.noDomainReset (by simp [Footprint.buses]) (hp.backup hout)

/-- The peripheral clocks complete what the plan comes to. -/
theorem BusesCarry.carries {plan : Plan} {outOfReset : Prop} {p q : Part}
    (hpll : PllSet plan.oscillators p)
    (hsome : plan.buses.sysclk = .pll → plan.oscillators.pll ≠ none)
    (hp : BusesCarry plan.buses outOfReset p) (h : Confined .peripherals p q)
    (hset : PeripheralsSet plan.peripherals p q) : Carries plan.applied q := by
  have hsource : OnSource plan.applied.buses.sysclk q := hp.source.of_confined h (by decide)
  have hpll' : PllSet plan.oscillators q := by
    intro s hs
    rw [h.pllSetting_eq (by decide)]
    exact hpll s hs
  refine ⟨?_, ?_, ?_, ?_, ?_, ?_⟩
  · refine hsource.sysclkHz_eq hpll' ?_
    show plan.buses.applied.sysclk = .pll → plan.oscillators.pll ≠ none
    unfold BusPlan.applied
    dsimp only
    split
    · exact hsome
    · exact fun h => by cases h
  · rw [h.get_cfgr (by decide)]
    exact hp.ahb
  · rw [h.get_cfgr (by decide)]
    exact hp.apb1
  · rw [h.get_cfgr (by decide)]
    exact hp.apb2
  · rw [hset.adc, hp.adc]
    exact (AdcDivider.code_ite _ _).symm
  · rw [h.waitStates_eq (by decide)]
    exact hp.waitStates

/-! ## The bring-up -/

theorem Board.succeeded_iff (result : SetupResult) :
    succeeded result = true ↔ result = .ok () := by
  cases result <;> simp [succeeded]

/-- The target is reached if and only if the three clock steps succeeded. -/
theorem Board.Report.targetReached_iff (r : Report) :
    r.targetReached = true ↔
      r.oscillators = .ok () ∧ r.busClocks = .ok () ∧ r.peripheralClocks = .ok () := by
  simp only [targetReached, Bool.and_eq_true, succeeded_iff, and_assoc]

section Steps

variable {t : Temper} (ht : t.Unlatched) {patience : Nat}

/-- A driver that touches neither the source nor a divider leaves the part
cleared. -/
theorem Cleared.keeps {plan : BusPlan} {outOfReset : Prop} {α : Type} {m : Footprint}
    {x : Driver α} (hx : Confines t patience m x)
    (hs : m .cfgr &&& (Cfgr.sw.mask ||| Cfgr.sws.mask) = 0)
    (hd : m .cfgr &&& Cfgr.divisions = 0) (hb : (m .bdcr).getLsbD 16 = false) {p : Part}
    (hp : Cleared plan outOfReset p) :
    Ensures (simulated t) patience (fun _ => True) x p
      (fun _ q => Cleared plan outOfReset q) :=
  (hx p).unguarded.imp (fun _ _ hq => hp.of_confined hq hs hd hb)

include ht in
/-- From a cleared part on, a bring-up that reaches its target leaves a part
that carries the applied plan. -/
theorem afterReset_carries {plan : Plan} {ceiling : Log.Ceiling} {outOfReset : Prop}
    (hsome : plan.buses.sysclk = .pll → plan.oscillators.pll ≠ none) {p : Part}
    (hp : Cleared plan.buses outOfReset p) :
    Ensures (simulated t) patience (fun _ => True) (onRegisters ceiling (afterReset plan)) p
      (fun platform q => platform.rates = plan.rates ∧
        (platform.report.targetReached = true → Carries plan.applied q ∧
          (plan.peripherals.named.names .rtc = true → outOfReset →
            Bdcr.rtcSource.get (q.peek .bdcr) = plan.peripherals.rtc.code))) := by
  refine .afterReset (A := Cleared plan.buses outOfReset) (B := Cleared plan.buses outOfReset)
    (C := fun r q => Cleared plan.buses outOfReset q ∧
      (r = .ok () → PllSet plan.oscillators q))
    (D := fun r r' q => (r = .ok () → PllSet plan.oscillators q) ∧
      (r' = .ok () → BusesCarry plan.buses outOfReset q)) ?_ ?_ ?_ ?_ ?_
  · exact hp.keeps (initialise_confines ht patience ceiling) (by decide) (by decide) (by decide)
  · intro q hq
    exact hq.keeps (installStubs_confines ht patience) (by decide) (by decide) (by decide)
  · intro q hq
    refine (configureOscillators_ensures ht plan.oscillators q).imp ?_
    exact fun _ u hu => ⟨hq.of_confined hu.1 (by decide) (by decide) (by decide), hu.2⟩
  · intro r q hafter
    obtain ⟨hq, hpll⟩ := hafter
    refine (configureBusClocks_ensures ht plan.buses q).imp ?_
    intro r' u hbus
    obtain ⟨hu, hset⟩ := hbus
    refine ⟨fun hok s hs => ?_, fun hok => (hset hok).carry hq hu⟩
    have hkept : u.pllSetting = q.pllSetting := by
      refine hu.pllSetting_eq ?_
      simp only [Footprint.buses]
      split <;> decide
    rw [hkept]
    exact hpll hok s hs
  · intro r r' q hafter
    obtain ⟨hpll, hbuses⟩ := hafter
    refine (configurePeripheralClocks_ensures ht plan.peripherals q).imp ?_
    rintro r'' u ⟨hu, hset⟩ platform hrates rfl rfl rfl
    refine ⟨hrates, fun hreached => ?_⟩
    obtain ⟨hok, hok', hok''⟩ := (Report.targetReached_iff _).mp hreached
    have hcarry := hbuses hok'
    refine ⟨hcarry.carries (hpll hok) hsome hu (hset hok''), fun hnamed hout => ?_⟩
    exact (hset hok'').rtc hnamed (hcarry.backup hout)

end Steps

/-- What a bring-up that reaches its target leaves behind. If the plan does not
name the system clock, the part has to run from the internal oscillator to
begin with, with no switch under way. -/
theorem bringUp_carries {t : Temper} (ht : t.Unlatched) (patience : Nat)
    (ceiling : Log.Ceiling) {plan : Plan} (hcore : plan.rates.sysclk = coreHz) {p : Part}
    (hsource : plan.buses.named.names .sysclk = true ∨
      Cfgr.running (p.peek .cfgr) = .hsi ∧ p.pending.get .sysclk = 0) :
    Ensures (simulated t) patience (fun _ => True) (onRegisters ceiling (bringUp plan)) p
      (fun platform q => platform.rates = plan.rates ∧
        (platform.report.targetReached = true → Carries plan.applied q ∧
          (plan.peripherals.named.names .rtc = true → p.NoDomainReset →
            Bdcr.rtcSource.get (q.peek .bdcr) = plan.peripherals.rtc.code))) := by
  have hsome : plan.buses.sysclk = .pll → plan.oscillators.pll ≠ none := by
    intro _ hnone
    obtain ⟨_, s, hs, _⟩ := Plan.pll_of_coreHz hcore
    rw [hnone] at hs
    cases hs
  refine .bringUp hcore (R := Cleared plan.buses p.NoDomainReset) ?_
    (fun q hq => afterReset_carries ht hsome hq)
  refine (resetPart_ensures ht p).imp ?_
  intro _ q hq
  obtain ⟨hq, htree, hhsi⟩ := hq
  refine ⟨htree.mono (by decide), fun hoff => ?_, fun hout => hq.noDomainReset (by decide) hout⟩
  rcases hsource with hnamed | ⟨hrunning, hquiet⟩
  · rw [hnamed] at hoff
    cases hoff
  · exact hhsi hrunning hquiet

/-- When the bring-up succeeds, the part runs the plan. Take any plan that
names all bus clocks, the real-time clock and the converter, and any part
without stuck bits whose backup domain is not held in reset, in any state and
with flags that take any time, or never follow. If the three clock steps report
success, then the rates read back from the registers are the planned ones. -/
theorem bringUp_reaches_rates {t : Temper} (ht : t.Unlatched) {patience : Nat}
    {ceiling : Log.Ceiling} {plan : Plan} (hsysclk : plan.buses.named.names .sysclk = true)
    (hhclk : plan.buses.named.names .hclk = true)
    (hpclk1 : plan.buses.named.names .pclk1 = true)
    (hpclk2 : plan.buses.named.names .pclk2 = true)
    (hrtc : plan.peripherals.named.names .rtc = true)
    (hadc : plan.peripherals.named.names .adc = true) {p q : Part} (hp : p.NoDomainReset)
    {platform : Platform} {log : List Log.Record}
    (hrun : (onRegisters ceiling (bringUp plan)).run ((simulated t).handler patience) p =
      ⟨.ok platform, q, log⟩)
    (hreached : platform.report.targetReached = true) :
    ∃ last, liveRates.run ((simulated t).handler patience) q =
      ⟨.ok platform.rates, last, []⟩ := by
  by_cases hcore : plan.rates.sysclk = coreHz
  · obtain ⟨_, platform', q', log', hrun', hrates, hplan⟩ :=
      bringUp_carries ht patience ceiling hcore (p := p) (.inl hsysclk)
    rw [hrun] at hrun'
    cases hrun'
    obtain ⟨hcarries, hsource⟩ := hplan hreached
    rw [Plan.applied_of_names hsysclk hhclk hpclk1 hpclk2 hadc] at hcarries
    have hlive : q.rates = platform.rates := by
      rw [hcarries.rates, RtcSource.rtcHz_eq (hsource hrtc hp), hrates]
      rfl
    rw [liveRates_run, hlive]
    exact ⟨_, rfl⟩
  · rw [bringUp_of_ne hcore] at hrun
    cases hrun

/-- The board's plan reaches its target on a part at power-on. -/
theorem bringUp_board_targetReached :
    ((onRegisters .all (bringUp .board)).run ((simulated .prompt).handler 0)
      (.powerOn Part.bootVector)).outcome.toOption.any (·.report.targetReached) = true := by
  decide +kernel

/-- The board's plan on a part at power-on. -/
theorem bringUp_reaches_rates_board :
    ∃ platform q last log,
      (onRegisters .all (bringUp .board)).run ((simulated .prompt).handler 0)
        (.powerOn Part.bootVector) = ⟨.ok platform, q, log⟩ ∧
      platform.report.targetReached = true ∧
      liveRates.run ((simulated .prompt).handler 0) q = ⟨.ok platform.rates, last, []⟩ := by
  obtain ⟨platform, hrun, hreached⟩ := Run.result_of_any bringUp_board_targetReached
  obtain ⟨last, hlive⟩ := bringUp_reaches_rates Temper.prompt_unlatched (by decide)
    (by decide) (by decide) (by decide) (by decide) (by decide)
    (by rfl : (Part.powerOn Part.bootVector).NoDomainReset) hrun hreached
  exact ⟨platform, _, last, _, hrun, hreached, hlive⟩

end BringUp
