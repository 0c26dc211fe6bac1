import BringUp.Proofs.PlannedRates

/-!
What the check of a plan says about the part that the plan is applied to.

The check looks at all dividers of a plan and at its source of the system
clock. The drivers apply the named ones only, on top of the reset state, so
what runs is the applied plan and not the checked one.

Main statements: after a bring-up whose clock steps all succeeded, the part is
within its limits if and only if the applied plan is
(`bringUp_live_withinLimits_iff`). That is so for an accepted plan that names
all bus clocks (`Plan.applied_withinLimits_of_names`) or leaves the system
clock alone (`Plan.applied_withinLimits_of_unnamed`), but not for every
accepted plan (`accepted_plan_exceeds_limit`).
-/

namespace BringUp

open Clock Board Hardware

namespace Clock

/-- A plan within the limits that names all bus clocks is so as it is
applied. -/
theorem Plan.applied_withinLimits_of_names {p : Plan} (h : p.WithinLimits)
    (hsysclk : p.buses.named.names .sysclk = true)
    (hhclk : p.buses.named.names .hclk = true) (hpclk1 : p.buses.named.names .pclk1 = true)
    (hpclk2 : p.buses.named.names .pclk2 = true) : p.applied.WithinLimits := by
  have hbuses : p.buses.applied = p.buses := by
    simp only [BusPlan.applied, hsysclk, hhclk, hpclk1, hpclk2, if_true]
  have hplan : p.applied = { p with peripherals := p.peripherals.applied } := by
    rw [applied, hbuses]
  rw [hplan]
  refine ⟨⟨h.buses.flash, h.buses.pclk1, h.buses.pclk2⟩, fun hadc => ?_⟩
  have hperipherals : p.peripherals.applied = p.peripherals := by
    have hnamed : p.peripherals.named.names .adc = true := hadc
    simp only [PeripheralPlan.applied, hnamed, if_true]
  rw [hperipherals] at hadc ⊢
  exact h.adc hadc

/-- A plan that does not name the system clock leaves the part on the internal
oscillator, which is slow enough for everything. -/
theorem Plan.applied_withinLimits_of_unnamed {p : Plan}
    (h : p.buses.named.names .sysclk = false) : p.applied.WithinLimits := by
  have hsysclk : p.applied.rates.sysclk = hsiHz := by
    have hsource : p.applied.buses.sysclk = .hsi := by
      simp only [applied, BusPlan.applied, h, Bool.false_eq_true, if_false]
    show p.applied.source.1 * p.applied.source.2 = hsiHz
    rw [source, hsource, Nat.mul_one]
  have hhclk : p.applied.rates.hclk ≤ hsiHz := by
    rw [← hsysclk]
    exact Nat.div_le_self _ _
  have hpclk2 : p.applied.rates.pclk2 ≤ p.applied.rates.hclk := Nat.div_le_self _ _
  have hadc : p.applied.rates.adc ≤ p.applied.rates.pclk2 := Nat.div_le_self _ _
  refine ⟨Rates.withinLimits_of_le hhclk (Nat.div_le_self _ _) hpclk2 _, fun _ => ?_⟩
  exact Nat.le_trans (Nat.le_trans hadc (Nat.le_trans hpclk2 hhclk)) (by decide)

end Clock

/-- A part that carries a plan is within the limits if and only if the plan
is. -/
theorem Carries.withinLimits_iff {plan : Plan} {p : Part} (h : Carries plan p) :
    (p.WithinLimits ∧
      (plan.peripherals.named.names .adc = true → p.rates.adc ≤ adcMaxHz)) ↔
      plan.WithinLimits := by
  unfold Part.WithinLimits
  rw [h.rates, h.waitStates]
  constructor
  · rintro ⟨⟨hflash, hpclk1, hpclk2⟩, hadc⟩
    exact ⟨⟨hflash, hpclk1, hpclk2⟩, hadc⟩
  · rintro ⟨⟨hflash, hpclk1, hpclk2⟩, hadc⟩
    exact ⟨⟨hflash, hpclk1, hpclk2⟩, hadc⟩

/-- When the limits hold after a bring-up. Take any plan that runs the core at
the board's frequency, and any part without stuck bits that runs from the
internal oscillator with no switch under way. Then the bring-up comes to its
end, the rates and the wait states can be read back, and if the three clock
steps succeeded, then they are within the limits if and only if those of the
applied plan are. -/
theorem bringUp_live_withinLimits_iff {t : Temper} (ht : t.Unlatched) (patience : Nat)
    (ceiling : Log.Ceiling) {plan : Plan} (hcore : plan.rates.sysclk = coreHz) {p : Part}
    (hsource : Cfgr.running (p.peek .cfgr) = .hsi) (hquiet : p.pending.get .sysclk = 0) :
    ∃ platform q last after log,
      (onRegisters ceiling (bringUp plan)).run ((simulated t).handler patience) p =
        ⟨.ok platform, q, log⟩ ∧
      liveRates.run ((simulated t).handler patience) q = ⟨.ok q.rates, last, []⟩ ∧
      Flash.waitStates.run ((simulated t).handler patience) last =
        ⟨.ok q.waitStates, after, []⟩ ∧
      (platform.report.oscillators = .ok () → platform.report.busClocks = .ok () →
        platform.report.peripheralClocks = .ok () →
        ((q.WithinLimits ∧
          (plan.peripherals.named.names .adc = true → q.rates.adc ≤ adcMaxHz)) ↔
          plan.applied.WithinLimits)) := by
  obtain ⟨_, platform, q, log, hrun, _, hplan⟩ :=
    bringUp_carries ht patience ceiling hcore (.inr ⟨hsource, hquiet⟩)
  have hwaitStates : ((q.tick .cfgr).tick .bdcr).waitStates = q.waitStates := by
    unfold Part.waitStates
    rw [Part.peek_tick_of_ne _ (by decide), Part.peek_tick_of_ne _ (by decide)]
  refine ⟨platform, q, (q.tick .cfgr).tick .bdcr, ((q.tick .cfgr).tick .bdcr).tick .acr, log,
    hrun, liveRates_run t patience q, ?_, ?_⟩
  · rw [waitStates_run, hwaitStates]
  · intro hosc hbus hper
    have hreached := (Report.targetReached_iff _).mpr ⟨hosc, hbus, hper⟩
    exact (hplan hreached).1.withinLimits_iff

/-- The board's plan on a part at power-on ends within the limits. -/
theorem bringUp_live_withinLimits_board :
    ∃ platform q last log,
      (onRegisters .all (bringUp .board)).run ((simulated .prompt).handler 0)
        (.powerOn Part.bootVector) = ⟨.ok platform, q, log⟩ ∧
      platform.report.targetReached = true ∧
      liveRates.run ((simulated .prompt).handler 0) q = ⟨.ok q.rates, last, []⟩ ∧
      q.WithinLimits ∧ q.rates.adc ≤ adcMaxHz := by
  have happlied : Plan.board.applied.WithinLimits :=
    ⟨⟨by decide, by decide, by decide⟩, fun _ => by decide⟩
  obtain ⟨platform, hrun, hreached⟩ := Run.result_of_any bringUp_board_targetReached
  obtain ⟨platform', q, last, _, log, hrun', hlive, _, hlimits⟩ :=
    bringUp_live_withinLimits_iff Temper.prompt_unlatched 0 .all
      (by decide : Plan.board.rates.sysclk = coreHz)
      (by rfl : Cfgr.running ((Part.powerOn Part.bootVector).peek .cfgr) = .hsi)
      (by rfl)
  rw [hrun'] at hrun
  cases hrun
  obtain ⟨hosc, hbus, hper⟩ := (Report.targetReached_iff _).mp hreached
  obtain ⟨hwithin, hadc⟩ := (hlimits hosc hbus hper).mpr happlied
  exact ⟨platform, q, last, log, hrun', hreached, hlive, hwithin, hadc (by decide)⟩

/-- The board's plan without the clock of the first peripheral bus among those
that it names. -/
def Clock.Plan.boardWithoutPclk1 : Plan :=
  { Plan.board with
    buses := { Plan.board.buses with named := .ofList [.sysclk, .hclk, .pclk2] } }

/-- The check accepts a plan that overclocks the first peripheral bus, and the
bring-up succeeds: the plan has the bus divided by 2, but does not name it. -/
theorem accepted_plan_exceeds_limit :
    ∃ platform q last log, Temper.prompt.Unlatched ∧
      Plan.boardWithoutPclk1.check = .ok Plan.boardWithoutPclk1.rates ∧
      Plan.boardWithoutPclk1.rates.sysclk = coreHz ∧
      Cfgr.running ((Part.powerOn Part.bootVector).peek .cfgr) = .hsi ∧
      (onRegisters .all (bringUp .boardWithoutPclk1)).run ((simulated .prompt).handler 0)
        (.powerOn Part.bootVector) = ⟨.ok platform, q, log⟩ ∧
      platform.report.oscillators = .ok () ∧ platform.report.busClocks = .ok () ∧
      platform.report.peripheralClocks = .ok () ∧
      liveRates.run ((simulated .prompt).handler 0) q = ⟨.ok q.rates, last, []⟩ ∧
      q.rates.pclk1 = 2 * pclk1MaxHz := by
  have htest : ((onRegisters .all (bringUp .boardWithoutPclk1)).run
      ((simulated .prompt).handler 0)
      (.powerOn Part.bootVector)).outcome.toOption.any (·.report.targetReached) = true := by
    decide +kernel
  have hpclk1 : ((onRegisters .all (bringUp .boardWithoutPclk1)).run
      ((simulated .prompt).handler 0)
      (.powerOn Part.bootVector)).state.rates.pclk1 = 2 * pclk1MaxHz := by
    decide +kernel
  obtain ⟨platform, hrun, hreached⟩ := Run.result_of_any htest
  obtain ⟨hosc, hbus, hper⟩ := (Report.targetReached_iff _).mp hreached
  exact ⟨platform, _, _, _, Temper.prompt_unlatched, rfl, by decide, rfl, hrun,
    hosc, hbus, hper, liveRates_run _ _ _, hpclk1⟩

end BringUp
