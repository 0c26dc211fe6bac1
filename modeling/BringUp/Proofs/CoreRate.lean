import BringUp.Proofs.PartLimits
import BringUp.Proofs.PlannedRates

/-!
The core's rate after a successful bring-up.

A bring-up compares the planned rate of the system clock with the board's core
frequency. The core runs from the clock behind the core's divider, and the
drivers only apply the clocks that the plan names.

* `Plan.drivesCore`: the plan names the system clock and does not divide it for
  the core.

Main statement: after a bring-up that reached its target, the core runs at the
board's frequency if and only if the plan drives the core
(`bringUp_hclk_eq_coreHz_iff`); a plan that divides the core's clock reaches its
target all the same (`divided_core_reaches_target`).
-/

namespace BringUp

open Clock Board Hardware

namespace Clock

/-- The plan names the system clock and does not divide it for the core. -/
def Plan.drivesCore (p : Plan) : Prop :=
  p.buses.named.names .sysclk = true ∧
    (p.buses.named.names .hclk = true → p.buses.ahb = .div1)

instance (p : Plan) : Decidable p.drivesCore :=
  inferInstanceAs (Decidable (_ ∧ _))

/-- Only an undivided core clock is as fast as the clock it comes from. -/
theorem AhbDivider.div_coreHz_iff (d : AhbDivider) :
    coreHz / d.divisor = coreHz ↔ d = .div1 := by
  cases d <;> decide

/-- A plan that names the system clock applies its rate. -/
theorem Plan.applied_sysclk {p : Plan} (h : p.buses.named.names .sysclk = true) :
    p.applied.rates.sysclk = p.rates.sysclk := by
  have hsource : p.applied.buses.sysclk = p.buses.sysclk := by
    simp only [applied, BusPlan.applied, h, if_true]
  show p.applied.source.1 * p.applied.source.2 = p.source.1 * p.source.2
  unfold source
  rw [hsource]
  rfl

/-- The applied plan of a named system clock at the core's frequency runs the
core at it if and only if the core's divider is not named or does not divide. -/
theorem Plan.applied_hclk_iff {p : Plan} (h : p.buses.named.names .sysclk = true)
    (hcore : p.rates.sysclk = coreHz) :
    p.applied.rates.hclk = coreHz ↔ p.drivesCore := by
  have hhclk : p.applied.rates.hclk = coreHz / p.applied.buses.ahb.divisor := by
    rw [← hcore, ← applied_sysclk h]
    rfl
  rw [hhclk, AhbDivider.div_coreHz_iff, drivesCore]
  cases hnamed : p.buses.named.names .hclk <;>
    simp [applied, BusPlan.applied, hnamed, h]

end Clock

/-- An idling part does not run the core at the board's frequency. -/
theorem Idling.hclk_lt {p : Part} (h : Idling p) : p.rates.hclk < coreHz := by
  have hsysclk : p.rates.sysclk = hsiHz := h.sysclk
  have hhclk : p.rates.hclk ≤ p.rates.sysclk := Nat.div_le_self _ _
  rw [hsysclk] at hhclk
  exact Nat.lt_of_le_of_lt hhclk (by decide)

section Steps

variable {t : Temper} (ht : t.Unlatched) {patience : Nat}

include ht in
/-- A plan that does not name the system clock leaves the part idling. -/
theorem afterReset_idling {plan : Plan} {ceiling : Log.Ceiling}
    (hmax : ∀ s, plan.oscillators.pll = some s →
      s.source.hz plan.oscillators.hseDivider * s.multiplier.toNat ≤ coreHz)
    (hoff : plan.buses.named.names .sysclk = false) {p : Part} (hp : Idling p) :
    Ensures (simulated t) patience (fun _ => True) (onRegisters ceiling (afterReset plan)) p
      (fun _ q => Idling q) := by
  refine .afterReset (A := Idling) (B := Idling) (C := fun _ => Idling)
    (D := fun _ _ => Idling) ?_ ?_ ?_ ?_ ?_
  · exact (initialise_idling ht ceiling hp).unguarded
  · exact fun q hq => (installStubs_idling ht hq).unguarded
  · exact fun q hq => (configureOscillators_idling ht hmax hq).unguarded
  · intro _ q hq
    refine (configureBusClocks_ensures ht plan.buses q).imp ?_
    intro _ u hu
    obtain ⟨hu, _⟩ := hu
    refine hq.of_confined hu ?_ ?_
    · simp only [Footprint.buses, hoff]
      decide
    · simp only [Footprint.buses, hoff]
      decide
  · intro _ _ q hq
    refine (configurePeripheralClocks_ensures ht plan.peripherals q).imp ?_
    intro _ u hu _ _ _ _ _
    exact hq.of_confined hu.1 (by decide) (by decide)

include ht in
/-- The same for the whole bring-up, from any state of the part. -/
theorem bringUp_idling {plan : Plan} {ceiling : Log.Ceiling} (hcore : plan.rates.sysclk = coreHz)
    (hoff : plan.buses.named.names .sysclk = false) (p : Part) :
    Ensures (simulated t) patience (fun _ => True) (onRegisters ceiling (bringUp plan)) p
      (fun _ q => Idling q) := by
  have hmax : ∀ s, plan.oscillators.pll = some s →
      s.source.hz plan.oscillators.hseDivider * s.multiplier.toNat ≤ coreHz := by
    intro s hs
    obtain ⟨_, s', hs', hrate⟩ := Plan.pll_of_coreHz hcore
    rw [hs] at hs'
    cases hs'
    exact Nat.le_of_eq hrate
  refine .bringUp hcore (R := Idling) ?_ (fun q hq => afterReset_idling ht hmax hoff hq)
  exact (resetPart_ensures ht p).imp fun _ _ hq => Idling.of_tree hq.2.1

end Steps

/-- When the core runs at the board's frequency. Take any plan and any part
without stuck bits, in any state and with flags that take any time, or never
follow. If the bring-up comes to its end and the target is reached, then the
rates can be read back, and the core's is the board's frequency if and only if
the plan names the system clock and does not divide it for the core. -/
theorem bringUp_hclk_eq_coreHz_iff {t : Temper} (ht : t.Unlatched) {patience : Nat}
    {ceiling : Log.Ceiling} {plan : Plan} {p q : Part} {platform : Platform}
    {log : List Log.Record}
    (hrun : (onRegisters ceiling (bringUp plan)).run ((simulated t).handler patience) p =
      ⟨.ok platform, q, log⟩)
    (hreached : platform.report.targetReached = true) :
    ∃ live last, liveRates.run ((simulated t).handler patience) q = ⟨.ok live, last, []⟩ ∧
      (live.hclk = coreHz ↔ plan.drivesCore) := by
  refine ⟨q.rates, _, liveRates_run t patience q, ?_⟩
  by_cases hcore : plan.rates.sysclk = coreHz
  · cases hnamed : plan.buses.named.names .sysclk with
    | true =>
        obtain ⟨_, platform', q', log', hrun', _, hplan⟩ :=
          bringUp_carries ht patience ceiling hcore (p := p) (.inl hnamed)
        rw [hrun] at hrun'
        cases hrun'
        rw [(hplan hreached).1.rates]
        exact Plan.applied_hclk_iff hnamed hcore
    | false =>
        have hidling : Ensures (simulated t) patience (fun _ => True)
            (onRegisters ceiling (bringUp plan)) p (fun _ q => Idling q) :=
          bringUp_idling ht hcore hnamed p
        obtain ⟨_, platform', q', log', hrun', hidle⟩ := hidling
        rw [hrun] at hrun'
        cases hrun'
        constructor
        · exact fun h => absurd h (Nat.ne_of_lt hidle.hclk_lt)
        · rintro ⟨h, -⟩
          rw [hnamed] at h
          cases h
  · rw [bringUp_of_ne hcore] at hrun
    cases hrun

/-- The board's plan on a part at power-on. -/
theorem bringUp_hclk_board :
    ∃ platform q last live log,
      (onRegisters .all (bringUp .board)).run ((simulated .prompt).handler 0)
        (.powerOn Part.bootVector) = ⟨.ok platform, q, log⟩ ∧
      platform.report.targetReached = true ∧
      liveRates.run ((simulated .prompt).handler 0) q = ⟨.ok live, last, []⟩ ∧
      live.hclk = coreHz := by
  obtain ⟨platform, hrun, hreached⟩ := Run.result_of_any bringUp_board_targetReached
  obtain ⟨live, last, hlive, hiff⟩ :=
    bringUp_hclk_eq_coreHz_iff Temper.prompt_unlatched hrun hreached
  exact ⟨platform, _, last, live, _, hrun, hreached, hlive, hiff.mpr (by decide)⟩

/-- The board's plan with the core at half the rate of the system clock. -/
def Clock.Plan.boardHalved : Plan :=
  { Plan.board with buses := { Plan.board.buses with ahb := .div2 } }

/-- A plan that halves the core's clock passes the comparison with the board's
core frequency, is accepted by the check and reaches its target, and the core
runs at half of the frequency. -/
theorem divided_core_reaches_target :
    ∃ platform q last live log, Temper.prompt.Unlatched ∧
      Plan.boardHalved.check = .ok Plan.boardHalved.rates ∧
      (onRegisters .all (bringUp .boardHalved)).run ((simulated .prompt).handler 0)
        (.powerOn Part.bootVector) = ⟨.ok platform, q, log⟩ ∧
      platform.report.targetReached = true ∧
      liveRates.run ((simulated .prompt).handler 0) q = ⟨.ok live, last, []⟩ ∧
      live.hclk = coreHz / 2 ∧ live.hclk ≠ coreHz := by
  have htest : ((onRegisters .all (bringUp .boardHalved)).run ((simulated .prompt).handler 0)
      (.powerOn Part.bootVector)).outcome.toOption.any (·.report.targetReached) = true := by
    decide +kernel
  have hhclk : ((onRegisters .all (bringUp .boardHalved)).run ((simulated .prompt).handler 0)
      (.powerOn Part.bootVector)).state.rates.hclk = coreHz / 2 := by
    decide +kernel
  obtain ⟨platform, hrun, hreached⟩ := Run.result_of_any htest
  refine ⟨platform, _, _, _, _, Temper.prompt_unlatched, rfl, hrun, hreached,
    liveRates_run _ _ _, hhclk, ?_⟩
  rw [hhclk]
  decide

end BringUp
