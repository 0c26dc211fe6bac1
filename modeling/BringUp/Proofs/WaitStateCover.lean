import BringUp.Proofs.GearChanges

/-!
The wait states of the flash on the way to other bus clocks.

* `Part.Covered`: the flash keeps up with the core.
* `BusPlan.CoversAfter`: it does so where the plan aims.
* `BusPlan.CoversBetween`: it does so once the core's divider is set, with the
  system clock still running from the old source.

Main statement: from a covered part, with a plan that names all bus clocks and
is covered where it aims, every state that the configuration passes through is
covered if and only if the step in between is
(`configureBusClocks_covered_iff`).

That step is between neither of the two ends. A plan for a slower source may do
with a smaller divider and with fewer wait states, and the divider is set while
the old source is still in use (`slower_source_uncovered`).
-/

namespace BringUp

open Clock Hardware

/-- The flash has the wait states that it needs at the core's rate. -/
def Part.Covered (p : Part) : Prop :=
  (WaitStates.needed p.rates.hclk).count ≤ p.waitStates.count

instance (p : Part) : Decidable p.Covered :=
  inferInstanceAs (Decidable (_ ≤ _))

namespace Clock.BusPlan

/-- The plan has the wait states that the flash needs where it aims. -/
def CoversAfter (b : BusPlan) (p : Part) : Prop :=
  (WaitStates.needed (Rates.ofRegisters (b.target (p.peek .cfgr)) (p.peek .bdcr)).hclk).count ≤
    b.waitStates.count

/-- The wait states of the part or those of the plan are enough for the part's
source with the plan's divider. -/
def CoversBetween (b : BusPlan) (p : Part) : Prop :=
  (WaitStates.needed (p.rates.sysclk / b.ahb.divisor)).count ≤
    max p.waitStates.count b.waitStates.count

instance (b : BusPlan) (p : Part) : Decidable (b.CoversAfter p) :=
  inferInstanceAs (Decidable (_ ≤ _))

instance (b : BusPlan) (p : Part) : Decidable (b.CoversBetween p) :=
  inferInstanceAs (Decidable (_ ≤ _))

/-- Where the plan aims, the core is as fast as after the switch. -/
theorem hclk_target (b : BusPlan) {p : Part} (hp : p.Settled) :
    (Rates.ofRegisters (b.target (p.peek .cfgr)) (p.peek .bdcr)).hclk =
      (b.switched p.gearing).hclk := by
  rw [Cfgr.gearing_hclk, b.gearing_target hp, ← b.hclk_set2, b.set2_eq]
  rfl

end Clock.BusPlan

theorem Part.covered_iff (p : Part) :
    p.Covered ↔ (WaitStates.needed p.gearing.hclk).count ≤ p.waitStates.count := by
  rw [Covered, p.rates_hclk]

theorem Part.rates_sysclk (p : Part) : p.rates.sysclk = p.gearing.sysclk :=
  (Cfgr.gearing_sysclk _).symm

namespace Hardware

variable {b : BusPlan} {p q : Part}

/-- With the step in between, everything on the way is covered. -/
theorem OnWay.covered (hhclk : b.named.names .hclk = true) (hp : p.Settled) (hstart : p.Covered)
    (hafter : b.CoversAfter p) (hbetween : b.CoversBetween p) (h : OnWay b p q) : q.Covered := by
  rw [Part.covered_iff] at hstart ⊢
  rw [BusPlan.CoversAfter, b.hclk_target hp] at hafter
  rw [BusPlan.CoversBetween, p.rates_sysclk, ← b.hclk_divided] at hbetween
  cases h with
  | raising hgearing hws =>
      rw [hgearing]
      exact Nat.le_trans hstart hws
  | dividing _ hgearing hws =>
      rw [hws]
      rcases hgearing with h | h | h | h <;> rw [h]
      · exact Nat.le_trans hstart (Nat.le_max_left _ _)
      · rw [b.hclk_slowed1]
        exact Nat.le_trans hstart (Nat.le_max_left _ _)
      · rw [b.hclk_slowed2]
        exact Nat.le_trans hstart (Nat.le_max_left _ _)
      · exact hbetween
  | waiting hgearing hws =>
      rw [hgearing, hws, BusPlan.beforeSwitch, if_pos hhclk]
      exact hbetween
  | lowering _ hgearing hws =>
      rw [hgearing]
      exact Nat.le_trans hafter hws
  | setting _ hgearing hws =>
      rw [hws]
      rcases hgearing with h | h | h <;> rw [h]
      · exact hafter
      · rw [b.hclk_set1]
        exact hafter
      · rw [b.hclk_set2]
        exact hafter

end Hardware

/-- When the wait states cover the core's rate all the way. Take any part
without stuck bits whose system clock runs from the requested source and whose
wait states cover the core's rate, and any plan that names all bus clocks and
covers the rate that it aims at. The configuration comes to a result, a success
or an error, whatever the flags do. Every state on the way and the last one are
covered if and only if the planned divider is covered with the old source. -/
theorem configureBusClocks_covered_iff {t : Temper} (ht : t.Unlatched) (patience : Nat)
    {b : BusPlan} (hnamed : ∀ clock, b.named.names clock = true) {p : Part} (hp : p.Settled)
    (hstart : p.Covered) (hafter : b.CoversAfter p) :
    ∃ result q log,
      (configureBusClocks b).run.run ((simulated t).handler patience) p =
        ⟨.ok result, q, log⟩ ∧
      ((∀ e ∈ (configureBusClocks b).run.history (simulated t) patience p, e.after.Covered) ∧
        q.Covered ↔ b.CoversBetween p) := by
  have honway : Ensures (simulated t) patience _ (configureBusClocks b).run p _ :=
    configureBusClocks_onWay ht b hp
  have hprepared : Ensures (simulated t) patience _ (prepareSwitch b).run p _ :=
    prepareSwitch_onWay ht b hp
  obtain ⟨hway, result, q, log, hrun, hend⟩ := honway
  refine ⟨result, q, log, hrun, fun hcovered => ?_, fun hbetween => ⟨fun e he => ?_, ?_⟩⟩
  · -- the steps before the switch leave the part behind with the divider set
    obtain ⟨-, _, u, log', hprepare, rfl, hu⟩ := hprepared
    have hway := hcovered.1
    rw [configureBusClocks_eq_prepare] at hway
    have hbefore : u.Covered := Setup.holds_between hstart hway hprepare
    rw [Part.covered_iff, hu.gearing, hu.waitStates, BusPlan.beforeSwitch, if_pos (hnamed .hclk),
      b.hclk_divided, ← p.rates_sysclk] at hbefore
    exact hbefore
  · exact (hway e he).covered (hnamed .hclk) hp hstart hafter hbetween
  · exact hend.covered (hnamed .hclk) hp hstart hafter hbetween

/-- A part that runs the system clock from the PLL, and the core at an eighth
of its rate, without wait states. -/
def Part.onPllEighth : Part :=
  onPll.poke .cfgr 0x001D00AA

/-- The board's plan speeds such a part up. -/
theorem configureBusClocks_covered_board :
    Part.onPllEighth.Settled ∧ Part.onPllEighth.Covered ∧
    ∃ result q log,
      (configureBusClocks Plan.board.buses).run.run ((simulated .prompt).handler 0)
        .onPllEighth = ⟨.ok result, q, log⟩ ∧
      (∀ e ∈ (configureBusClocks Plan.board.buses).run.history (simulated .prompt) 0
        .onPllEighth, e.after.Covered) ∧ q.Covered := by
  have hsettled : Part.onPllEighth.Settled := by decide +kernel
  have hcovered : Part.onPllEighth.Covered := by decide +kernel
  have hnamed : ∀ clock, Plan.board.buses.named.names clock = true := by
    rintro (_ | _ | _ | _) <;> rfl
  obtain ⟨result, q, log, hrun, hiff⟩ := configureBusClocks_covered_iff Temper.prompt_unlatched 0
    hnamed hsettled hcovered (by decide +kernel)
  exact ⟨hsettled, hcovered, result, q, log, hrun, hiff.mpr (by decide +kernel)⟩

/-- The internal oscillator, undivided, without wait states. -/
def Clock.BusPlan.plainHsi : BusPlan where
  named := Plan.board.buses.named
  sysclk := .hsi
  ahb := .div1
  apb1 := .div1
  apb2 := .div1
  waitStates := .ws0

/-- From the PLL at 72 MHz over eight to the internal oscillator at 8 MHz, both
ends are covered without a wait state. In between the core runs at 72 MHz. -/
theorem slower_source_uncovered :
    Temper.prompt.Unlatched ∧ (∀ clock, BusPlan.plainHsi.named.names clock = true) ∧
    Part.onPllEighth.Settled ∧ Part.onPllEighth.Covered ∧
    BusPlan.plainHsi.CoversAfter .onPllEighth ∧
    ∃ e ∈ (configureBusClocks .plainHsi).run.history (simulated .prompt) 0 .onPllEighth,
      e.after.rates.hclk = coreHz ∧ ¬e.after.Covered := by
  refine ⟨Temper.prompt_unlatched, ?_, by decide +kernel, by decide +kernel, by decide +kernel,
    by decide +kernel⟩
  rintro (_ | _ | _ | _) <;> rfl

end BringUp
