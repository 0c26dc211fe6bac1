import BringUp.Proofs.AcceptedPlans
import BringUp.Proofs.GearChanges

/-!
The peripheral buses on the way to other bus clocks.

* `Rates.BusesWithin`: the peripheral buses are within their limits.
* `Gearing.Slow`: their dividers are the largest. Then no source and no core
  divider is too fast for them.
* `BusPlan.SwitchServed`: the switch of the source finds dividers that serve
  the new source, too.

Main statement: from a part within the limits, with a plan that names both
peripheral buses and aims within the limits, every state that the configuration
passes through is within them if the switch is served, and on a part whose
flags follow in time, only then (`configureBusClocks_busesWithin`).

The buses are slowed down along with the core's divider only. A plan that
switches the source and leaves the core's divider alone leaves their dividers
alone as well, until after the switch (`switch_overshoots`).
-/

namespace BringUp

open Clock Hardware

/-- The peripheral buses are within their limits. -/
def Clock.Rates.BusesWithin (r : Rates) : Prop :=
  r.pclk1 ≤ pclk1MaxHz ∧ r.pclk2 ≤ pclk2MaxHz

instance (r : Rates) : Decidable r.BusesWithin :=
  inferInstanceAs (Decidable (_ ∧ _))

/-- The limit of a peripheral bus. -/
def Clock.PeripheralBus.maxHz : PeripheralBus → Nat
  | first => pclk1MaxHz
  | second => pclk2MaxHz

namespace Gearing

/-- The peripheral buses are within their limits. -/
def BusesWithin (g : Gearing) : Prop :=
  g.pclk1 ≤ pclk1MaxHz ∧ g.pclk2 ≤ pclk2MaxHz

instance (g : Gearing) : Decidable g.BusesWithin :=
  inferInstanceAs (Decidable (_ ∧ _))

/-- The PLL is no faster than it can be set to. -/
def Attainable (g : Gearing) : Prop :=
  g.pllHz ≤ hseHz * 16

/-- Both peripheral buses run at their slowest. -/
structure Slow (g : Gearing) : Prop where
  attainable : g.Attainable
  apb : ∀ bus, g.apb bus = ApbDivider.div16.divisor

variable {g : Gearing}

theorem Attainable.sysclk_le (h : g.Attainable) : g.sysclk ≤ hseHz * 16 := by
  unfold sysclk
  split
  · decide
  · decide
  · exact h

/-- No source and no divider of the core is too fast for the largest divider of
a bus. -/
theorem Attainable.slowest_le (h : g.Attainable) :
    g.hclk / ApbDivider.div16.divisor ≤ hseHz :=
  Nat.div_le_of_le_mul (Nat.mul_comm _ _ ▸ Nat.le_trans (Nat.div_le_self _ _) h.sysclk_le)

theorem Attainable.pclk_le (h : g.Attainable) (bus : PeripheralBus)
    (hslow : g.apb bus = ApbDivider.div16.divisor) : g.pclk bus ≤ bus.maxHz := by
  rw [pclk, hslow]
  refine Nat.le_trans h.slowest_le ?_
  cases bus <;> decide

theorem Slow.busesWithin (h : g.Slow) : g.BusesWithin :=
  ⟨h.attainable.pclk_le .first (h.apb .first), h.attainable.pclk_le .second (h.apb .second)⟩

theorem Slow.withSource (h : g.Slow) (source : SysclkSource) : (g.withSource source).Slow :=
  ⟨h.attainable, h.apb⟩

theorem Slow.withAhb (h : g.Slow) (divisor : Nat) : (g.withAhb divisor).Slow :=
  ⟨h.attainable, h.apb⟩

end Gearing

theorem Clock.Cfgr.busesWithin_iff (cfgr bdcr : Word) :
    (Rates.ofRegisters cfgr bdcr).BusesWithin ↔ (gearing cfgr).BusesWithin := by
  change (Rates.ofRegisters cfgr bdcr).pclk .first ≤ pclk1MaxHz ∧
    (Rates.ofRegisters cfgr bdcr).pclk .second ≤ pclk2MaxHz ↔ _
  rw [gearing_pclk, gearing_pclk]
  exact Iff.rfl

theorem Part.busesWithin_iff (p : Part) : p.rates.BusesWithin ↔ p.gearing.BusesWithin :=
  Cfgr.busesWithin_iff _ _

theorem Part.gearing_attainable (p : Part) : p.gearing.Attainable :=
  Cfgr.pllHz_le _

namespace Clock.BusPlan

/-- The peripheral buses are within their limits where the plan aims. -/
def AimsWithin (b : BusPlan) (p : Part) : Prop :=
  (Rates.ofRegisters (b.target (p.peek .cfgr)) (p.peek .bdcr)).BusesWithin

/-- If there is a switch, and it finds dividers that are left alone, then they
serve the new source, too. -/
def SwitchServed (b : BusPlan) (p : Part) : Prop :=
  b.named.names .sysclk = true → b.named.names .hclk = false → p.Ready b.sysclk →
    (p.gearing.withSource b.sysclk).BusesWithin

instance (b : BusPlan) (p : Part) : Decidable (b.AimsWithin p) :=
  inferInstanceAs (Decidable (Rates.BusesWithin _))

instance (b : BusPlan) (p : Part) : Decidable (b.SwitchServed p) :=
  inferInstanceAs (Decidable (_ → _ → _ → _))

end Clock.BusPlan

namespace Hardware

section Way

variable {b : BusPlan} (hpclk1 : b.named.names .pclk1 = true)
  (hpclk2 : b.named.names .pclk2 = true) {p q : Part}

include hpclk1 hpclk2 in
/-- With both buses named, the core is divided with both at their slowest. -/
theorem slowed2_slow {g : Gearing} (hg : g.Attainable) : (b.slowed2 g).Slow := by
  rw [BusPlan.slowed2, BusPlan.geared_of_names _ .second hpclk2, BusPlan.slowed1,
    BusPlan.geared_of_names _ .first hpclk1]
  exact ⟨hg, fun bus => by cases bus <;> rfl⟩

include hpclk1 hpclk2 in
theorem DividingCore.busesWithin {g g' : Gearing} (hg : g.Attainable) (hwithin : g.BusesWithin)
    (h : DividingCore b g g') : g'.BusesWithin := by
  rcases h with rfl | rfl | rfl | rfl
  · exact hwithin
  · rw [BusPlan.slowed1, BusPlan.geared_of_names _ .first hpclk1]
    have hslow : (g.withApb .first ApbDivider.div16.divisor).Attainable := hg
    exact ⟨hslow.pclk_le .first rfl, hwithin.2⟩
  · exact (slowed2_slow hpclk1 hpclk2 hg).busesWithin
  · exact ((slowed2_slow hpclk1 hpclk2 hg).withAhb _).busesWithin

include hpclk1 hpclk2 in
theorem beforeSwitch_busesWithin (hwithin : p.gearing.BusesWithin) :
    (b.beforeSwitch p.gearing).BusesWithin := by
  unfold BusPlan.beforeSwitch
  split
  · exact ((slowed2_slow hpclk1 hpclk2 p.gearing_attainable).withAhb _).busesWithin
  · exact hwithin

include hpclk1 hpclk2 in
theorem switched_busesWithin (hwithin : p.gearing.BusesWithin) (hserved : b.SwitchServed p)
    (hready : b.named.names .sysclk = true → p.Ready b.sysclk) :
    (b.switched p.gearing).BusesWithin := by
  unfold BusPlan.switched
  split
  · next hsysclk =>
    cases hhclk : b.named.names .hclk with
    | true =>
        rw [BusPlan.beforeSwitch, if_pos hhclk]
        exact (((slowed2_slow hpclk1 hpclk2 p.gearing_attainable).withAhb _).withSource
          _).busesWithin
    | false =>
        rw [BusPlan.beforeSwitch, hhclk, if_neg Bool.false_ne_true]
        exact hserved hsysclk hhclk (hready hsysclk)
  · exact beforeSwitch_busesWithin hpclk1 hpclk2 hwithin

/-- Between two gearings within the limits, the dividers are set one after the
other. -/
theorem DividingBuses.busesWithin {g g' : Gearing} (hswitched : (b.switched g).BusesWithin)
    (hset : (b.set2 g).BusesWithin) (h : DividingBuses b g g') : g'.BusesWithin := by
  rcases h with rfl | rfl | rfl
  · exact hswitched
  · have hfirst : (b.set2 g).pclk .first = (b.set1 g).pclk .first :=
      b.pclk_geared_of_ne _ .second .first nofun _
    have hsecond : (b.set1 g).pclk .second = (b.switched g).pclk .second :=
      b.pclk_geared_of_ne _ .first .second nofun _
    exact ⟨Nat.le_trans (Nat.le_of_eq hfirst.symm) hset.1,
      Nat.le_trans (Nat.le_of_eq hsecond) hswitched.2⟩
  · exact hset

include hpclk1 hpclk2 in
/-- If the switch is served, everything on the way is within the limits. -/
theorem OnWay.busesWithin (hp : p.Settled) (hstart : p.rates.BusesWithin)
    (haim : b.AimsWithin p) (hserved : b.SwitchServed p) (h : OnWay b p q) :
    q.rates.BusesWithin := by
  rw [Part.busesWithin_iff] at hstart ⊢
  rw [BusPlan.AimsWithin, Cfgr.busesWithin_iff, b.gearing_target hp, ← b.set2_eq] at haim
  cases h with
  | raising hgearing => exact hgearing ▸ hstart
  | dividing _ hgearing =>
      exact hgearing.busesWithin hpclk1 hpclk2 p.gearing_attainable hstart
  | waiting hgearing =>
      rw [hgearing]
      exact beforeSwitch_busesWithin hpclk1 hpclk2 hstart
  | lowering hready hgearing =>
      rw [hgearing]
      exact switched_busesWithin hpclk1 hpclk2 hstart hserved hready
  | setting hready hgearing =>
      exact hgearing.busesWithin (switched_busesWithin hpclk1 hpclk2 hstart hserved hready) haim

end Way

/-- With the wanted source ready and flags that follow in time, the part gets
beyond the switch. -/
theorem throughSwitch_succeeds {t : Temper} (ht : t.Cooperative) {patience : Nat} (b : BusPlan)
    {p : Part} (hp : p.Settled) (hready : p.Ready b.sysclk) :
    Succeeds t patience
      (prepareSwitch b >>= fun _ => optionally (b.named.names .sysclk) (switchSysclk b.sysclk)) p
      (fun _ u => BeyondSwitch b p u) := by
  have hprepare : Ensures (simulated t) patience _ (prepareSwitch b).run p _ :=
    prepareSwitch_onWay ht.unlatched b hp
  refine .bind (R := fun _ q => Prepared b p q)
    (.of_ensures ht (hprepare.imp fun _ q hq => ⟨(), hq⟩)) fun _ q hq => ?_
  have hqready : q.Ready b.sysclk := by
    unfold Part.Ready
    rw [hq.control]
    exact hready
  have hswitch : Succeeds t patience
      (optionally (b.named.names .sysclk) (switchSysclk b.sysclk)) q (fun _ _ => True) :=
    .optionally (fun _ => switchSysclk_succeeds ht rfl hqready) (fun _ => trivial)
  exact (hswitch.and (optionalSwitch_onWay ht.unlatched b hq)).imp fun _ u hu => hu.2.2 rfl

end Hardware

/-- When the peripheral buses stay within their limits all the way. Take any
part without stuck bits whose system clock runs from the requested source and
whose peripheral buses are within their limits, and any plan that names both of
them and aims within the limits. The configuration comes to a result, a success
or an error, whatever the flags do. If the switch is served, every state on the
way and the last one are within the limits. If the flags follow in time, that
is so only if the switch is served. -/
theorem configureBusClocks_busesWithin {t : Temper} (ht : t.Unlatched) (patience : Nat)
    {b : BusPlan} (hpclk1 : b.named.names .pclk1 = true) (hpclk2 : b.named.names .pclk2 = true)
    {p : Part} (hp : p.Settled) (hstart : p.rates.BusesWithin) (haim : b.AimsWithin p) :
    ∃ result q log,
      (configureBusClocks b).run.run ((simulated t).handler patience) p =
        ⟨.ok result, q, log⟩ ∧
      (b.SwitchServed p →
        (∀ e ∈ (configureBusClocks b).run.history (simulated t) patience p,
          e.after.rates.BusesWithin) ∧ q.rates.BusesWithin) ∧
      (t.Cooperative → p.Tracking →
        (∀ e ∈ (configureBusClocks b).run.history (simulated t) patience p,
          e.after.rates.BusesWithin) → b.SwitchServed p) := by
  have honway : Ensures (simulated t) patience _ (configureBusClocks b).run p _ :=
    configureBusClocks_onWay ht b hp
  obtain ⟨hway, result, q, log, hrun, hend⟩ := honway
  refine ⟨result, q, log, hrun, fun hserved => ⟨fun e he => ?_, ?_⟩, ?_⟩
  · exact (hway e he).busesWithin hpclk1 hpclk2 hp hstart haim hserved
  · exact hend.busesWithin hpclk1 hpclk2 hp hstart haim hserved
  · intro hcooperative htracking hwithin hsysclk hhclk hready
    have hsucceeds : Succeeds t patience _ p _ := throughSwitch_succeeds hcooperative b hp hready
    obtain ⟨-, _, u, log', hthrough, -, _, rfl, hu⟩ := hsucceeds htracking
    rw [configureBusClocks_eq_prepare, ← bind_assoc] at hwithin
    have hreached : u.rates.BusesWithin :=
      Setup.holds_between (I := fun q => q.rates.BusesWithin) hstart hwithin hthrough
    rw [Part.busesWithin_iff, hu.gearing, BusPlan.switched, if_pos hsysclk, BusPlan.beforeSwitch,
      hhclk, if_neg Bool.false_ne_true] at hreached
    exact hreached

/-- The board's plan, but for the core's divider. -/
def Clock.BusPlan.boardBesideCore : BusPlan :=
  { Plan.board.buses with named := FlagSet.ofList [.sysclk, .pclk1, .pclk2] }

/-- A part that runs from the PLL, on its way to the internal oscillator with
the core's divider left alone. -/
theorem configureBusClocks_busesWithin_onPll :
    Part.onPll.Settled ∧ Part.onPll.rates.BusesWithin ∧
    ∃ result q log,
      (configureBusClocks { BusPlan.boardBesideCore with sysclk := .hsi }).run.run
        ((simulated .prompt).handler 0) .onPll = ⟨.ok result, q, log⟩ ∧
      (∀ e ∈ (configureBusClocks { BusPlan.boardBesideCore with sysclk := .hsi }).run.history
        (simulated .prompt) 0 .onPll, e.after.rates.BusesWithin) ∧ q.rates.BusesWithin := by
  have hsettled : Part.onPll.Settled := by decide +kernel
  have hwithin : Part.onPll.rates.BusesWithin := by decide +kernel
  obtain ⟨result, q, log, hrun, hserved, -⟩ :=
    configureBusClocks_busesWithin (b := { BusPlan.boardBesideCore with sysclk := .hsi })
      Temper.prompt_unlatched 0 rfl rfl hsettled hwithin (by decide +kernel)
  exact ⟨hsettled, hwithin, result, q, log, hrun, hserved (by decide +kernel)⟩

/-- A part that runs from the internal oscillator, with all buses undivided and
the PLL ready at 72 MHz. -/
def Part.besidePll : Part :=
  onPll.poke .cfgr 0x001D0000

/-- From the internal oscillator at 8 MHz to the PLL with the first bus at
36 MHz, both ends are within the limits. In between that bus runs at 72 MHz. -/
theorem switch_overshoots :
    Temper.prompt.Unlatched ∧ BusPlan.boardBesideCore.named.names .pclk1 = true ∧
    BusPlan.boardBesideCore.named.names .pclk2 = true ∧
    Part.besidePll.Settled ∧ Part.besidePll.rates.BusesWithin ∧
    BusPlan.boardBesideCore.AimsWithin .besidePll ∧
    ∃ e ∈ (configureBusClocks .boardBesideCore).run.history (simulated .prompt) 0 .besidePll,
      e.after.rates.pclk1 = coreHz ∧ ¬e.after.rates.BusesWithin :=
  ⟨Temper.prompt_unlatched, rfl, rfl, by decide +kernel, by decide +kernel, by decide +kernel,
    by decide +kernel⟩

end BringUp
