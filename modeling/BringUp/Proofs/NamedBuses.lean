import BringUp.Proofs.DriverRegisters
import BringUp.Proofs.OscillatorStages

/-!
What `configureBusClocks` changes, and what it leaves alone.

* `BusClock.field`, `BusPlan.code`: the field that sets a bus clock, and what a
  plan puts there.
* `Footprint.namedBuses`: the fields of the named clocks, and the wait states.
* `BusesElsewhere named p q`: beside them nothing of the two registers has
  changed, but for the two status bits that follow the hardware.
* `BusesInForce plan p q`: the named clocks are as planned and the others as
  they were.

Main statement: a success brings the named clocks into force, nothing else of
the two registers is changed at any time, and no other register is written
(`configureBusClocks_changes_named`).

A bus that is not named is never slowed down on the way either: the footprint
holds for every access, and also if the driver ends with an error.
-/

namespace BringUp

open Clock Hardware

/-- The field of the configuration that sets the clock. -/
def Clock.BusClock.field : BusClock → Field
  | .sysclk => Cfgr.sw
  | .hclk => Cfgr.hpre
  | .pclk1 => Cfgr.ppre1
  | .pclk2 => Cfgr.ppre2

/-- What the plan puts there. -/
def Clock.BusPlan.code (plan : BusPlan) : BusClock → Word
  | .sysclk => plan.sysclk.code
  | .hclk => plan.ahb.code
  | .pclk1 => plan.apb1.code
  | .pclk2 => plan.apb2.code

/-- The fields of the clocks that are named, as a mask. -/
def namedFields (named : FlagSet BusClock) : Word :=
  let bits := fun clock : BusClock => if named.names clock then clock.field.mask else 0
  bits .sysclk ||| bits .hclk ||| bits .pclk1 ||| bits .pclk2

/-- The field of a named clock is among them. -/
theorem field_in_namedFields {named : FlagSet BusClock} (clock : BusClock)
    (h : named.names clock = true) : clock.field.mask &&& ~~~namedFields named = 0 := by
  have hall : ∀ sysclk hclk pclk1 pclk2 : Bool,
      let mask : Word := (if sysclk then Cfgr.sw.mask else 0) |||
        (if hclk then Cfgr.hpre.mask else 0) ||| (if pclk1 then Cfgr.ppre1.mask else 0) |||
        (if pclk2 then Cfgr.ppre2.mask else 0)
      (sysclk = true → Cfgr.sw.mask &&& ~~~mask = 0) ∧
        (hclk = true → Cfgr.hpre.mask &&& ~~~mask = 0) ∧
        (pclk1 = true → Cfgr.ppre1.mask &&& ~~~mask = 0) ∧
        (pclk2 = true → Cfgr.ppre2.mask &&& ~~~mask = 0) := by decide
  obtain ⟨hsysclk, hhclk, hpclk1, hpclk2⟩ := hall (named.names .sysclk) (named.names .hclk)
    (named.names .pclk1) (named.names .pclk2)
  cases clock with
  | sysclk => exact hsysclk h
  | hclk => exact hhclk h
  | pclk1 => exact hpclk1 h
  | pclk2 => exact hpclk2 h

/-- The fields of the clocks that are named, and the wait states. -/
def Footprint.namedBuses (named : FlagSet BusClock) : Footprint
  | .cfgr => namedFields named
  | .acr => Flash.latency.mask
  | _ => 0

/-- Beside the fields of the named clocks and the wait states, the two
registers are as they were. The source that the system clock runs from and the
state of the prefetch buffer are set by the hardware. -/
structure BusesElsewhere (named : FlagSet BusClock) (p q : Part) : Prop where
  cfgr : Word.AgreeOn (~~~(namedFields named ||| Cfgr.sws.mask)) (q.peek .cfgr) (p.peek .cfgr)
  acr : Word.AgreeOn (~~~(Flash.latency.mask ||| Flash.prefetchActive)) (q.peek .acr) (p.peek .acr)

theorem BusesElsewhere.of_confined {named : FlagSet BusClock} {p q : Part}
    (h : Confined (.namedBuses named) p q) : BusesElsewhere named p q where
  cfgr := h.steady .cfgr (Footprint.covers_of_ne Register.cfgr_open.notUsart (by decide))
  acr := h.steady .acr (Footprint.covers_of_ne Register.acr_open.notUsart (by decide))

/-- The bus clocks after a success: each clock has what the plan puts there if
it is named, and what it had if not. The named system clock has arrived at its
source. -/
structure BusesInForce (plan : BusPlan) (p q : Part) : Prop where
  clocks : ∀ clock : BusClock, clock.field.get (q.peek .cfgr) =
    if plan.named.names clock then plan.code clock else clock.field.get (p.peek .cfgr)
  arrived : plan.named.names .sysclk = true → Cfgr.sws.get (q.peek .cfgr) = plan.sysclk.code
  waitStates : q.waitStates = plan.waitStates

theorem BusesInForce.of_set {plan : BusPlan} {p q : Part} (h : BusesSet plan p q)
    (hkept : Confined (.buses plan.named) p q) : BusesInForce plan p q where
  clocks := by
    intro clock
    cases clock with
    | sysclk =>
        split
        · next hnamed => exact (h.source hnamed).1
        · next hother =>
          refine hkept.get_cfgr (f := Cfgr.sw) ?_
          simp only [Footprint.buses, if_neg hother]
          decide
    | hclk => exact h.hpre
    | pclk1 => exact h.ppre1
    | pclk2 => exact h.ppre2
  arrived := by
    intro hnamed
    obtain ⟨hcode, hsettled⟩ := h.source hnamed
    exact hsettled.symm.trans hcode
  waitStates := h.waitStates

/-! ## Writes -/

/-- The access is a read, or a write to one of the registers. -/
def Access.changes (rs : List Register) : Access → Bool
  | .write r _ => r ∈ rs
  | _ => true

theorem Access.changes_of_among {rs rs' : List Register} (h : rs ⊆ rs') (c : Access)
    (hc : c.among rs = true) : c.changes rs' = true := by
  cases c with
  | write r v => exact decide_eq_true (h (of_decide_eq_true hc))
  | read | poll | await | loadVector | storeVector => rfl

namespace Hardware

/-- The bus clocks are set in the configuration, and the wait states beside
them. -/
theorem configureBusClocks_changes (plan : BusPlan) :
    (configureBusClocks plan).run.CallsOnly (Access.changes [.cfgr, .acr]) := by
  have hcfgr : ∀ c : Access, c.among [.cfgr] = true → c.changes [.cfgr, .acr] = true :=
    Access.changes_of_among (by decide)
  have hacr : ∀ c : Access, c.among [.acr] = true → c.changes [.cfgr, .acr] = true :=
    Access.changes_of_among (by decide)
  have hswitch : (switchSysclk plan.sysclk).run.CallsOnly (Access.changes [.cfgr, .acr]) := by
    refine .setupBind (.lift (.read rfl)) fun cr => ?_
    split
    · trivial
    · exact .modifyThenWait _ _ _ rfl fun _ => rfl
  rw [configureBusClocks_eq]
  refine .setupBind ((adjustWaitStates_among (plan.waitStates.count > ·.count) _).mono hacr) ?_
  refine fun _ => .setupBind (.optionally (.lift ((divideCore_among plan).mono hcfgr))) fun _ => ?_
  refine .setupBind (.optionally hswitch) fun _ => ?_
  refine .setupBind ((adjustWaitStates_among (plan.waitStates.count < ·.count) _).mono hacr) ?_
  exact fun _ => .lift ((dividePeripheralBuses_among plan).mono hcfgr)

/-! ## Confinement -/

variable {t : Temper} (ht : t.Unlatched) (patience : Nat)

include ht in
/-- The wait states are read and, if that calls for it, set. -/
theorem adjustWaitStates_confines (named : FlagSet BusClock) (due : WaitStates → Prop)
    [DecidablePred due] (wanted : WaitStates) :
    Confines t patience (.namedBuses named) (adjustWaitStates due wanted).run := by
  have hcurrent : Confines t patience (.namedBuses named) Flash.waitStates :=
    .bind (.readField _ _) fun _ => .done _
  unfold adjustWaitStates
  refine .setupBind (.lift hcurrent) fun current => ?_
  split
  · have hlatency : Flash.latency.mask &&& ~~~Flash.latency.mask = 0 := by decide
    refine .setupBind (.lift (.writeField ht _ hlatency)) fun _ => ?_
    refine .setupBind (.lift hcurrent) fun found => ?_
    split
    · exact .setupPure ()
    · exact .throw _
  · exact .setupPure ()

include ht in
/-- A divider is written if its bus is named. -/
theorem writeDivider_confines {named : FlagSet BusClock} (clock : BusClock) (code : Word) :
    Confines t patience (.namedBuses named)
      (optionally (named.names clock) (Driver.writeField .cfgr clock.field code)) :=
  fun p => .optionallyDriver
    (fun hnamed => Confines.writeField ht code (field_in_namedFields clock hnamed) p)
    (fun _ => .refl _ p)

include ht in
/-- Every access of the driver is confined to the clocks that the plan names,
and to the wait states. -/
theorem configureBusClocks_confines (plan : BusPlan) :
    Confines t patience (.namedBuses plan.named) (configureBusClocks plan).run := by
  have hcore : plan.named.names .hclk = true →
      Confines t patience (.namedBuses plan.named) (divideCore plan) := by
    intro hnamed
    rw [divideCore_eq]
    refine .bind (writeDivider_confines ht patience .pclk1 _) fun _ => ?_
    refine .bind (writeDivider_confines ht patience .pclk2 _) fun _ => ?_
    exact .writeField ht _ (field_in_namedFields .hclk hnamed)
  have hswitch : plan.named.names .sysclk = true →
      Confines t patience (.namedBuses plan.named) (switchSysclk plan.sysclk).run := by
    intro hnamed
    refine .setupBind (.lift (.read _)) fun cr => ?_
    split
    · exact .throw _
    · refine .setupBind (.lift (.writeField ht _ ?_)) fun _ => .waitUntil _ _ _ _
      exact field_in_namedFields .sysclk hnamed
  have hbuses : Confines t patience (.namedBuses plan.named) (dividePeripheralBuses plan) := by
    rw [dividePeripheralBuses_eq]
    exact .bind (writeDivider_confines ht patience .pclk1 _) fun _ =>
      writeDivider_confines ht patience .pclk2 _
  rw [configureBusClocks_eq]
  refine .setupBind (adjustWaitStates_confines ht patience _ (plan.waitStates.count > ·.count) _)
    fun _ => ?_
  refine .setupBind (fun p => .optionally (fun h => (hcore h).lift p) fun _ => .refl _ p)
    fun _ => ?_
  refine .setupBind (fun p => .optionally (fun h => hswitch h p) fun _ => .refl _ p) fun _ => ?_
  refine .setupBind (adjustWaitStates_confines ht patience _ (plan.waitStates.count < ·.count) _)
    fun _ => ?_
  exact .lift hbuses

/-! ## The main statement -/

include ht in
/-- The driver comes to a result. Whatever it is, only the fields of the clocks
that the plan names and the wait states have changed, at every access and in
the end, and no register but the configuration and the flash control register
was written. After a success the named clocks are as planned, and the others
as they were. -/
theorem configureBusClocks_changes_named (plan : BusPlan) (p : Part) :
    ∃ result q, Setup.EndsIn t patience (configureBusClocks plan) p result q ∧
      BusesElsewhere plan.named p q ∧
      (∀ e ∈ (configureBusClocks plan).run.history (simulated t) patience p,
        BusesElsewhere plan.named p e.after ∧
          ∀ r v, e.access = .write r v → r = .cfgr ∨ r = .acr) ∧
      (result = .ok () → BusesInForce plan p q) := by
  obtain ⟨hevents, result, q, log, hrun, hnamed, hkept, hset⟩ :=
    (configureBusClocks_confines ht patience plan p).and (configureBusClocks_ensures ht plan p)
  refine ⟨result, q, ⟨log, hrun⟩, .of_confined hnamed, fun e he => ⟨?_, fun r v hwrite => ?_⟩, ?_⟩
  · exact .of_confined (hevents e he).1.2
  · have hchanges := (configureBusClocks_changes plan).access_of_mem he
    rw [hwrite] at hchanges
    simpa [Access.changes] using hchanges
  · exact fun hresult => .of_set (hset hresult) hkept

end Hardware

/-- Halves the core clock and no more: of the four clocks only the core and the
second peripheral bus are named. -/
def Clock.BusPlan.halvedCore : BusPlan :=
  { Plan.board.buses with named := .ofList [.hclk, .pclk2], ahb := .div2, waitStates := .ws1 }

namespace Hardware

/-- On a part that runs from the PLL the plan succeeds. The system clock and
the first peripheral bus, which it does not name, stay as they were. -/
theorem configureBusClocks_changes_named_halvedCore :
    Temper.prompt.Unlatched ∧
    ∃ q, Setup.EndsIn .prompt 0 (configureBusClocks .halvedCore) .onPll (.ok ()) q ∧
      BusesElsewhere BusPlan.halvedCore.named .onPll q ∧
      Cfgr.hpre.get (q.peek .cfgr) = AhbDivider.div2.code ∧
      Cfgr.ppre1.get (q.peek .cfgr) = ApbDivider.div2.code ∧
      Cfgr.sw.get (q.peek .cfgr) = SysclkSource.pll.code ∧ q.waitStates = .ws1 := by
  obtain ⟨q, hends⟩ : ∃ q, Setup.EndsIn .prompt 0 (configureBusClocks .halvedCore) .onPll
      (.ok ()) q := Setup.endsIn_of_any (by decide +kernel)
  obtain ⟨_, _, hends', hothers, -, hset⟩ := configureBusClocks_changes_named
    Temper.prompt_unlatched 0 .halvedCore .onPll
  obtain ⟨rfl, rfl⟩ := hends.unique hends'
  obtain ⟨hclocks, -, hws⟩ := hset rfl
  refine ⟨Temper.prompt_unlatched, q, hends, hothers, hclocks .hclk, ?_, ?_, hws⟩
  · exact (hclocks .pclk1).trans (by decide +kernel)
  · exact (hclocks .sysclk).trans (by decide +kernel)

end Hardware

end BringUp
