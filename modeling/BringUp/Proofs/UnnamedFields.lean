import BringUp.Proofs.BusClocks
import BringUp.Proofs.Oscillators

/-!
Fields outside the named sets.

A plan carries fields for clocks that it does not name, and its sets keep bits
that name nothing. Two plans agree if they name the same clocks and are alike
in the fields of these.

* `FlagSet.SameNames`: two sets name the same members.
* `OscillatorPlan.Agree`, `BusPlan.Agree`, `PeripheralPlan.Agree`: agreement of
  the parts of a plan.
* `Plan.Alike`: two plans that differ only in the modes of unnamed oscillators
  and in bits that name nothing.
* `Proc.SameOn`: two drivers do the same on a device.

Main statements: plans that agree have one and the same driver
(`configureOscillators_congr`, `configureBusClocks_congr`,
`configurePeripheralClocks_congr`) and plans that are alike pass or fail the
check in the same way (`Plan.check_congr`), so what a plan does not name is
without influence (`unnamed_fields_unused`).
-/

namespace BringUp

open Clock Hardware

/-! ## Agreement -/

/-- The two sets name the same members. -/
def FlagSet.SameNames {ι : Type} [Flag ι] (a b : FlagSet ι) : Prop :=
  ∀ i, a.names i = b.names i

namespace Clock

/-- The plans name the same oscillators, with the same modes, and set the PLL
in the same way. -/
structure OscillatorPlan.Agree (a b : OscillatorPlan) : Prop where
  named : a.named.SameNames b.named
  mode : ∀ o, a.named.names o = true → a.mode o = b.mode o
  hseDivider : a.hseDivider = b.hseDivider
  pll : a.pll = b.pll

/-- The plans have the same wait states and name the same bus clocks, with the
same source and dividers. -/
structure BusPlan.Agree (a b : BusPlan) : Prop where
  named : a.named.SameNames b.named
  waitStates : a.waitStates = b.waitStates
  sysclk : a.named.names .sysclk = true → a.sysclk = b.sysclk
  ahb : a.named.names .hclk = true → a.ahb = b.ahb
  apb1 : a.named.names .pclk1 = true → a.apb1 = b.apb1
  apb2 : a.named.names .pclk2 = true → a.apb2 = b.apb2

/-- The plans name the same peripheral clocks, with the same source and
divider. -/
structure PeripheralPlan.Agree (a b : PeripheralPlan) : Prop where
  named : a.named.SameNames b.named
  rtc : a.named.names .rtc = true → a.rtc = b.rtc
  adc : a.named.names .adc = true → a.adc = b.adc

/-- The plans differ only in the modes of oscillators that they do not name and
in bits that name nothing. -/
structure Plan.Alike (a b : Plan) : Prop where
  oscillators : a.oscillators.Agree b.oscillators
  buses : ∃ named, a.buses.named.SameNames named ∧ b.buses = { a.buses with named }
  peripherals : ∃ named, a.peripherals.named.SameNames named ∧
    b.peripherals = { a.peripherals with named }

end Clock

/-- From this state the two drivers make the same accesses, with the same
result, records and final state. -/
def Proc.SameOn {σ α : Type} (d : Device σ) (patience : Nat) (s : σ) (x y : Driver α) : Prop :=
  x.history d patience s = y.history d patience s ∧
    x.run (d.handler patience) s = y.run (d.handler patience) s

theorem Proc.SameOn.of_eq {σ α : Type} {d : Device σ} {patience : Nat} {s : σ}
    {x y : Driver α} (h : x = y) : SameOn d patience s x y := by
  subst h
  exact ⟨rfl, rfl⟩

/-! ## The drivers -/

/-- Optional steps are equal if their conditions are, and if the steps are
equal whenever they are taken. -/
theorem optionally_congr {m : Type → Type} [Monad m] {c c' : Bool} {x x' : m Unit}
    (hc : c = c') (hx : c = true → x = x') : optionally c x = optionally c' x' := by
  subst hc
  cases c with
  | false => rfl
  | true => exact hx rfl

theorem configureOscillators_congr {a b : OscillatorPlan} (h : a.Agree b) :
    configureOscillators a = configureOscillators b := by
  have hhse : optionally (a.named.names .hse) (configureHse a.hse) =
      optionally (b.named.names .hse) (configureHse b.hse) :=
    optionally_congr (h.named .hse) fun hn => congrArg configureHse (h.mode .hse hn)
  have hhsi : optionally (a.named.names .hsi) (configureHsi a.hsi) =
      optionally (b.named.names .hsi) (configureHsi b.hsi) :=
    optionally_congr (h.named .hsi) fun hn => congrArg configureHsi (h.mode .hsi hn)
  have hlsi : optionally (a.named.names .lsi) (configureLsi a.lsi) =
      optionally (b.named.names .lsi) (configureLsi b.lsi) :=
    optionally_congr (h.named .lsi) fun hn => congrArg configureLsi (h.mode .lsi hn)
  have hlse : optionally (a.named.names .lse) (configureLse a.lse) =
      optionally (b.named.names .lse) (configureLse b.lse) :=
    optionally_congr (h.named .lse) fun hn => congrArg configureLse (h.mode .lse hn)
  rw [configureOscillators_eq, configureOscillators_eq, operateOscillators,
    operateOscillators, hhse, hhsi, hlsi, hlse, h.pll, h.hseDivider]

/-- The core's divider is only written if it is named. -/
theorem divideCore_congr {a b : BusPlan} (h : a.Agree b) (hn : a.named.names .hclk = true) :
    divideCore a = divideCore b := by
  rw [divideCore, divideCore, h.named .pclk1, h.named .pclk2, h.ahb hn]

theorem dividePeripheralBuses_congr {a b : BusPlan} (h : a.Agree b) :
    dividePeripheralBuses a = dividePeripheralBuses b := by
  have hapb1 : optionally (a.named.names .pclk1)
      (Driver.writeField .cfgr Cfgr.ppre1 a.apb1.code) =
      optionally (b.named.names .pclk1) (Driver.writeField .cfgr Cfgr.ppre1 b.apb1.code) :=
    optionally_congr (h.named .pclk1) fun hn => by rw [h.apb1 hn]
  have hapb2 : optionally (a.named.names .pclk2)
      (Driver.writeField .cfgr Cfgr.ppre2 a.apb2.code) =
      optionally (b.named.names .pclk2) (Driver.writeField .cfgr Cfgr.ppre2 b.apb2.code) :=
    optionally_congr (h.named .pclk2) fun hn => by rw [h.apb2 hn]
  rw [dividePeripheralBuses_eq, dividePeripheralBuses_eq, hapb1, hapb2]

theorem configureBusClocks_congr {a b : BusPlan} (h : a.Agree b) :
    configureBusClocks a = configureBusClocks b := by
  have hcore : optionally (a.named.names .hclk) (liftM (divideCore a) : Setup Unit) =
      optionally (b.named.names .hclk) (liftM (divideCore b)) :=
    optionally_congr (h.named .hclk) fun hn => congrArg liftM (divideCore_congr h hn)
  have hswitch : optionally (a.named.names .sysclk) (switchSysclk a.sysclk) =
      optionally (b.named.names .sysclk) (switchSysclk b.sysclk) :=
    optionally_congr (h.named .sysclk) fun hn => congrArg switchSysclk (h.sysclk hn)
  rw [configureBusClocks_eq, configureBusClocks_eq, hcore, hswitch, h.waitStates,
    dividePeripheralBuses_congr h]

theorem configurePeripheralClocks_congr {a b : PeripheralPlan} (h : a.Agree b) :
    configurePeripheralClocks a = configurePeripheralClocks b := by
  have hrtc : optionally (a.named.names .rtc) (selectRtcSource a.rtc) =
      optionally (b.named.names .rtc) (selectRtcSource b.rtc) :=
    optionally_congr (h.named .rtc) fun hn => congrArg selectRtcSource (h.rtc hn)
  have hadc : optionally (a.named.names .adc)
      (liftM (Driver.writeField .cfgr Cfgr.adcpre a.adc.code) : Setup Unit) =
      optionally (b.named.names .adc)
        (liftM (Driver.writeField .cfgr Cfgr.adcpre b.adc.code)) :=
    optionally_congr (h.named .adc) fun hn => by rw [h.adc hn]
  rw [configurePeripheralClocks_eq, configurePeripheralClocks_eq, hrtc, hadc]

/-! ## The check -/

namespace Clock

variable {a b : OscillatorPlan}

/-- Whether an oscillator runs is a matter of its mode only if it is named. -/
theorem OscillatorPlan.Agree.runs (h : a.Agree b) (o : Oscillator) : a.runs o = b.runs o := by
  cases hn : a.named.names o with
  | false =>
      have hn' : b.named.names o = false := (h.named o).symm.trans hn
      cases o <;> simp only [OscillatorPlan.runs, hn, hn', Bool.not_false, Bool.true_or,
        Bool.false_and]
  | true =>
      have hn' : b.named.names o = true := (h.named o).symm.trans hn
      have hmode := h.mode o hn
      cases o <;> simp_all only [OscillatorPlan.runs, OscillatorPlan.mode]

theorem OscillatorPlan.Agree.pllInputRuns (h : a.Agree b) (source : PllSource) :
    a.pllInputRuns source = b.pllInputRuns source := by
  cases source with
  | hsiDiv2 => exact h.runs .hsi
  | hse => exact h.runs .hse

theorem OscillatorPlan.Agree.sysclkSourceRuns (h : a.Agree b) (source : SysclkSource) :
    a.sysclkSourceRuns source = b.sysclkSourceRuns source := by
  cases source with
  | hsi => exact h.runs .hsi
  | hse => exact h.runs .hse
  | pll => exact congrArg Option.isSome h.pll

theorem OscillatorPlan.Agree.rtcSourceRuns (h : a.Agree b) (source : RtcSource) :
    a.rtcSourceRuns source = b.rtcSourceRuns source := by
  cases source with
  | none => rfl
  | lse => exact h.runs .lse
  | lsi => exact h.runs .lsi
  | hseDiv128 => exact h.runs .hse

/-- Plans that are alike produce the same rates. -/
theorem Plan.Alike.rates {a b : Plan} (h : a.Alike b) : a.rates = b.rates := by
  obtain ⟨busesNamed, -, hbuses⟩ := h.buses
  obtain ⟨peripheralsNamed, -, hperipherals⟩ := h.peripherals
  unfold Plan.rates Plan.chain Plan.source
  rw [hbuses, hperipherals, h.oscillators.pll, h.oscillators.hseDivider]

/-- Plans that are alike pass the check with the same rates, or fail it with the
same violation. -/
theorem Plan.check_congr {a b : Plan} (h : a.Alike b) : a.check = b.check := by
  obtain ⟨busesNamed, -, hbuses⟩ := h.buses
  obtain ⟨peripheralsNamed, hnamed, hperipherals⟩ := h.peripherals
  have hpll : a.checkPll = b.checkPll := by
    unfold checkPll
    simp only [h.oscillators.pll, h.oscillators.pllInputRuns]
  have hsource : a.checkSysclkSource = b.checkSysclkSource := by
    unfold checkSysclkSource
    simp only [h.oscillators.sysclkSourceRuns, hbuses]
  have hrates : a.checkRates = b.checkRates := by
    unfold checkRates
    simp only [h.rates, hbuses]
  have hperipherals : a.checkPeripherals = b.checkPeripherals := by
    unfold checkPeripherals
    simp only [h.rates, h.oscillators.rtcSourceRuns, hperipherals, hnamed .adc, hnamed .rtc]
  rw [check, check, hpll, hsource, hrates, hperipherals, h.rates]

end Clock

/-! ## Both together -/

/-- What a plan does not name is without influence. On every device, from every
state, plans that agree lead to the same accesses, results and final states,
and plans that are alike get the same verdict. -/
theorem unnamed_fields_unused {σ : Type} (d : Device σ) (patience : Nat)
    (ceiling : Log.Ceiling) (s : σ) :
    (∀ a b : OscillatorPlan, a.Agree b → Proc.SameOn d patience s
      (provide ceiling (.configureOscillators a)) (provide ceiling (.configureOscillators b))) ∧
    (∀ a b : BusPlan, a.Agree b → Proc.SameOn d patience s
      (provide ceiling (.configureBusClocks a)) (provide ceiling (.configureBusClocks b))) ∧
    (∀ a b : PeripheralPlan, a.Agree b → Proc.SameOn d patience s
      (provide ceiling (.configurePeripheralClocks a))
      (provide ceiling (.configurePeripheralClocks b))) ∧
    ∀ a b : Plan, a.Alike b → a.check = b.check := by
  refine ⟨fun a b h => .of_eq ?_, fun a b h => .of_eq ?_, fun a b h => .of_eq ?_,
    fun a b h => Plan.check_congr h⟩
  · exact congrArg ExceptT.run (configureOscillators_congr h)
  · exact congrArg ExceptT.run (configureBusClocks_congr h)
  · exact congrArg ExceptT.run (configurePeripheralClocks_congr h)

/-- A plan that leaves some clocks to themselves. -/
def Clock.Plan.sparse : Plan where
  oscillators := { Plan.board.oscillators with named := FlagSet.ofList [.hse, .hsi] }
  buses := { Plan.board.buses with named := FlagSet.ofList [.sysclk, .hclk] }
  peripherals := { Plan.board.peripherals with named := FlagSet.ofList [.adc] }

/-- The same plan, with other fields for these clocks and with bits that name
nothing. -/
def Clock.Plan.sparseElsewhere : Plan where
  oscillators := { Plan.sparse.oscillators with named := ⟨0x83⟩, lse := .bypass, lsi := .on }
  buses := { Plan.sparse.buses with named := ⟨0xF3⟩, apb1 := .div1, apb2 := .div16 }
  peripherals := { Plan.sparse.peripherals with named := ⟨0x06⟩, rtc := .hseDiv128 }

theorem Clock.Plan.sparse_oscillators_agree :
    Plan.sparse.oscillators.Agree Plan.sparseElsewhere.oscillators where
  named o := by cases o <;> rfl
  mode o := by cases o <;> decide
  hseDivider := rfl
  pll := rfl

theorem Clock.Plan.sparse_buses_agree :
    Plan.sparse.buses.Agree Plan.sparseElsewhere.buses where
  named c := by cases c <;> rfl
  waitStates := rfl
  sysclk := by decide
  ahb := by decide
  apb1 := by decide
  apb2 := by decide

theorem Clock.Plan.sparse_peripherals_agree :
    Plan.sparse.peripherals.Agree Plan.sparseElsewhere.peripherals where
  named c := by cases c <;> rfl
  rtc := by decide
  adc := by decide

theorem Clock.Plan.sparse_alike :
    Plan.sparse.Alike { Plan.sparse with oscillators := Plan.sparseElsewhere.oscillators } where
  oscillators := Plan.sparse_oscillators_agree
  buses := ⟨_, fun _ => rfl, rfl⟩
  peripherals := ⟨_, fun _ => rfl, rfl⟩

/-- The two plans do the same on a part at power-on. -/
theorem unnamed_fields_unused_sparse :
    Plan.sparse ≠ Plan.sparseElsewhere ∧
    Proc.SameOn (simulated .prompt) 8 (Part.powerOn fun _ => 0)
      (provide .all (.configureOscillators Plan.sparse.oscillators))
      (provide .all (.configureOscillators Plan.sparseElsewhere.oscillators)) ∧
    Proc.SameOn (simulated .prompt) 8 (Part.powerOn fun _ => 0)
      (provide .all (.configureBusClocks Plan.sparse.buses))
      (provide .all (.configureBusClocks Plan.sparseElsewhere.buses)) ∧
    Proc.SameOn (simulated .prompt) 8 (Part.powerOn fun _ => 0)
      (provide .all (.configurePeripheralClocks Plan.sparse.peripherals))
      (provide .all (.configurePeripheralClocks Plan.sparseElsewhere.peripherals)) ∧
    Plan.sparse.check =
      { Plan.sparse with oscillators := Plan.sparseElsewhere.oscillators : Plan }.check := by
  obtain ⟨hosc, hbus, hper, hcheck⟩ :=
    unnamed_fields_unused (simulated .prompt) 8 .all (Part.powerOn fun _ => 0)
  exact ⟨by decide, hosc _ _ Plan.sparse_oscillators_agree, hbus _ _ Plan.sparse_buses_agree,
    hper _ _ Plan.sparse_peripherals_agree, hcheck _ _ Plan.sparse_alike⟩

end BringUp
