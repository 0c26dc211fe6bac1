import BringUp.Proofs.GearChanges
import BringUp.Proofs.PllInUse

/-!
Plans in force: a part that is as a plan wants it.

* `Confined.of_same`: what was changed back has not been changed.
* `Stage.Achieved.confined_none`: an oscillator that was stopped and started
  again is as it was.
* `Plan.InForce plan p`: the part is as the plan wants it, register by register.

Main statements: a plan stays in force if nothing is changed
(`Plan.InForce.of_none`); under a plan that the check accepts and that names all
clocks, what the system clock runs from is to run and is ready
(`Plan.InForce.running_of_inUse`, `Plan.InForce.ready`); and an oscillator that
is operated although the plan is in force ends as it was
(`Hardware.driver_restores`).
-/

namespace BringUp

open Clock Hardware

/-! ## Changed back -/

namespace Confined

variable {m : Footprint} {p q : Part}

/-- If the bits of the footprint are as they were, and the flags behind them
show what they did or what was asked of them, then nothing has changed. -/
theorem of_same (h : Confined m p q) (hreset : (m .bdcr).getLsbD 16 = false)
    (hsame : ∀ r, Word.AgreeOn (m r) (q.peek r) (p.peek r))
    (hshown : ∀ f : StatusFlag, m f.register &&& (f.control ||| f.status) = 0 ∨
      f.shown (q.peek f.register) = f.shown (p.peek f.register) ∨
        f.shown (q.peek f.register) = f.wanted (p.peek f.register)) : Confined .none p q := by
  have hcovers : ∀ {r : Register}, Footprint.none.Covers p r → m.Covers p r := by
    rintro r ⟨hstatus, hclear⟩
    refine ⟨hstatus, fun hr => ?_⟩
    rw [BitVec.getLsbD_or, hreset, Bool.false_or]
    simpa using hclear hr
  refine ⟨fun r hr => ((h.steady r (hcovers hr)).union (hsame r)).mono ?_, fun f hf _ => ?_⟩
  · have hzero : (0 : Word) ||| StatusFlag.statusOf r = StatusFlag.statusOf r := BitVec.zero_or
    rw [Footprint.none_apply, hzero]
    ext i hi
    simp only [BitVec.getElem_and, BitVec.getElem_or, BitVec.getElem_not]
    cases (m r)[i] <;> cases (StatusFlag.statusOf r)[i] <;> rfl
  · rcases hshown f with hoff | hends
    · exact h.shown f (hcovers hf) hoff
    · exact hends

/-- A field without a flag behind it that holds what it did. -/
theorem of_field {r : Register} {f : Field} (h : Confined (.only r f.mask) p q)
    (hget : f.get (q.peek r) = f.get (p.peek r))
    (hlow : ∀ i < f.shift, f.mask.getLsbD i = false)
    (hreset : (Footprint.only r f.mask .bdcr).getLsbD 16 = false)
    (hplain : ∀ g ∈ StatusFlag.ofRegister r, f.mask &&& (g.control ||| g.status) = 0) :
    Confined .none p q := by
  refine h.of_same hreset (fun s => ?_) fun g => .inl ?_
  · by_cases hs : s = r
    · subst hs
      rw [Footprint.only_self]
      exact .of_get hget hlow
    · rw [Footprint.only_of_ne hs]
      exact BitVec.and_zero.trans BitVec.and_zero.symm
  · by_cases hg : g.register = r
    · subst hg
      rw [Footprint.only_self]
      exact hplain g ((StatusFlag.mem_ofRegister g _).mpr rfl)
    · rw [Footprint.only_of_ne hg]
      exact BitVec.zero_and

end Confined

/-! ## Oscillators beside the clock in use -/

section Stages

variable {plan : OscillatorPlan} {p q : Part} {s : Stage}

/-- A flag with a single status bit shows the same in words that both have it,
or both do not. -/
theorem StatusFlag.shown_of_has {f : StatusFlag} (hf : f ≠ .sysclk) {a b : Word}
    (h : a.has f.status = b.has f.status) : f.shown a = f.shown b := by
  cases f with
  | sysclk => exact absurd rfl hf
  | hsi | lsi | lse => exact Word.AgreeOn.of_has (i := 1) h
  | hse => exact Word.AgreeOn.of_has (i := 17) h
  | pll => exact Word.AgreeOn.of_has (i := 25) h
  | prefetch => exact Word.AgreeOn.of_has (i := 5) h

/-- Where a demand is met, the flag shows whether the oscillator is to run. -/
theorem Demand.Met.shown_eq {d : Demand} (hd : d.flag ≠ .sysclk) (h : d.Met p) :
    d.flag.shown (p.peek d.register) = if d.running then d.status else 0 := by
  have hstatus : (if d.running then d.status else 0) &&& d.status =
      if d.running then d.status else 0 := by
    split
    · exact BitVec.and_self
    · exact BitVec.zero_and
  refine ((StatusFlag.shown_of_has hd ?_).trans (d.shown_eq _)).trans hstatus
  rw [d.shows, h.ready, Word.has, hstatus]
  cases d.running with
  | false => rfl
  | true => exact d.status_nonzero.symm

/-- The bits of a stage are as the plan wants them. -/
def Stage.Programmed (plan : OscillatorPlan) (s : Stage) (p : Part) : Prop :=
  p.peek (s.demand plan).register &&& (s.demand plan).mask = (s.demand plan).bits

/-- A stage that has achieved what it is there for has changed nothing if its
bits are as before. The crystal's is left out, because it also opens the backup
domain. -/
theorem Stage.Achieved.confined_none (hs : s ≠ .lse) (hp : s.Programmed plan p)
    (hq : s.Achieved plan q) (h : Confined s.footprint p q)
    (hpll : s = .pll → q.pllSetting = p.pllSetting) : Confined .none p q := by
  have hbits : Word.AgreeOn (s.demand plan).mask (q.peek (s.demand plan).register)
      (p.peek (s.demand plan).register) := hq.met.bits.trans hp.symm
  have hshown : (s.demand plan).flag.shown (q.peek (s.demand plan).register) =
      (s.demand plan).flag.wanted (p.peek (s.demand plan).register) :=
    (hq.met.shown_eq (by cases s <;> nofun)).trans (Demand.wanted_eq hp).symm
  have hzero : ∀ {a b : Word}, Word.AgreeOn 0 a b := BitVec.and_zero.trans BitVec.and_zero.symm
  refine h.of_same s.footprint_bdcr (fun r => ?_) fun f => ?_
  · cases s with
    | lse => exact absurd rfl hs
    | hse | hsi => cases r <;> first | exact hbits | exact hzero
    | lsi => cases r <;> first | exact hbits | exact hzero
    | pll => cases r <;> first | exact hbits | exact hpll rfl | exact hzero
  · by_cases hf : f = (s.demand plan).flag
    · subst hf
      exact .inr (.inr hshown)
    · left
      cases s with
      | lse => exact absurd rfl hs
      | hse | hsi | lsi | pll => cases f <;> first | decide | exact absurd rfl hf

end Stages

namespace Hardware

variable {t : Temper} {patience : Nat} {p : Part} {plan : OscillatorPlan} {s : Stage}

/-- What the system clock runs from is left alone. -/
theorem driver_keeps (ht : t.Unlatched) (hinUse : s.InUse (p.peek .cfgr)) :
    Ensures (simulated t) patience (fun _ => True) (s.driver plan).run p
      (fun _ q => Confined .none p q) := by
  cases s with
  | hse => exact (configureHse_keeps hinUse _).unguarded
  | hsi => exact (configureHsi_keeps hinUse _).unguarded
  | lsi | lse => exact absurd hinUse id
  | pll => exact (configurePll_ensures ht _ _ p).unguarded.imp fun _ _ hq => hq.2 hinUse

/-- Where the bits of its stage are as the plan wants them, a driver leaves the
same ones behind. -/
theorem driver_restores (ht : t.Unlatched) (hs : s ≠ .lse) (hp : p.NoDomainReset)
    (hbits : s.Programmed plan p) (hsetting : ∀ setting, plan.pll = some setting →
      p.pllSetting = setting.code plan.hseDivider) :
    Ensures (simulated t) patience (fun _ => True) (s.driver plan).run p
      (fun result q => result = .ok () → Confined .none p q) := by
  by_cases hinUse : s.InUse (p.peek .cfgr)
  · exact (driver_keeps ht hinUse).imp fun _ _ hq _ => hq
  have hframe : Ensures (simulated t) patience _ (s.driver plan).run p _ := s.driver_confines ht p
  have hpll : Ensures (simulated t) patience (fun _ => True) (s.driver plan).run p
      (fun _ q => s = .pll → q.pllSetting = p.pllSetting) := by
    cases s with
    | hse | hsi | lsi | lse => exact hframe.unguarded.imp fun _ _ _ => nofun
    | pll =>
        refine (configurePll_ensures ht _ _ p).unguarded.imp fun _ q hq _ => ?_
        rcases hq.1.programmed with hkept | ⟨setting, hwanted, -, hnew⟩
        · exact hkept
        · exact hnew.trans (hsetting setting hwanted).symm
  refine (((s.driver_achieves ht hp hinUse).and hframe).and hpll).unguarded.imp ?_
  rintro _ q ⟨⟨hdone, hq⟩, hkept⟩ rfl
  exact (hdone rfl).confined_none hs hbits hq hkept

end Hardware

/-! ## Bus clocks that are set -/

namespace Hardware.BusesSet

variable {b : BusPlan} {m : Footprint} {p p' q u : Part}

/-- Bus clocks that are set stay so if nothing is done to them. -/
theorem of_confined (h : BusesSet b p q) (hq : Confined m q u)
    (hm : m .cfgr &&& (Cfgr.sw.mask ||| Cfgr.sws.mask ||| Cfgr.hpre.mask ||| Cfgr.ppre1.mask |||
      Cfgr.ppre2.mask) = 0) (hacr : m .acr = 0) : BusesSet b p u := by
  simp only [Word.and_or_eq_zero_iff] at hm
  obtain ⟨⟨⟨⟨hsw, hsws⟩, hhpre⟩, hppre1⟩, hppre2⟩ := hm
  have hget : ∀ {f : Field}, m .cfgr &&& f.mask = 0 → StatusFlag.statusOf .cfgr &&& f.mask = 0 →
      f.get (u.peek .cfgr) = f.get (q.peek .cfgr) :=
    fun hf hstatus => hq.get_cfgr (Word.or_and_eq_zero hf hstatus)
  refine ⟨fun hnamed => ?_, ?_, ?_, ?_, ?_⟩
  · obtain ⟨hcode, hsettled⟩ := h.source hnamed
    exact ⟨(hget hsw (by decide)).trans hcode,
      hq.settled ((Word.and_or_eq_zero_iff _ _ _).mpr ⟨hsw, hsws⟩) hsettled⟩
  · exact (hget hhpre (by decide)).trans h.hpre
  · exact (hget hppre1 (by decide)).trans h.ppre1
  · exact (hget hppre2 (by decide)).trans h.ppre2
  · exact (hq.waitStates_eq (by rw [hacr]; decide)).trans h.waitStates

/-- Where they were before only matters if they are not named. -/
theorem rebase (h : BusesSet b p q)
    (hhpre : b.named.names .hclk = false →
      Cfgr.hpre.get (p'.peek .cfgr) = Cfgr.hpre.get (p.peek .cfgr))
    (hppre1 : b.named.names .pclk1 = false →
      Cfgr.ppre1.get (p'.peek .cfgr) = Cfgr.ppre1.get (p.peek .cfgr))
    (hppre2 : b.named.names .pclk2 = false →
      Cfgr.ppre2.get (p'.peek .cfgr) = Cfgr.ppre2.get (p.peek .cfgr)) : BusesSet b p' q where
  source := h.source
  hpre := h.hpre.trans (divided_congr hhpre).symm
  ppre1 := h.ppre1.trans (divided_congr hppre1).symm
  ppre2 := h.ppre2.trans (divided_congr hppre2).symm
  waitStates := h.waitStates

end Hardware.BusesSet

/-! ## A plan in force -/

namespace Clock

/-- The plan names all bus clocks, the real-time clock and the converter. -/
structure Plan.NamesAll (plan : Plan) : Prop where
  buses : ∀ clock, plan.buses.named.names clock = true
  rtc : plan.peripherals.named.names .rtc = true
  adc : plan.peripherals.named.names .adc = true

/-- Where all of them are named, it does not matter where they were before. -/
theorem Plan.NamesAll.rebase {plan : Plan} (h : plan.NamesAll) {p p' q : Part}
    (hq : BusesSet plan.buses p q) : BusesSet plan.buses p' q :=
  BusesSet.rebase hq (by simp [h.buses]) (by simp [h.buses]) (by simp [h.buses])

/-- What the system clock demands of the oscillator, or of the PLL, that it is
to run from. -/
def Plan.sourceDemand (plan : Plan) : Demand :=
  match plan.buses.sysclk with
  | .hsi => .hsi .on
  | .hse => .hse plan.oscillators.hse
  | .pll => .pll plan.oscillators.pll.isSome

/-- The bits of the oscillators and of the PLL are as the plan wants them, and
the source of the system clock runs. -/
structure Plan.Operated (plan : Plan) (p : Part) : Prop where
  bits : ∀ s : Stage, s.named plan.oscillators = true → s.Programmed plan.oscillators p
  setting : ∀ setting, plan.oscillators.pll = some setting →
    p.pllSetting = setting.code plan.oscillators.hseDivider
  source : plan.sourceDemand.Met p

/-- The part is as the plan wants it. -/
structure Plan.InForce (plan : Plan) (p : Part) : Prop where
  outOfReset : p.NoDomainReset
  opened : p.Open
  operated : plan.Operated p
  buses : BusesSet plan.buses p p
  peripherals : PeripheralsSet plan.peripherals p p

variable {plan : Plan} {rates : Rates} {m : Footprint} {p q : Part} {s : Stage}

theorem Plan.sourceDemand_register (plan : Plan) : plan.sourceDemand.register = .cr := by
  unfold sourceDemand
  split <;> rfl

/-- Under a plan that the check accepts, the source is to run. -/
theorem Plan.sourceDemand_running (hcheck : plan.check = .ok rates) :
    plan.sourceDemand.running = true := by
  have hruns := sysclkSourceRuns_of_check hcheck
  unfold sourceDemand
  split
  · rfl
  · next hsource =>
    rw [hsource] at hruns
    exact (Bool.and_eq_true_iff.mp hruns).2
  · next hsource =>
    rw [hsource] at hruns
    exact hruns

/-- The source runs if it is ready. -/
theorem Plan.ready_iff (plan : Plan) (p : Part) :
    p.Ready plan.buses.sysclk ↔
      (p.peek plan.sourceDemand.register).has plan.sourceDemand.status = true := by
  unfold Part.Ready sourceDemand
  split <;> simp only [*] <;> exact Iff.rfl

/-- It keeps running if nothing is done to the oscillators. -/
theorem Plan.sourceMet_of_confined (h : plan.sourceDemand.Met p) (hq : Confined m p q)
    (hcr : m .cr = 0) : plan.sourceDemand.Met q := by
  refine h.of_confined hq ?_ ?_
  · refine Footprint.covers_of_ne plan.sourceDemand.flag.register_notUsart ?_
    exact fun hr => by cases (plan.sourceDemand_register.symm.trans hr)
  · rw [plan.sourceDemand_register, hcr]
    exact BitVec.zero_and

/-- The oscillators stay as they are if no bit of theirs is changed. -/
theorem Plan.Operated.of_confined (h : plan.Operated p) (hq : Confined m p q)
    (hcr : m .cr = 0) (hcsr : m .csr = 0) (hcfgr : m .cfgr &&& Cfgr.pll = 0)
    (hcrystal : Word.AgreeOn Bdcr.lseMode (q.peek .bdcr) (p.peek .bdcr)) : plan.Operated q where
  bits s hnamed := by
    have hkept : ∀ {d : Demand}, d.register ≠ .bdcr → m d.register = 0 →
        p.peek d.register &&& d.mask = d.bits → q.peek d.register &&& d.mask = d.bits := by
      intro d hd hm hbits
      have hcover : m.Covers p d.register := Footprint.covers_of_ne d.flag.register_notUsart hd
      refine Demand.bits_of_confined hq hcover ?_ hbits
      rw [hm]
      exact BitVec.zero_and
    have hbits := h.bits s hnamed
    cases s with
    | lse => exact Eq.trans hcrystal hbits
    | hse | hsi | pll => exact hkept (by nofun) hcr hbits
    | lsi => exact hkept (by nofun) hcsr hbits
  setting setting hsetting := (hq.pllSetting_eq hcfgr).trans (h.setting setting hsetting)
  source := Plan.sourceMet_of_confined h.source hq hcr

end Clock

/-- The register of the power controller's clock has no flags. -/
theorem Part.Open.of_confined {m : Footprint} {p q : Part} (h : Confined m p q)
    (hclock : m .apb1enr = 0) (hlock : m .pwr = 0) (hp : p.Open) : q.Open where
  powered := by
    have hsteady := h.steady .apb1enr
      (Footprint.covers_of_ne (by rintro ⟨u, hu⟩; cases hu) (by decide))
    rw [hclock] at hsteady
    exact (hsteady.getLsbD (by decide)).trans hp.powered
  unlocked := h.unlocked hlock hp.unlocked

namespace Clock.Plan.InForce

variable {plan : Plan} {rates : Rates} {m : Footprint} {p q : Part} {s : Stage}

/-- A plan stays in force if nothing is changed. -/
theorem of_none (h : plan.InForce p) (hq : Confined .none p q) : plan.InForce q := by
  have hbdcr := hq.steady .bdcr (Footprint.covers_bdcr rfl h.outOfReset)
  refine ⟨hq.noDomainReset rfl h.outOfReset, h.opened.of_confined hq rfl rfl,
    h.operated.of_confined hq rfl rfl (by decide) (hbdcr.mono (by decide)), ?_, ?_⟩
  · exact (h.buses.of_confined hq BitVec.zero_and rfl).rebase (fun _ => hq.get_cfgr (by decide))
      (fun _ => hq.get_cfgr (by decide)) (fun _ => hq.get_cfgr (by decide))
  · refine ⟨fun hnamed _ => ?_, ?_⟩
    · exact (hq.get_rtcSource rfl h.outOfReset).trans (h.peripherals.rtc hnamed h.outOfReset)
    · rw [hq.get_cfgr (by decide)]
      exact h.peripherals.adc

/-- The system clock runs from the plan's source. -/
theorem running (h : plan.InForce p) (hall : plan.NamesAll) :
    Cfgr.running (p.peek .cfgr) = plan.buses.sysclk := by
  obtain ⟨hcode, hsettled⟩ := h.buses.source (hall.buses .sysclk)
  have hsws : Cfgr.sws.get (p.peek .cfgr) = plan.buses.sysclk.code := hsettled.symm.trans hcode
  rw [Cfgr.running, hsws, SysclkSource.ofCode_code]

/-- If that is the PLL, then its input runs under the plan. -/
theorem inputRuns (h : plan.InForce p) (hcheck : plan.check = .ok rates)
    (hpll : plan.buses.sysclk = .pll) :
    plan.oscillators.pllInputRuns (Cfgr.pllInput (p.peek .cfgr)) = true := by
  have hruns : plan.oscillators.sysclkSourceRuns plan.buses.sysclk = true :=
    Plan.sysclkSourceRuns_of_check hcheck
  rw [hpll] at hruns
  obtain ⟨setting, hsetting⟩ := Option.isSome_iff_exists.mp hruns
  have hcode : p.pllSetting = setting.code plan.oscillators.hseDivider :=
    h.operated.setting setting hsetting
  have haccepted := Plan.pll_of_check hcheck hsetting
  have hsets := ((Cfgr.code_iff haccepted.1).mp hcode).1
  rw [(Cfgr.pllSetting_eq_iff.mp hsets.1).1]
  exact haccepted.2

/-- An oscillator that feeds the system clock, directly or through the PLL, runs
under the plan. -/
theorem runs_of_drives (h : plan.InForce p) (hall : plan.NamesAll)
    (hcheck : plan.check = .ok rates) {o : Oscillator} {source : SysclkSource} {input : PllSource}
    (hsource : plan.oscillators.sysclkSourceRuns source = plan.oscillators.runs o)
    (hinput : plan.oscillators.pllInputRuns input = plan.oscillators.runs o)
    (hdrives : Cfgr.Drives source input (p.peek .cfgr)) : plan.oscillators.runs o = true := by
  have hrunning : Cfgr.running (p.peek .cfgr) = plan.buses.sysclk := h.running hall
  rcases hdrives with hdirect | ⟨hpll, hfed⟩
  · rw [← hsource, ← hdirect, hrunning]
    exact Plan.sysclkSourceRuns_of_check hcheck
  · rw [← hinput, ← hfed]
    exact h.inputRuns hcheck (hrunning.symm.trans hpll)

/-- What the system clock runs from is to run. -/
theorem running_of_inUse (h : plan.InForce p) (hall : plan.NamesAll)
    (hcheck : plan.check = .ok rates) (hnamed : s.named plan.oscillators = true)
    (hinUse : s.InUse (p.peek .cfgr)) : (s.demand plan.oscillators).running = true := by
  cases s with
  | hse =>
      have hruns : plan.oscillators.runs .hse = true := h.runs_of_drives hall hcheck rfl rfl hinUse
      exact (Bool.and_eq_true_iff.mp hruns).2
  | hsi =>
      have hruns : plan.oscillators.runs .hsi = true := h.runs_of_drives hall hcheck rfl rfl hinUse
      have hnamed : plan.oscillators.named.names .hsi = true := hnamed
      exact (Bool.or_eq_true_iff.mp hruns).resolve_left (by rw [hnamed]; decide)
  | lsi | lse => exact absurd hinUse id
  | pll =>
      have hpll : plan.buses.sysclk = .pll := (h.running hall).symm.trans hinUse
      have hruns := Plan.sysclkSourceRuns_of_check hcheck
      rwa [hpll] at hruns

/-- The plan's source is ready, and stays so if nothing is done to the
oscillators. -/
theorem ready (h : plan.InForce p) (hcheck : plan.check = .ok rates) (hq : Confined m p q)
    (hm : m .cr = 0) : q.Ready plan.buses.sysclk := by
  have hmet : plan.sourceDemand.Met q := Plan.sourceMet_of_confined h.operated.source hq hm
  exact (plan.ready_iff q).mpr (hmet.ready.trans (Plan.sourceDemand_running hcheck))

end Clock.Plan.InForce

end BringUp
