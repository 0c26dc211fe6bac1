import BringUp.Proofs.AcceptedPlans
import BringUp.Proofs.AtRest
import BringUp.Proofs.BackupAccess
import BringUp.Proofs.PlanInForce

/-!
The clock steps where their plan is in force already.

* `OscillatorPlan.waitsFor`: the flags that the steps may wait for.
* `Moved plan m p q`: only bits of the footprint were changed, and what the plan
  does not wait for comes to what it came to.
* `Moves t patience plan m x p`: run from `p`, the driver `x` succeeds and moves
  no more than that.

Main statements: where a plan is in force that the check accepts and that names
all clocks, each of the three clock steps succeeds and changes nothing that
lasts (`configureOscillators_inForce`, `configureBusClocks_inForce`,
`configurePeripheralClocks_inForce`).

On the way things do change: an oscillator beside the clock in use is stopped
and started again, and the peripheral buses are slowed down for the switch. The
drivers leave the same bits behind as they found, which is all that is asked of
them here.
-/

namespace BringUp

open Clock Hardware

/-! ## What the plan does not wait for -/

/-- The flags that the clock steps of a plan may wait for. That of the slow
internal oscillator is not among them if the plan does not name it. -/
def Clock.OscillatorPlan.waitsFor (plan : OscillatorPlan) : StatusFlag → Bool
  | .lsi => plan.named.names .lsi
  | .prefetch => false
  | _ => true

/-- Only bits of the footprint were changed. Flags that the plan does not wait
for, and the USARTs, come to what they came to. -/
structure Moved (plan : OscillatorPlan) (m : Footprint) (p q : Part) : Prop where
  confined : Confined m p q
  flag : ∀ f, plan.waitsFor f = false → q.flagAtRest f = p.flagAtRest f
  usart : ∀ u, q.usartAtRest u = p.usartAtRest u

/-- In none of the registers is there anything that the plan does not wait
for. -/
structure Clock.OscillatorPlan.WaitsIn (plan : OscillatorPlan) (rs : List Register) : Prop where
  acr : .acr ∉ rs
  csr : .csr ∈ rs → plan.named.names .lsi = true
  usart : ∀ r ∈ rs, ∀ u s, r ≠ .usart u s

section Moved

variable {plan : OscillatorPlan} {m : Footprint} {p q u : Part} {rs : List Register}

namespace Moved

theorem refl (m : Footprint) (p : Part) : Moved plan m p p :=
  ⟨.refl m p, fun _ _ => rfl, fun _ => rfl⟩

theorem trans (h : Moved plan m p q) (h' : Moved plan m q u) : Moved plan m p u :=
  ⟨h.confined.trans h'.confined, fun f hf => (h'.flag f hf).trans (h.flag f hf),
    fun usart => (h'.usart usart).trans (h.usart usart)⟩

theorem tick (m : Footprint) (p : Part) (r : Register) : Moved plan m p (p.tick r) :=
  ⟨.tick m p r, fun f _ => p.flagAtRest_tick r f, fun u => p.usartAtRest_tick r u⟩

/-- Where nothing was changed, and the flags that are waited for follow, the
part comes to the same registers. -/
theorem sameAtRest (h : Moved plan .none p q) (hreset : p.NoDomainReset)
    (hp : p.Tracks plan.waitsFor) (hq : q.Tracks plan.waitsFor) : SameAtRest p q where
  steady r hr := by
    have hsteady := h.confined.steady r (Footprint.covers_of_noDomainReset rfl hreset hr)
    have hzero : (0 : Word) ||| StatusFlag.statusOf r = StatusFlag.statusOf r := BitVec.zero_or
    rwa [Footprint.none_apply, hzero] at hsteady
  flag f := by
    cases hwaits : plan.waitsFor f with
    | false => exact h.flag f hwaits
    | true =>
        obtain ⟨bound, hbound⟩ : ∃ bound, f.budgetIn plan.waitsFor = some bound := by
          unfold StatusFlag.budgetIn
          rw [hwaits]
          cases f <;> first | exact ⟨_, rfl⟩ | cases hwaits
        rw [(hp f bound hbound).atRest, (hq f bound hbound).atRest]
        exact h.confined.wanted
          (Footprint.covers_of_noDomainReset rfl hreset f.register_notUsart) BitVec.zero_and
  usart := h.usart

end Moved

/-- What the plan does not wait for is not among its registers. -/
theorem Clock.OscillatorPlan.WaitsIn.register_notMem (h : plan.WaitsIn rs) {f : StatusFlag}
    (hf : plan.waitsFor f = false) : f.register ∉ rs := by
  cases f with
  | prefetch => exact h.acr
  | lsi =>
      intro hmem
      have hnamed : plan.named.names .lsi = false := hf
      rw [h.csr hmem] at hnamed
      cases hnamed
  | hsi | hse | pll | lse | sysclk => cases hf

/-- Drivers of these registers leave it alone. -/
theorem Clock.OscillatorPlan.WaitsIn.keeps (h : plan.WaitsIn rs) (t : Temper) (p : Part) :
    (simulated t).Keeps (Access.among rs) (fun q =>
      (∀ f, plan.waitsFor f = false → q.flagAtRest f = p.flagAtRest f) ∧
        ∀ u, q.usartAtRest u = p.usartAtRest u) where
  read r q hok hq :=
    ⟨fun f hf => (Part.flagAtRest_keeps t (h.register_notMem hf) _).read r q hok (hq.1 f hf),
      fun u => (Part.usartAtRest_keeps t h.usart u _).read r q hok (hq.2 u)⟩
  write r v q hok hq :=
    ⟨fun f hf => (Part.flagAtRest_keeps t (h.register_notMem hf) _).write r v q hok (hq.1 f hf),
      fun u => (Part.usartAtRest_keeps t h.usart u _).write r v q hok (hq.2 u)⟩
  storeVector _ _ _ _ hq := hq

variable {t : Temper} {patience : Nat}

/-- The driver succeeds within the footprint, and touches nothing that the plan
does not wait for. -/
def Moves (t : Temper) (patience : Nat) (plan : OscillatorPlan) (m : Footprint) (x : Setup Unit)
    (p : Part) : Prop :=
  Succeeds t patience x p (fun _ q => Moved plan m p q) plan.waitsFor

namespace Moves

theorem of_succeeds {x : Setup Unit}
    (hx : Succeeds t patience x p (fun _ q => Confined m p q) plan.waitsFor)
    (hcalls : x.run.CallsOnly (Access.among rs)) (hrs : plan.WaitsIn rs) :
    Moves t patience plan m x p := by
  intro hp
  refine ((hx hp).within (hrs.keeps t p) hcalls ⟨fun _ _ => rfl, fun _ => rfl⟩).unguarded.imp ?_
  rintro _ q ⟨⟨hflags, husarts⟩, hq, _, rfl, hconfined⟩
  exact ⟨hq, (), rfl, hconfined, hflags, husarts⟩

theorem bind {x y : Setup Unit} (hx : Moves t patience plan m x p)
    (hy : ∀ q, Moved plan m p q → Moves t patience plan m y q) :
    Moves t patience plan m (x >>= fun _ => y) p :=
  Succeeds.bind hx fun _ q hq => (hy q hq).imp fun _ _ hu => hq.trans hu

theorem optionally {c : Bool} {x : Setup Unit} (hx : c = true → Moves t patience plan m x p) :
    Moves t patience plan m (BringUp.optionally c x) p :=
  Succeeds.optionally hx fun _ => .refl m p

end Moves

end Moved

/-! ## The oscillators -/

namespace Hardware

section Oscillators

variable {t : Temper} (ht : t.Cooperative) {patience : Nat} {p : Part}

include ht in
/-- To open a domain that is open changes nothing. -/
theorem access_idles (hp : p.Open) {watched : StatusFlag → Bool} :
    Succeeds t patience BackupDomain.access p (fun _ q => Confined .none p q) watched := by
  have hsame : p.peek .apb1enr ||| BitVec.twoPow 32 28 = p.peek .apb1enr := by
    ext i hi
    have hbit := hp.powered
    by_cases h : i = 28
    · subst h
      simp_all [BitVec.getLsbD_eq_getElem]
    · simp [h]
  have hpowered : Confined .none p (p.powered t) :=
    (Confined.refl .none p).write ht.unlatched (by rw [hsame]; exact .refl _ _)
  have hunlocked : (p.powered t).Unlocked := hpowered.unlocked rfl hp.unlocked
  refine .of_ensures (G := fun _ => True) ht ⟨fun _ _ => trivial, _, _, _, access_run p, (), ?_, ?_⟩
  · rw [unlockResult_eq_ok, Part.unlocking, if_pos hunlocked]
    exact hunlocked
  · rw [Part.unlocking, if_pos hunlocked]
    exact hpowered

include ht in
/-- A crystal that is in its mode is only waited for. -/
theorem configureLse_idles {mode : OscillatorMode} {watched : StatusFlag → Bool}
    (hlse : StatusFlag.lse.budgetIn watched = some Budget.lse) (hp : p.NoDomainReset)
    (hopen : p.Open) (hmode : p.peek .bdcr &&& Bdcr.lseMode = lseBits mode) :
    Succeeds t patience (configureLse mode) p (fun _ q => Confined .none p q) watched := by
  have hkept : ∀ {q}, Confined .none p q → q.peek .bdcr &&& Bdcr.lseMode = lseBits mode :=
    fun hq => Demand.bits_of_confined (d := .lse mode) hq (Demand.covers _ rfl hp)
      BitVec.zero_and hmode
  unfold configureLse
  refine .bind (access_idles ht hopen) fun _ q hq => ?_
  refine .bind (R := fun w u => w = q.peek .bdcr ∧ Confined .none p u) ?_ ?_
  · exact .lift ht (.read trivial ⟨rfl, hq.trans (.tick .none q .bdcr)⟩)
  rintro _ u ⟨rfl, hu⟩
  rw [if_pos (hkept hq)]
  exact (awaitLse_succeeds ht hlse (lseControl_eq (hkept hu))).imp fun _ _ hv => hu.trans hv

end Oscillators

section Plans

variable {t : Temper} (ht : t.Cooperative) {patience : Nat} {plan : Plan} {rates : Rates}
  (hall : plan.NamesAll) (hcheck : plan.check = .ok rates) {p : Part}

include ht hall hcheck in
/-- The driver of a stage that the plan names. -/
theorem driver_idles {s : Stage} (hnamed : s.named plan.oscillators = true)
    (hp : plan.InForce p) :
    Moves t patience plan.oscillators .none (s.driver plan.oscillators) p := by
  have hrestores : s ≠ .lse → ∀ {Q},
      Succeeds t patience (s.driver plan.oscillators) p Q plan.oscillators.waitsFor →
      Succeeds t patience (s.driver plan.oscillators) p (fun _ q => Confined .none p q)
        plan.oscillators.waitsFor := fun hs _ hx =>
    (hx.and (driver_restores ht.unlatched hs hp.outOfReset (hp.operated.bits s hnamed)
      hp.operated.setting)).imp fun _ _ hq => hq.2 rfl
  cases s with
  | hse =>
      refine .of_succeeds (hrestores (by decide) (configureHse_succeeds ht rfl fun hinUse => ?_))
        (configureHse_among _) ⟨by simp, by simp, by simp⟩
      exact hp.running_of_inUse (s := .hse) hall hcheck hnamed hinUse
  | hsi =>
      refine .of_succeeds (hrestores (by decide) (configureHsi_succeeds ht rfl fun hinUse => ?_))
        (configureHsi_among _) ⟨by simp, by simp, by simp⟩
      have hrunning : plan.oscillators.hsi.running = true :=
        hp.running_of_inUse (s := .hsi) hall hcheck hnamed hinUse
      have hbits : Stage.hsi.Programmed plan.oscillators p := hp.operated.bits .hsi hnamed
      exact ⟨hrunning, Eq.trans hbits (if_pos hrunning)⟩
  | lsi =>
      have hwatched : StatusFlag.lsi.budgetIn plan.oscillators.waitsFor = some Budget.lsi := by
        have hnamed : plan.oscillators.named.names .lsi = true := hnamed
        rw [StatusFlag.budgetIn, OscillatorPlan.waitsFor, hnamed]
        rfl
      exact .of_succeeds (hrestores (by decide) (configureLsi_succeeds ht hwatched _))
        (configureLsi_among _) ⟨by simp, fun _ => hnamed, by simp⟩
  | lse =>
      exact .of_succeeds
        (configureLse_idles ht rfl hp.outOfReset hp.opened (hp.operated.bits .lse hnamed))
        (configureLse_among _) ⟨by simp, by simp, by simp⟩
  | pll =>
      refine .of_succeeds (hrestores (by decide) (configurePll_succeeds ht rfl
        (fun _ hs => (Plan.pll_of_check hcheck hs).1) fun hinUse => ?_))
        (configurePll_among _ _) ⟨by simp, by simp, by simp⟩
      have hsome : plan.oscillators.pll.isSome = true :=
        hp.running_of_inUse (s := .pll) hall hcheck hnamed hinUse
      obtain ⟨setting, hsetting⟩ := Option.isSome_iff_exists.mp hsome
      exact ⟨setting, hsetting, hp.operated.setting setting hsetting⟩

include ht hall hcheck in
/-- The oscillators of a plan in force are operated in vain. -/
theorem configureOscillators_inForce (hp : plan.InForce p) :
    Moves t patience plan.oscillators .none (configureOscillators plan.oscillators) p := by
  rw [configureOscillators_eq_forM]
  generalize Stage.order = stages
  induction stages generalizing p with
  | nil => exact Succeeds.pure (.refl .none p)
  | cons s stages ih =>
      rw [List.forM_cons]
      refine .bind (.optionally fun hnamed => driver_idles ht hall hcheck hnamed hp) fun q hq => ?_
      exact ih (hp.of_none hq.confined)

/-! ## The bus clocks -/

include ht in
/-- Wait states that are not to be adjusted are only read. -/
theorem adjustWaitStates_idles (due : WaitStates → Prop) [DecidablePred due] (wanted : WaitStates)
    {m : Footprint} (hidle : ¬due p.waitStates) :
    Moves t patience plan.oscillators m (adjustWaitStates due wanted) p := by
  unfold adjustWaitStates
  refine Succeeds.bind (R := fun current q => current = p.waitStates ∧ q = p.tick .acr)
    (.lift ht ?_) ?_
  · refine .bind (R := fun code q => Flash.decodeWaitStates code = p.waitStates ∧ q = p.tick .acr)
      (.readField trivial ⟨rfl, rfl⟩) fun code q h => .pure h
  · rintro _ _ ⟨rfl, rfl⟩
    rw [if_neg hidle]
    exact .pure (.tick m p .acr)

/-- The fields of the bus clocks, without the wait states. -/
def busFields : Footprint
  | .cfgr => Cfgr.sw.mask ||| Cfgr.hpre.mask ||| Cfgr.ppre1.mask ||| Cfgr.ppre2.mask
  | _ => 0

theorem within_busFields {m : Footprint} (hcfgr : m .cfgr &&& busFields .cfgr = m .cfgr)
    (hother : ∀ r, r ≠ .cfgr → m r = 0) : m.Within busFields := by
  intro r
  by_cases hr : r = .cfgr
  · subst hr
    exact hcfgr
  · rw [hother r hr]
    exact BitVec.zero_and

include ht hcheck in
/-- Where a plan is in force, the wait states are only looked at, and the source
that the system clock runs from is ready. -/
theorem configureBusClocks_moves (hp : plan.InForce p) :
    Moves t patience plan.oscillators busFields (configureBusClocks plan.buses) p := by
  have hdividers : Footprint.dividers.Within busFields :=
    within_busFields (by decide) (by intro r hr; cases r <;> first | rfl | exact absurd rfl hr)
  have hsw : (Footprint.only .cfgr Cfgr.sw.mask).Within busFields :=
    Footprint.only_within (by decide)
  rw [configureBusClocks_eq]
  refine .bind (adjustWaitStates_idles ht (plan.buses.waitStates.count > ·.count) _ ?_)
    fun q1 h1 => ?_
  · rw [hp.buses.waitStates]
    exact Nat.lt_irrefl _
  refine .bind (.optionally fun _ => .of_succeeds (.lift ht ?_)
    (.lift (divideCore_among _)) ⟨by simp, by simp, by simp⟩) fun q2 h2 => ?_
  · exact (divideCore_ensures ht.unlatched _ q1).unguarded.imp fun _ _ hq => hq.1.mono hdividers
  have hready : q2.Ready plan.buses.sysclk := hp.ready hcheck (h1.trans h2).confined rfl
  refine .bind (.optionally fun _ => .of_succeeds ?_ (switchSysclk_among _)
    ⟨by simp, by simp, by simp⟩) fun q3 h3 => ?_
  · exact ((switchSysclk_succeeds ht rfl hready).and
      (switchSysclk_ensures ht.unlatched _ q2)).imp fun _ _ hq => hq.2.1.mono hsw
  refine .bind (adjustWaitStates_idles ht (plan.buses.waitStates.count < ·.count) _ ?_)
    fun q4 _ => ?_
  · rw [((h1.trans h2).trans h3).confined.waitStates_eq (by decide), hp.buses.waitStates]
    exact Nat.lt_irrefl _
  refine .of_succeeds (.lift ht ?_) (.lift (dividePeripheralBuses_among _))
    ⟨by simp, by simp, by simp⟩
  exact (dividePeripheralBuses_ensures ht.unlatched _ q4).unguarded.imp
    fun _ _ hq => (hq.1.mono busDividers_within).mono hdividers

include hall in
/-- Bus clocks that are set as they were have not changed, nor has the source in
use. -/
theorem busFields_unchanged (hp : plan.InForce p) {q : Part} (hq : Confined busFields p q)
    (hset : BusesSet plan.buses p q) : Confined .none p q := by
  obtain ⟨hsw, hsettled⟩ := hp.buses.source (hall.buses .sysclk)
  obtain ⟨hsw', hsettled'⟩ := hset.source (hall.buses .sysclk)
  have hsource : Cfgr.sw.get (q.peek .cfgr) = Cfgr.sw.get (p.peek .cfgr) := hsw'.trans hsw.symm
  have hstatus : Cfgr.sws.get (q.peek .cfgr) = Cfgr.sws.get (p.peek .cfgr) :=
    hsettled'.symm.trans (hsource.trans hsettled)
  have hfields : Word.AgreeOn (busFields .cfgr) (q.peek .cfgr) (p.peek .cfgr) :=
    (((Word.AgreeOn.of_get hsource (by decide)).union
      (.of_get (hset.hpre.trans hp.buses.hpre.symm) (by decide))).union
        (.of_get (hset.ppre1.trans hp.buses.ppre1.symm) (by decide))).union
          (.of_get (hset.ppre2.trans hp.buses.ppre2.symm) (by decide))
  refine hq.of_same rfl (fun r => ?_) fun f => ?_
  · cases r with
    | cfgr => exact hfields
    | _ => exact BitVec.and_zero.trans BitVec.and_zero.symm
  · cases f with
    | sysclk => exact .inr (.inl (Word.AgreeOn.of_get hstatus (by decide)))
    | _ => exact .inl BitVec.zero_and

include ht hall hcheck in
/-- The bus clocks of a plan in force end as they were. -/
theorem configureBusClocks_inForce (hp : plan.InForce p) :
    Moves t patience plan.oscillators .none (configureBusClocks plan.buses) p := by
  refine (Succeeds.and (configureBusClocks_moves ht hcheck hp)
    (configureBusClocks_ensures ht.unlatched plan.buses p)).imp ?_
  rintro _ q ⟨hmoved, -, hset⟩
  exact ⟨busFields_unchanged hall hp hmoved.confined (hset rfl), hmoved.flag, hmoved.usart⟩

/-! ## The peripheral clocks -/

include ht in
/-- A source that is selected is written again. -/
theorem selectRtcSource_idles {source : RtcSource} {watched : StatusFlag → Bool} (hopen : p.Open)
    (hp : p.NoDomainReset) (hsource : Bdcr.rtcSource.get (p.peek .bdcr) = source.code) :
    Succeeds t patience (selectRtcSource source) p (fun _ q => Confined .none p q) watched := by
  have hkept : ∀ {q}, Confined .none p q → Bdcr.rtcSource.get (q.peek .bdcr) = source.code :=
    fun hq => (hq.get_rtcSource rfl hp).trans hsource
  unfold selectRtcSource
  refine .bind (access_idles ht hopen) fun _ q hq => ?_
  refine .bind (R := fun current u => current = source.code ∧ Confined .none p u) ?_ ?_
  · exact .lift ht (.readField trivial ⟨hkept hq, hq.trans (.tick .none q .bdcr)⟩)
  rintro _ u ⟨rfl, hu⟩
  dsimp only
  rw [if_neg (fun h => h.2 rfl)]
  have hready : BackupReady u := ⟨hu.unlocked rfl hopen.unlocked, hu.noDomainReset rfl hp⟩
  refine .of_ensures ht ((writeRtcSource_ensures ht.unlatched source hready).imp ?_)
  rintro _ v ⟨rfl, hv, hcode⟩
  refine ⟨(), rfl, hu.trans (hv.of_field ?_ (by decide) (by decide) (by decide))⟩
  exact hcode.trans (hkept hu).symm

include ht in
/-- The peripheral clocks of a plan in force are selected again. -/
theorem configurePeripheralClocks_inForce (hp : plan.InForce p) :
    Moves t patience plan.oscillators .none (configurePeripheralClocks plan.peripherals) p := by
  rw [configurePeripheralClocks_eq]
  refine .bind (.optionally fun hnamed => .of_succeeds ?_ (selectRtcSource_among _)
    ⟨by simp, by simp, by simp⟩) fun q hq => ?_
  · exact selectRtcSource_idles ht hp.opened hp.outOfReset
      (hp.peripherals.rtc hnamed hp.outOfReset)
  have hamong : (Driver.writeField .cfgr Cfgr.adcpre plan.peripherals.adc.code).CallsOnly
      (Access.among [.cfgr]) := .modify rfl fun _ => rfl
  refine .optionally fun hnamed => .of_succeeds (.lift ht ?_) (.lift hamong)
    ⟨by simp, by simp, by simp⟩
  have hcode : Cfgr.adcpre.get (q.peek .cfgr) = plan.peripherals.adc.code :=
    (hp.of_none hq.confined).peripherals.adc.trans (if_pos hnamed)
  refine .writeFieldOpen ht.unlatched Register.cfgr_open plan.peripherals.adc.code_fits (by decide)
    (fun _ _ => trivial) fun _ u _ _ hu hget => ⟨trivial, ?_⟩
  exact hu.of_field (hget.trans hcode.symm) (by decide) (by decide) (by decide)

end Plans

end Hardware

end BringUp
