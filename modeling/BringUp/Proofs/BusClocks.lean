import BringUp.Hardware.BusClocks
import BringUp.Proofs.Pll

/-!
The bus clocks: wait states, dividers and the switch of the system clock.

* `setWaitStates_ensures`, `adjustWaitStates_ensures`: the wait states at and
  after each access; `raiseWaitStates_ensures`, `lowerWaitStates_ensures`: what
  follows for the two adjustments of the driver.
* `writeApbDividers_ensures`: the dividers of the peripheral buses, one after the
  other; `divideCore_ensures`, `dividePeripheralBuses_ensures`: the dividers.
* `switchSysclk_ensures`: after a success the system clock runs from the
  wanted source.
* `prepareSwitch`, `finishSwitch`: the steps before the switch and after it.
* `BusesSet`: what a plan's bus clocks come to.

Main statement: after a success the fields that the plan names are as it wants
them, and the others as they were (`configureBusClocks_ensures`).
-/

namespace BringUp

open Clock

namespace Hardware

variable {t : Temper} (ht : t.Unlatched) {patience : Nat}

/-! ## Wait states -/

theorem waitStates_ensures {G : Event Part → Prop} {p : Part} {Q : WaitStates → Part → Prop}
    (hG : ∀ q, Confined .none p q → G ⟨p, .read .acr, q⟩)
    (hQ : ∀ q, Confined .none p q → Q p.waitStates q) :
    Ensures (simulated t) patience G Flash.waitStates p Q :=
  .readDecoded hG hQ

theorem WaitStates.eq_of_count {a b : WaitStates} (h : a.count = b.count) : a = b := by
  cases a <;> cases b <;> first | rfl | cases h

include ht in
/-- The wait states in force are the old ones or the wanted ones, and the
wanted ones in the end, which is where they read back. -/
theorem setWaitStates_ensures (wanted : WaitStates) (p : Part) :
    Ensures (simulated t) patience
      (fun e => Confined .waitStates p e.before ∧ Confined .waitStates p e.after ∧
        (e.after.waitStates = p.waitStates ∨ e.after.waitStates = wanted))
      (Flash.setWaitStates wanted).run p
      (fun result q => result = .ok () ∧ Confined .waitStates p q ∧ q.waitStates = wanted) := by
  have honly : (Footprint.only .acr Flash.latency.mask).Within .waitStates :=
    Footprint.only_within (by decide)
  unfold Flash.setWaitStates
  refine .setupBind (R := fun result q => (∃ a, result = .ok a) ∧ Confined .waitStates p q ∧
    q.waitStates = wanted) ?_ ?_ (fun _ _ hq => by obtain ⟨⟨_, ⟨⟩⟩, -⟩ := hq)
  · refine .lift (.writeFieldOpen ht Register.acr_open wanted.count_fits (by decide) ?_ ?_)
    · intro q hq
      exact ⟨.refl _ p, hq.of_none, .inl (hq.waitStates_eq (by decide))⟩
    · intro q q' w hq hq' hget
      have hnew : q'.waitStates = wanted := by
        unfold Part.waitStates
        rw [hget, WaitStates.decode_count]
      exact ⟨⟨hq.of_none, hq'.mono honly, .inr hnew⟩, ⟨_, rfl⟩, hq'.mono honly, hnew⟩
  · rintro _ q ⟨-, hq, hws⟩
    refine .setupBind (R := fun found u => found = .ok wanted ∧ Confined .waitStates p u ∧
      u.waitStates = wanted) ?_ ?_ (fun _ _ hu => by cases hu.1)
    · refine .lift (waitStates_ensures (fun u hu => ?_) (fun u hu => ?_))
      · have hkept := (hu.waitStates_eq (by decide)).trans hws
        exact ⟨hq, hq.trans (hu.of_none), .inr hkept⟩
      · exact ⟨congrArg _ hws, hq.trans (hu.of_none), (hu.waitStates_eq (by decide)).trans hws⟩
    · rintro _ u ⟨⟨⟩, hu⟩
      rw [if_pos rfl]
      exact .setupPure ⟨rfl, hu⟩

include ht in
/-- Wait states that are set if it is due. They are the old ones or, if it is
due, the wanted ones. -/
theorem adjustWaitStates_ensures (due : WaitStates → Prop) [DecidablePred due]
    (wanted : WaitStates) (p : Part) :
    Ensures (simulated t) patience
      (fun e => Confined .waitStates p e.before ∧ Confined .waitStates p e.after ∧
        (e.after.waitStates = p.waitStates ∨ due p.waitStates ∧ e.after.waitStates = wanted))
      (adjustWaitStates due wanted).run p
      (fun result q => result = .ok () ∧ Confined .waitStates p q ∧
        q.waitStates = if due p.waitStates then wanted else p.waitStates) := by
  unfold adjustWaitStates
  refine .setupBind (R := fun current q => Confined .none p q ∧ current = .ok p.waitStates)
    ?_ ?_ (fun e q hq => by cases hq.2)
  · refine .lift (waitStates_ensures (fun q hq => ?_) (fun q hq => ⟨hq, rfl⟩))
    exact ⟨.refl _ p, hq.of_none, .inl (hq.waitStates_eq (by decide))⟩
  rintro _ q ⟨hq, ⟨⟩⟩
  have hsame : q.waitStates = p.waitStates := hq.waitStates_eq (by decide)
  split
  · next hdue =>
    refine (setWaitStates_ensures ht wanted q).mono ?_ ?_
    · rintro e ⟨hbefore, hafter, hws⟩
      refine ⟨hq.of_none.trans hbefore, hq.of_none.trans hafter, ?_⟩
      exact hws.imp (fun hold => hold.trans hsame) (fun hnew => ⟨hdue, hnew⟩)
    · exact fun _ u hu => ⟨hu.1, hq.of_none.trans hu.2.1, hu.2.2⟩
  · exact .setupPure ⟨rfl, hq.of_none, hsame⟩

include ht in
/-- The wait states never fall below the old ones, and in the end they are the
old or the wanted ones, whichever are more. -/
theorem raiseWaitStates_ensures (wanted : WaitStates) (p : Part) :
    Ensures (simulated t) patience
      (fun e => Confined .waitStates p e.before ∧ Confined .waitStates p e.after ∧
        p.waitStates.count ≤ e.after.waitStates.count)
      (raiseWaitStates wanted).run p
      (fun result q => result = .ok () ∧ Confined .waitStates p q ∧
        q.waitStates.count = max p.waitStates.count wanted.count) := by
  refine (adjustWaitStates_ensures ht (wanted.count > ·.count) wanted p).mono ?_ ?_
  · rintro e ⟨hbefore, hafter, hold | ⟨hmore, hnew⟩⟩
    · exact ⟨hbefore, hafter, Nat.le_of_eq (by rw [hold])⟩
    · exact ⟨hbefore, hafter, Nat.le_of_lt (by rwa [hnew])⟩
  · rintro _ q ⟨rfl, hq, hws⟩
    refine ⟨rfl, hq, ?_⟩
    rw [hws]
    split <;> omega

include ht in
/-- From enough wait states to exactly the wanted ones, never below them. -/
theorem lowerWaitStates_ensures {wanted : WaitStates} {p : Part}
    (hp : wanted.count ≤ p.waitStates.count) :
    Ensures (simulated t) patience
      (fun e => Confined .waitStates p e.before ∧ Confined .waitStates p e.after ∧
        wanted.count ≤ e.after.waitStates.count)
      (lowerWaitStates wanted).run p
      (fun result q => result = .ok () ∧ Confined .waitStates p q ∧ q.waitStates = wanted) := by
  refine (adjustWaitStates_ensures ht (wanted.count < ·.count) wanted p).mono ?_ ?_
  · rintro e ⟨hbefore, hafter, hold | ⟨-, hnew⟩⟩
    · exact ⟨hbefore, hafter, by rwa [hold]⟩
    · exact ⟨hbefore, hafter, Nat.le_of_eq (by rw [hnew])⟩
  · rintro _ q ⟨rfl, hq, hws⟩
    refine ⟨rfl, hq, hws.trans ?_⟩
    split
    · rfl
    · exact WaitStates.eq_of_count (by omega)

/-! ## Dividers -/

/-- A divider in the configuration, named or not, after a write of its code. -/
def divided (f : Field) (named : Bool) (code : Word) (p : Part) : Word :=
  if named then code else f.get (p.peek .cfgr)

include ht in
/-- Writes a divider if it is named. On the way it is as before or as
written. -/
theorem writeDivider_ensures {f : Field} {code : Word} (hcode : f.Fits code)
    (hstatus : f.mask &&& ~~~StatusFlag.statusOf .cfgr = f.mask) (named : Bool) (p : Part) :
    Ensures (simulated t) patience
      (fun e => Confined (.only .cfgr f.mask) p e.before ∧
        Confined (.only .cfgr f.mask) p e.after ∧
        (f.get (e.after.peek .cfgr) = f.get (p.peek .cfgr) ∨
          f.get (e.after.peek .cfgr) = code))
      (optionally named (Driver.writeField .cfgr f code)) p
      (fun _ q => Confined (.only .cfgr f.mask) p q ∧
        f.get (q.peek .cfgr) = divided f named code p) := by
  refine .optionallyDriver ?_ ?_
  · rintro rfl
    refine .writeFieldOpen ht Register.cfgr_open hcode hstatus ?_ ?_
    · intro q hq
      have hkept : f.get (q.peek .cfgr) = f.get (p.peek .cfgr) := by
        refine (hq.agreeOn_open Register.cfgr_open ?_).get (BitVec.and_self)
        rw [← hstatus, BitVec.and_comm, BitVec.and_assoc]
        simp
      exact ⟨.refl _ p, hq.of_none, .inl hkept⟩
    · intro q q' w hq hq' hget
      exact ⟨⟨hq.of_none, hq', .inr hget⟩, hq', hget⟩
  · rintro rfl
    exact ⟨.refl _ p, rfl⟩

include ht in
/-- The dividers of the two peripheral buses, one after the other. On the way
each of them is as before or as written. In the end the named ones are as
written. -/
theorem writeApbDividers_ensures (plan : BusPlan) (first second : ApbDivider) (p : Part) :
    Ensures (simulated t) patience
      (fun e => Confined .busDividers p e.before ∧ Confined .busDividers p e.after ∧
        (Cfgr.ppre1.get (e.after.peek .cfgr) = Cfgr.ppre1.get (p.peek .cfgr) ∨
          Cfgr.ppre1.get (e.after.peek .cfgr) = first.code) ∧
        (Cfgr.ppre2.get (e.after.peek .cfgr) = Cfgr.ppre2.get (p.peek .cfgr) ∨
          Cfgr.ppre2.get (e.after.peek .cfgr) = second.code))
      (do
        optionally (plan.named.names .pclk1) (Driver.writeField .cfgr Cfgr.ppre1 first.code)
        optionally (plan.named.names .pclk2) (Driver.writeField .cfgr Cfgr.ppre2 second.code)) p
      (fun _ q => Confined .busDividers p q ∧
        Cfgr.ppre1.get (q.peek .cfgr) =
          divided Cfgr.ppre1 (plan.named.names .pclk1) first.code p ∧
        Cfgr.ppre2.get (q.peek .cfgr) =
          divided Cfgr.ppre2 (plan.named.names .pclk2) second.code p) := by
  have h1 : (Footprint.only .cfgr Cfgr.ppre1.mask).Within .busDividers :=
    Footprint.only_within (by decide)
  have h2 : (Footprint.only .cfgr Cfgr.ppre2.mask).Within .busDividers :=
    Footprint.only_within (by decide)
  refine .bind ((writeDivider_ensures ht (f := Cfgr.ppre1) (first.code_fits .first) (by decide)
    _ p).weaken ?_) ?_
  · rintro e ⟨hb, ha, hdiv⟩
    exact ⟨hb.mono h1, ha.mono h1, hdiv, .inl (ha.get_cfgr (by decide))⟩
  rintro _ q ⟨hq, hq1⟩
  refine (writeDivider_ensures ht (f := Cfgr.ppre2) (second.code_fits .second) (by decide)
    _ q).mono ?_ ?_
  · rintro e ⟨hb, ha, hdiv⟩
    have hsame : Cfgr.ppre2.get (q.peek .cfgr) = Cfgr.ppre2.get (p.peek .cfgr) :=
      hq.get_cfgr (by decide)
    refine ⟨(hq.mono h1).trans (hb.mono h2), (hq.mono h1).trans (ha.mono h2), ?_, ?_⟩
    · rw [ha.get_cfgr (by decide), hq1, divided]
      split
      · exact .inr rfl
      · exact .inl rfl
    · rwa [← hsame]
  · rintro _ u ⟨hu, hu2⟩
    refine ⟨(hq.mono h1).trans (hu.mono h2), ?_, ?_⟩
    · rw [hu.get_cfgr (by decide), hq1]
    · rw [hu2, divided, divided, hq.get_cfgr (by decide)]

theorem busDividers_within : Footprint.busDividers.Within .dividers := by
  intro r
  cases r with
  | cfgr => decide
  | _ => exact BitVec.zero_and

theorem divideCore_eq (plan : BusPlan) :
    divideCore plan = (do
      optionally (plan.named.names .pclk1)
        (Driver.writeField .cfgr Cfgr.ppre1 ApbDivider.div16.code)
      optionally (plan.named.names .pclk2)
        (Driver.writeField .cfgr Cfgr.ppre2 ApbDivider.div16.code)
      optionally true (Driver.writeField .cfgr Cfgr.hpre plan.ahb.code)) := by
  simp only [optionally_bind]
  rfl

include ht in
/-- The core's divider is as planned, and the named peripheral buses run at
their slowest. -/
theorem divideCore_ensures (plan : BusPlan) (p : Part) :
    Ensures (simulated t) patience
      (fun e => Confined .dividers p e.before ∧ Confined .dividers p e.after)
      (divideCore plan) p
      (fun _ q => Confined .dividers p q ∧ Cfgr.hpre.get (q.peek .cfgr) = plan.ahb.code ∧
        Cfgr.ppre1.get (q.peek .cfgr) =
          divided Cfgr.ppre1 (plan.named.names .pclk1) ApbDivider.div16.code p ∧
        Cfgr.ppre2.get (q.peek .cfgr) =
          divided Cfgr.ppre2 (plan.named.names .pclk2) ApbDivider.div16.code p) := by
  have hcore : (Footprint.only .cfgr Cfgr.hpre.mask).Within .dividers :=
    Footprint.only_within (by decide)
  rw [divideCore_eq, ← bind_assoc]
  refine .bind ((writeApbDividers_ensures ht plan .div16 .div16 p).weaken
    fun e he => ⟨he.1.mono busDividers_within, he.2.1.mono busDividers_within⟩) ?_
  rintro _ q ⟨hq, hppre1, hppre2⟩
  have hpq : Confined .dividers p q := hq.mono busDividers_within
  refine (writeDivider_ensures ht plan.ahb.code_fits (by decide) true q).mono
    (fun e he => ⟨hpq.trans (he.1.mono hcore), hpq.trans (he.2.1.mono hcore)⟩) ?_
  rintro _ u ⟨hu, hhpre⟩
  refine ⟨hpq.trans (hu.mono hcore), hhpre, ?_, ?_⟩
  · rw [hu.get_cfgr (by decide), hppre1]
  · rw [hu.get_cfgr (by decide), hppre2]

theorem dividePeripheralBuses_eq (plan : BusPlan) :
    dividePeripheralBuses plan = (do
      optionally (plan.named.names .pclk1)
        (Driver.writeField .cfgr Cfgr.ppre1 plan.apb1.code)
      optionally (plan.named.names .pclk2)
        (Driver.writeField .cfgr Cfgr.ppre2 plan.apb2.code)) := by
  simp only [optionally_bind]
  rfl

include ht in
/-- On the way each of the two dividers is as before or as planned. In the end
the named ones are as planned. -/
theorem dividePeripheralBuses_ensures (plan : BusPlan) (p : Part) :
    Ensures (simulated t) patience
      (fun e => Confined .busDividers p e.before ∧ Confined .busDividers p e.after ∧
        (Cfgr.ppre1.get (e.after.peek .cfgr) = Cfgr.ppre1.get (p.peek .cfgr) ∨
          Cfgr.ppre1.get (e.after.peek .cfgr) = plan.apb1.code) ∧
        (Cfgr.ppre2.get (e.after.peek .cfgr) = Cfgr.ppre2.get (p.peek .cfgr) ∨
          Cfgr.ppre2.get (e.after.peek .cfgr) = plan.apb2.code))
      (dividePeripheralBuses plan) p
      (fun _ q => Confined .busDividers p q ∧
        Cfgr.ppre1.get (q.peek .cfgr) =
          divided Cfgr.ppre1 (plan.named.names .pclk1) plan.apb1.code p ∧
        Cfgr.ppre2.get (q.peek .cfgr) =
          divided Cfgr.ppre2 (plan.named.names .pclk2) plan.apb2.code p) := by
  rw [dividePeripheralBuses_eq]
  exact writeApbDividers_ensures ht plan plan.apb1 plan.apb2 p

/-! ## The switch -/

include ht in
/-- A source that has been written is selected, however the wait for it ends:
it is reached, or the time for that is up. -/
theorem selectSysclk_ensures (source : SysclkSource) (p : Part) :
    Ensures (simulated t) patience
      (fun e => Confined (.only .cfgr Cfgr.sw.mask) p e.before ∧
        Confined (.only .cfgr Cfgr.sw.mask) p e.after)
      (do
        Driver.writeField .cfgr Cfgr.sw source.code
        Setup.waitUntil .cfgr (fun cfgr => Cfgr.sws.get cfgr == source.code) .sysclkSwitch
          Budget.clockSwitch : Setup Unit).run p
      (fun result q => Confined (.only .cfgr Cfgr.sw.mask) p q ∧
        Cfgr.sw.get (q.peek .cfgr) = source.code ∧
        (result = .ok () ∧ q.Settled ∨ result = .error (.timeout .sysclkSwitch))) := by
  refine .setupBind (R := fun result u => result = .ok () ∧
    Confined (.only .cfgr Cfgr.sw.mask) p u ∧ Cfgr.sw.get (u.peek .cfgr) = source.code)
    ?_ ?_ (fun _ _ hu => by cases hu.1)
  · refine .lift (.writeFieldOpen ht Register.cfgr_open source.code_fits (by decide) ?_ ?_)
    · exact fun u hu => ⟨.refl _ p, hu.of_none⟩
    · exact fun u u' w hu hu' hget => ⟨⟨hu.of_none, hu'⟩, rfl, hu', hget⟩
  · rintro _ u ⟨-, hu⟩
    refine .waitUntil (I := fun v => Confined (.only .cfgr Cfgr.sw.mask) p v ∧
      Cfgr.sw.get (v.peek .cfgr) = source.code) hu ?_ ?_ ?_
    · intro v hv
      obtain ⟨hv, hcode⟩ := hv
      have htick := Confined.tick .none v .cfgr
      have hpv := hv.trans (htick.of_none)
      refine ⟨⟨hv, hpv⟩, hpv, ?_⟩
      exact Eq.trans (htick.get_cfgr (by decide)) hcode
    · intro v hv haccept
      obtain ⟨hv, hcode⟩ := hv
      have htick := Confined.tick .none v .cfgr
      have hreached : Cfgr.sws.get (v.peek .cfgr) = source.code := by
        simpa [simulated, Part.read] using haccept
      have hsettled : v.Settled := by
        rw [Part.Settled, hcode, hreached]
      refine ⟨hv.trans (htick.of_none), ?_, .inl ⟨rfl, htick.settled (by decide) hsettled⟩⟩
      exact Eq.trans (htick.get_cfgr (by decide)) hcode
    · exact fun v hv => ⟨hv.1, hv.2, .inr rfl⟩

include ht in
/-- A switch that succeeds has happened, and lasts. -/
theorem switchSysclk_ensures (source : SysclkSource) (p : Part) :
    Ensures (simulated t) patience
      (fun e => Confined (.only .cfgr Cfgr.sw.mask) p e.before ∧
        Confined (.only .cfgr Cfgr.sw.mask) p e.after)
      (switchSysclk source).run p
      (fun result q => Confined (.only .cfgr Cfgr.sw.mask) p q ∧
        (result = .ok () → Cfgr.sw.get (q.peek .cfgr) = source.code ∧ q.Settled)) := by
  unfold switchSysclk
  refine .setupBind (R := fun _ q => Confined .none p q) ?_ ?_ ?_
  · have htick := Confined.tick .none p .cr
    exact .lift (.read ⟨.refl _ p, htick.of_none⟩ htick)
  · intro cr q hq
    split
    · exact .throw ⟨hq.of_none, fun h => by cases h⟩
    · refine (selectSysclk_ensures ht source q).mono ?_ ?_
      · exact fun e he => ⟨hq.of_none.trans he.1, hq.of_none.trans he.2⟩
      · rintro result u ⟨hu, hcode, hend⟩
        refine ⟨hq.of_none.trans hu, fun hok => ⟨hcode, ?_⟩⟩
        rcases hend with ⟨-, hsettled⟩ | htimeout
        · exact hsettled
        · rw [htimeout] at hok
          cases hok
  · exact fun e q hq => ⟨hq.of_none, fun h => by cases h⟩

/-! ## All bus clocks -/

/-- What a plan's bus clocks come to: the named ones are as planned, the
others as they were. -/
structure BusesSet (plan : BusPlan) (p q : Part) : Prop where
  source : plan.named.names .sysclk = true →
    Cfgr.sw.get (q.peek .cfgr) = plan.sysclk.code ∧ q.Settled
  hpre : Cfgr.hpre.get (q.peek .cfgr) =
    divided Cfgr.hpre (plan.named.names .hclk) plan.ahb.code p
  ppre1 : Cfgr.ppre1.get (q.peek .cfgr) =
    divided Cfgr.ppre1 (plan.named.names .pclk1) plan.apb1.code p
  ppre2 : Cfgr.ppre2.get (q.peek .cfgr) =
    divided Cfgr.ppre2 (plan.named.names .pclk2) plan.apb2.code p
  waitStates : q.waitStates = plan.waitStates

theorem configureBusClocks_eq (plan : BusPlan) :
    configureBusClocks plan = (do
      raiseWaitStates plan.waitStates
      optionally (plan.named.names .hclk) (liftM (divideCore plan) : Setup Unit)
      optionally (plan.named.names .sysclk) (switchSysclk plan.sysclk)
      lowerWaitStates plan.waitStates
      liftM (dividePeripheralBuses plan) : Setup Unit) := by
  simp only [optionally_bind]
  rfl

/-- The steps before the switch. -/
def prepareSwitch (plan : BusPlan) : Setup Unit := do
  raiseWaitStates plan.waitStates
  optionally (plan.named.names .hclk) (liftM (divideCore plan) : Setup Unit)

/-- The steps after it. -/
def finishSwitch (plan : BusPlan) : Setup Unit := do
  lowerWaitStates plan.waitStates
  liftM (dividePeripheralBuses plan)

theorem configureBusClocks_eq_prepare (plan : BusPlan) :
    configureBusClocks plan = prepareSwitch plan >>= fun _ =>
      optionally (plan.named.names .sysclk) (switchSysclk plan.sysclk) >>= fun _ =>
        finishSwitch plan := by
  rw [configureBusClocks_eq, prepareSwitch, bind_assoc]
  rfl

/-- The core's divider after its step: as planned if it is named. Peripheral
buses that are not named are not slowed down. -/
structure CoreDivided (plan : BusPlan) (p q : Part) : Prop where
  hpre : Cfgr.hpre.get (q.peek .cfgr) =
    divided Cfgr.hpre (plan.named.names .hclk) plan.ahb.code p
  ppre1 : plan.named.names .pclk1 = false →
    Cfgr.ppre1.get (q.peek .cfgr) = Cfgr.ppre1.get (p.peek .cfgr)
  ppre2 : plan.named.names .pclk2 = false →
    Cfgr.ppre2.get (q.peek .cfgr) = Cfgr.ppre2.get (p.peek .cfgr)

/-- An optional divider that is written twice holds what was written last. -/
theorem divided_congr {f : Field} {named : Bool} {code : Word} {p q : Part}
    (h : named = false → f.get (q.peek .cfgr) = f.get (p.peek .cfgr)) :
    divided f named code q = divided f named code p := by
  cases named with
  | true => rfl
  | false => exact h rfl

theorem CoreDivided.of_raised {plan : BusPlan} {p q u : Part} (h : CoreDivided plan q u)
    (hq : Confined .waitStates p q) : CoreDivided plan p u where
  hpre := h.hpre.trans (divided_congr fun _ => hq.get_cfgr (by decide))
  ppre1 hoff := (h.ppre1 hoff).trans (hq.get_cfgr (by decide))
  ppre2 hoff := (h.ppre2 hoff).trans (hq.get_cfgr (by decide))

theorem CoreDivided.of_switched {plan : BusPlan} {p q u : Part} (h : CoreDivided plan p q)
    (hu : Confined (.only .cfgr Cfgr.sw.mask) q u) : CoreDivided plan p u where
  hpre := (hu.get_cfgr (by decide)).trans h.hpre
  ppre1 hoff := (hu.get_cfgr (by decide)).trans (h.ppre1 hoff)
  ppre2 hoff := (hu.get_cfgr (by decide)).trans (h.ppre2 hoff)

include ht in
theorem optionalCore_ensures (plan : BusPlan) (p : Part) :
    Ensures (simulated t) patience
      (fun e => Confined .dividers p e.before ∧ Confined .dividers p e.after)
      (optionally (plan.named.names .hclk) (liftM (divideCore plan) : Setup Unit)).run p
      (fun _ q => Confined .dividers p q ∧ CoreDivided plan p q) := by
  refine .optionally (fun hnamed => ?_) (fun hskip => ?_)
  · refine .lift ((divideCore_ensures ht plan p).imp ?_)
    intro _ q hq
    obtain ⟨hq, hhpre, hppre1, hppre2⟩ := hq
    refine ⟨hq, ?_, ?_, ?_⟩
    · rw [hhpre, divided, hnamed]
      rfl
    · intro hoff
      rw [hppre1, divided, hoff]
      rfl
    · intro hoff
      rw [hppre2, divided, hoff]
      rfl
  · refine ⟨.refl _ p, ?_, fun _ => rfl, fun _ => rfl⟩
    rw [divided, hskip]
    rfl

include ht in
theorem optionalSwitch_ensures (plan : BusPlan) (p : Part) :
    Ensures (simulated t) patience
      (fun e => Confined (.buses plan.named) p e.before ∧
        Confined (.only .cfgr Cfgr.sw.mask) p e.after)
      (optionally (plan.named.names .sysclk) (switchSysclk plan.sysclk)).run p
      (fun result q => Confined (.buses plan.named) p q ∧
        Confined (.only .cfgr Cfgr.sw.mask) p q ∧
        (result = .ok () → plan.named.names .sysclk = true →
          Cfgr.sw.get (q.peek .cfgr) = plan.sysclk.code ∧ q.Settled)) := by
  refine .optionally (fun hnamed => ?_) (fun hskip => ?_)
  · have hsw : (Footprint.only .cfgr Cfgr.sw.mask).Within (.buses plan.named) := by
      refine Footprint.only_within ?_
      simp only [Footprint.buses, hnamed]
      decide
    refine (switchSysclk_ensures ht plan.sysclk p).mono (fun e he => ⟨he.1.mono hsw, he.2⟩) ?_
    exact fun result q hq => ⟨hq.1.mono hsw, hq.1, fun hok _ => hq.2 hok⟩
  · refine ⟨.refl _ p, .refl _ p, fun _ hnamed => ?_⟩
    rw [hskip] at hnamed
    cases hnamed

theorem waitStates_within (named : FlagSet BusClock) :
    Footprint.waitStates.Within (.buses named) := by
  intro r
  cases r with
  | acr => exact BitVec.and_self
  | _ => exact BitVec.zero_and

theorem dividers_within (named : FlagSet BusClock) :
    Footprint.dividers.Within (.buses named) := by
  intro r
  cases r with
  | cfgr =>
      simp only [Footprint.dividers, Footprint.buses]
      split <;> decide
  | _ => exact BitVec.zero_and

include ht in
/-- Before the switch the core is divided, and there are enough wait states. -/
theorem prepareSwitch_ensures (plan : BusPlan) (p : Part) :
    Ensures (simulated t) patience (fun _ => True) (prepareSwitch plan).run p
      (fun _ q => Confined (.buses plan.named) p q ∧ CoreDivided plan p q ∧
        plan.waitStates.count ≤ q.waitStates.count) := by
  unfold prepareSwitch
  refine .setupBind (raiseWaitStates_ensures ht plan.waitStates p).unguarded ?_
    (fun _ _ hq => by cases hq.1)
  rintro _ q ⟨-, hq, hraised⟩
  refine (optionalCore_ensures ht plan q).unguarded.imp ?_
  rintro _ u ⟨hu, hcore⟩
  refine ⟨(hq.mono (waitStates_within _)).trans (hu.mono (dividers_within _)),
    hcore.of_raised hq, ?_⟩
  rw [hu.waitStates_eq (by decide), hraised]
  exact Nat.le_max_right _ _

include ht in
/-- After the switch the rest is brought to where the plan wants it. -/
theorem finishSwitch_ensures {plan : BusPlan} {p q : Part} (hcore : CoreDivided plan p q)
    (hsource : plan.named.names .sysclk = true →
      Cfgr.sw.get (q.peek .cfgr) = plan.sysclk.code ∧ q.Settled)
    (henough : plan.waitStates.count ≤ q.waitStates.count) :
    Ensures (simulated t) patience (fun _ => True) (finishSwitch plan).run q
      (fun _ u => Confined (.buses plan.named) q u ∧ BusesSet plan p u) := by
  unfold finishSwitch
  refine .setupBind (lowerWaitStates_ensures ht henough).unguarded ?_ (fun _ _ hu => by cases hu.1)
  rintro _ u ⟨-, hu, hws⟩
  refine .lift ((dividePeripheralBuses_ensures ht plan u).unguarded.imp ?_)
  rintro _ v ⟨hv, hppre1, hppre2⟩
  have hdividers : Confined .dividers u v := hv.mono busDividers_within
  refine ⟨(hu.mono (waitStates_within _)).trans (hdividers.mono (dividers_within _)),
    fun hnamed => ⟨?_, ?_⟩, ?_, ?_, ?_, ?_⟩
  · rw [hv.get_cfgr (by decide), hu.get_cfgr (by decide)]
    exact (hsource hnamed).1
  · exact hv.settled (by decide) (hu.settled (by decide) (hsource hnamed).2)
  · rw [hv.get_cfgr (by decide), hu.get_cfgr (by decide), hcore.hpre]
  · rw [hppre1]
    exact divided_congr fun hoff => (hu.get_cfgr (by decide)).trans (hcore.ppre1 hoff)
  · rw [hppre2]
    exact divided_congr fun hoff => (hu.get_cfgr (by decide)).trans (hcore.ppre2 hoff)
  · exact (hv.waitStates_eq (by decide)).trans hws

include ht in
/-- After a success the bus clocks are as planned. -/
theorem configureBusClocks_ensures (plan : BusPlan) (p : Part) :
    Ensures (simulated t) patience (fun _ => True) (configureBusClocks plan).run p
      (fun result q => Confined (.buses plan.named) p q ∧
        (result = .ok () → BusesSet plan p q)) := by
  rw [configureBusClocks_eq_prepare]
  refine .setupBind (prepareSwitch_ensures ht plan p) ?_ (fun _ _ hq => ⟨hq.1, nofun⟩)
  rintro _ q ⟨hq, hcore, henough⟩
  refine .setupBind (optionalSwitch_ensures ht plan q).unguarded ?_
    (fun _ _ hu => ⟨hq.trans hu.1, nofun⟩)
  rintro _ u ⟨hu, hsw, hswitched⟩
  -- the switch touched neither the dividers nor the wait states
  have henough' : plan.waitStates.count ≤ u.waitStates.count := by
    rwa [hsw.waitStates_eq (by decide)]
  refine (finishSwitch_ensures ht (hcore.of_switched hsw) (hswitched rfl) henough').imp ?_
  exact fun _ v hv => ⟨(hq.trans hu).trans hv.1, fun _ => hv.2⟩

end Hardware

end BringUp
