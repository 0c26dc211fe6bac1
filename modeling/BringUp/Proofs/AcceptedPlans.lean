import BringUp.Proofs.BusClocks
import BringUp.Proofs.OscillatorSuccess
import BringUp.Proofs.Sequences

/-!
Accepted plans on a cooperative part.

The check of a plan asks whether the clocks that it uses run under it. The
drivers apply it step by step, while the system clock still runs from the
internal oscillator.

* `resetPart_fresh`: the reset of a part at power-on leaves it fresh.
* `configureBusClocks_succeeds`, `configurePeripheralClocks_succeeds`: the
  clock steps after the oscillators.

Main statement: from power-on, on a part whose flags follow in time, all clock
steps of an accepted plan succeed, unless the plan stops the internal
oscillator; then its driver refuses (`bringUp_applies_accepted`). A plan that
does so is accepted all the same (`accepted_plan_refused`).
-/

namespace BringUp

open Board Clock Hardware

namespace Hardware

variable {t : Temper} (ht : t.Cooperative) {patience : Nat} {p : Part}

/-! ## The reset -/

/-- The steps of the reset after the internal oscillator has been switched on
leave it on. -/
def afterHsi : Footprint
  | .cr => ~~~(keepBesideOscillators &&& keepBesideBypass)
  | r => Footprint.reset r

/-- The reset switches the internal oscillator on. -/
theorem resetPart_hsiOn {t : Temper} (ht : t.Unlatched) (patience : Nat) (p : Part) :
    Ensures (simulated t) patience (fun _ => True) resetPart p
      (fun _ q => q.peek .cr &&& Cr.hsiOn = Cr.hsiOn) := by
  unfold resetPart resetClocks
  simp only [bind_assoc]
  refine .bind (R := fun _ q => q.peek .cr &&& Cr.hsiOn = Cr.hsiOn) ?_ fun _ q hq => ?_
  · refine .modify trivial trivial ?_
    have hsteady := Part.steady_write ht Register.cr_open
      (p.peek .cr ||| Cr.hsiOn) (p.tick .cr)
    exact (hsteady.and_eq (by decide)).trans (Word.or_and_of_subset _ rfl)
  have hrest : Confines t patience afterHsi (do
      Driver.modify .cfgr (· &&& keepBesideBusClocks)
      Driver.modify .cr (· &&& keepBesideOscillators)
      Driver.modify .cr (· &&& keepBesideBypass)
      Driver.modify .cfgr (· &&& keepBesidePll)
      Driver.write .cir clearClockInterrupts
      SystemControl.setVectorTable SystemControl.flashTable) := by
    refine .bind (.modify ht fun w => Word.agreeOn_and w (by decide)) fun _ => ?_
    refine .bind (.modify ht fun w => Word.agreeOn_and w (by decide)) fun _ => ?_
    refine .bind (.modify ht fun w => Word.agreeOn_and w (by decide)) fun _ => ?_
    refine .bind (.modify ht fun w => Word.agreeOn_and w (by decide)) fun _ => ?_
    exact .bind (.write ht _ (by decide)) fun _ => .write ht _ (by decide)
  refine (hrest q).unguarded.imp fun _ u hu => ?_
  exact Eq.trans (hu.agreeOn_open Register.cr_open (by decide)) hq

include ht in
/-- From power-on, the reset leaves a fresh part. -/
theorem resetPart_fresh (flash : Nat → Word) :
    Ensures (simulated t) patience (fun _ => True) resetPart (.powerOn flash)
      (fun _ q => q.Tracking ∧ Fresh q) := by
  have hzero : ∀ f : StatusFlag, (Part.powerOn flash).peek f.register = 0 :=
    fun f => Part.peek_powerOn flash f.register_notUsart
  have hbdcr : (Part.powerOn flash).peek .bdcr = 0 := hzero .lse
  have hcfgr : (Part.powerOn flash).peek .cfgr = 0 := hzero .sysclk
  have hbackup : (Part.powerOn flash).NoDomainReset := by
    rw [Part.NoDomainReset, hbdcr]
    rfl
  have hrunning : Cfgr.running ((Part.powerOn flash).peek .cfgr) = .hsi := by
    rw [hcfgr]
    rfl
  have hboth := (resetPart_hsiOn ht.unlatched patience (.powerOn flash)).and
    (resetPart_ensures ht.unlatched (.powerOn flash))
  refine (hboth.keeping (Part.tracking_keeps ht) (Part.tracking_powerOn flash)).unguarded.imp ?_
  rintro _ q ⟨htracking, hon, hframe, -, hsource⟩
  refine ⟨htracking, hsource hrunning rfl, hon, hframe.noDomainReset (by decide) hbackup, ?_⟩
  rw [hframe.get_rtcSource rfl hbackup, hbdcr]
  rfl

/-! ## The bus clocks -/

include ht in
/-- Wait states read back. -/
theorem setWaitStates_succeeds (wanted : WaitStates) :
    Succeeds t patience (Flash.setWaitStates wanted) p (fun _ _ => True) :=
  .of_ensures ht ((setWaitStates_ensures ht.unlatched wanted p).imp
    fun _ _ hq => ⟨(), hq.1, trivial⟩)

include ht in
/-- Whether or not the wait states in force call for other ones. -/
theorem adjustWaitStates_succeeds (due : WaitStates → Prop) [DecidablePred due]
    (wanted : WaitStates) :
    Succeeds t patience (adjustWaitStates due wanted) p (fun _ _ => True) := by
  unfold adjustWaitStates
  refine .bind (R := fun _ _ => True) (.lift ht (waitStates_ensures (fun _ _ => trivial)
    (fun _ _ => trivial))) fun current _ _ => ?_
  split
  · exact setWaitStates_succeeds ht wanted
  · exact .pure trivial

include ht in
theorem raiseWaitStates_succeeds (wanted : WaitStates) :
    Succeeds t patience (raiseWaitStates wanted) p (fun _ _ => True) :=
  adjustWaitStates_succeeds ht (wanted.count > ·.count) wanted

include ht in
theorem lowerWaitStates_succeeds (wanted : WaitStates) :
    Succeeds t patience (lowerWaitStates wanted) p (fun _ _ => True) :=
  adjustWaitStates_succeeds ht (wanted.count < ·.count) wanted

include ht in
/-- A switch to a source that is ready succeeds. -/
theorem switchSysclk_succeeds {watched : StatusFlag → Bool}
    (hwatched : StatusFlag.sysclk.budgetIn watched = some Budget.clockSwitch)
    {source : SysclkSource} (hready : (p.peek .cr).has (readyBit source).1 = true) :
    Succeeds t patience (switchSysclk source) p (fun _ _ => True) watched := by
  unfold switchSysclk
  refine .bind (R := fun cr _ => cr = p.peek .cr) (.lift ht (.read trivial rfl)) ?_
  rintro _ q rfl
  rw [hready, if_neg (by decide)]
  refine .bind (.modify ht Register.cfgr_open _) fun _ u hu => ?_
  have hcode : Cfgr.sw.get (u.peek .cfgr) = source.code := hu.get_put (by decide) source.code_fits
  refine (Succeeds.waitUntil ht hwatched fun w hw hsettled => ?_).imp
    fun _ _ _ => trivial
  have hsws : Cfgr.sws.get w = source.code := by
    rw [StatusFlag.sws_get, hsettled, ← StatusFlag.sw_get, ← hcode]
    exact hw.get (by decide)
  rw [hsws]
  exact beq_self_eq_true _

include ht in
/-- With a running PLL to switch to, the bus clocks are configured. -/
theorem configureBusClocks_succeeds {plan : BusPlan} (hsource : plan.sysclk = .pll)
    (hp : PllRunning p) :
    Succeeds t patience (configureBusClocks plan) p (fun _ _ => True) := by
  have hws : Ensures (simulated t) patience _ (raiseWaitStates plan.waitStates).run p _ :=
    raiseWaitStates_ensures ht.unlatched plan.waitStates p
  rw [configureBusClocks_eq]
  refine .bind ((raiseWaitStates_succeeds ht _).and hws) ?_
  rintro _ q1 ⟨-, -, h1, -⟩
  have hq1 : PllRunning q1 := hp.of_confined h1 rfl
  refine .bind (R := fun _ q => PllRunning q) (.optionally (fun _ => ?_) (fun _ => hq1))
    fun _ q2 hq2 => ?_
  · refine .lift ht ((divideCore_ensures ht.unlatched plan q1).unguarded.imp ?_)
    exact fun _ q hq => hq1.of_confined hq.1 rfl
  refine .bind (R := fun _ _ => True) (.optionally (fun _ => ?_) (fun _ => trivial))
    fun _ q3 _ => ?_
  · rw [hsource]
    exact switchSysclk_succeeds ht rfl hq2.ready
  refine .bind (lowerWaitStates_succeeds ht _) fun _ q4 _ => ?_
  exact .lift ht ((dividePeripheralBuses_ensures ht.unlatched plan q4).unguarded.imp
    fun _ _ _ => trivial)

/-! ## The peripheral clocks -/

include ht in
/-- As long as no source is selected, selecting one succeeds without a reset of
the backup domain. -/
theorem selectRtcSource_succeeds (hp : p.NoDomainReset)
    (hrtc : Bdcr.rtcSource.get (p.peek .bdcr) = 0) (source : RtcSource) :
    Succeeds t patience (selectRtcSource source) p (fun _ _ => True) := by
  unfold selectRtcSource
  refine .bind ((access_succeeds ht hp).and (access_confines ht.unlatched patience p)) ?_
  rintro _ q ⟨-, hq⟩
  have hnone : Bdcr.rtcSource.get (q.peek .bdcr) = 0 := (hq.get_rtcSource rfl hp).trans hrtc
  refine .bind (R := fun current _ => current = 0) (.lift ht (.readField trivial hnone)) ?_
  rintro _ u rfl
  dsimp only
  rw [if_neg (fun h => h.1 rfl)]
  exact .lift ht (.modify trivial trivial trivial)

include ht in
theorem configurePeripheralClocks_succeeds (hp : p.NoDomainReset)
    (hrtc : Bdcr.rtcSource.get (p.peek .bdcr) = 0) (plan : PeripheralPlan) :
    Succeeds t patience (configurePeripheralClocks plan) p (fun _ _ => True) := by
  rw [configurePeripheralClocks_eq]
  refine .bind (R := fun _ _ => True) (.optionally (fun _ => selectRtcSource_succeeds ht hp hrtc _)
    (fun _ => trivial)) fun _ q _ => ?_
  exact .optionally (fun _ => .lift ht (.modify trivial trivial trivial)) (fun _ => trivial)

/-! ## The steps after the reset -/

/-- A driver that keeps to a footprint without the clocks leaves a fresh part
fresh. -/
theorem fresh_keeps (ht : t.Cooperative) {α : Type} {m : Footprint} {x : Driver α}
    (hx : Confines t patience m x) (hm : m.SparesFresh) (hp : p.Tracking ∧ Fresh p) :
    Ensures (simulated t) patience (fun _ => True) x p (fun _ q => q.Tracking ∧ Fresh q) :=
  ((hx p).unguarded.keeping (Part.tracking_keeps ht) hp.1).imp
    fun _ _ hq => ⟨hq.1, hp.2.of_confined hq.2 hm⟩

end Hardware

section Steps

variable {t : Temper} (ht : t.Cooperative) {patience : Nat} {plan : Plan} {p : Part}

include ht in
/-- The steps before the clocks leave a fresh part fresh. -/
theorem initialise_fresh (ceiling : Log.Ceiling) (hp : p.Tracking ∧ Fresh p) :
    Ensures (simulated t) patience (fun _ => True) (initialise ceiling) p
      (fun _ q => q.Tracking ∧ Fresh q) :=
  fresh_keeps ht (initialise_confines ht.unlatched patience ceiling)
    (by constructor <;> decide) hp

include ht in
theorem installStubs_fresh (hp : p.Tracking ∧ Fresh p) :
    Ensures (simulated t) patience (fun _ => True) SystemControl.installStubs p
      (fun _ q => q.Tracking ∧ Fresh q) :=
  fresh_keeps ht (installStubs_confines ht.unlatched patience) (by constructor <;> decide) hp

include ht in
/-- A plan that leaves the internal oscillator on is applied step by step. -/
theorem afterReset_applies {ceiling : Log.Ceiling} (hsource : plan.buses.sysclk = .pll)
    (hpll : plan.oscillators.pll.isSome = true)
    (hrange : ∀ s, plan.oscillators.pll = some s → s.inRange = true)
    (hruns : plan.oscillators.runs .hsi = true) (hp : p.Tracking ∧ Fresh p) :
    Ensures (simulated t) patience (fun _ => True) (onRegisters ceiling (afterReset plan)) p
      (fun platform _ => platform.report.oscillators = .ok () ∧
        platform.report.busClocks = .ok () ∧ platform.report.peripheralClocks = .ok ()) := by
  refine .afterReset (A := fun q => q.Tracking ∧ Fresh q) (B := fun q => q.Tracking ∧ Fresh q)
    (C := fun r q => r = .ok () ∧ q.Tracking ∧ Fresh q ∧ PllRunning q)
    (D := fun r r' q => (r = .ok () ∧ r' = .ok ()) ∧ q.Tracking ∧ q.NoDomainReset ∧
      Bdcr.rtcSource.get (q.peek .bdcr) = 0)
    (initialise_fresh ht ceiling hp) (fun q hq => installStubs_fresh ht hq) ?_ ?_ ?_
  · intro q hq
    refine (configureOscillators_succeeds ht hq.2 hruns hrange hq.1).imp ?_
    rintro _ u ⟨hu, _, rfl, hfresh, hrunning⟩
    exact ⟨rfl, hu, hfresh, hrunning hpll⟩
  · rintro _ q ⟨rfl, hq, hfresh, hrunning⟩
    have hbuses : Succeeds t patience (configureBusClocks plan.buses) q _ :=
      (configureBusClocks_succeeds ht hsource hrunning).and
        (configureBusClocks_ensures ht.unlatched plan.buses q)
    refine (hbuses hq).imp ?_
    rintro _ u ⟨hu, _, rfl, -, hframe, -⟩
    refine ⟨⟨rfl, rfl⟩, hu, hframe.noDomainReset (by simp [Footprint.buses]) hfresh.backup, ?_⟩
    exact (hframe.get_rtcSource rfl hfresh.backup).trans hfresh.rtc
  · rintro _ _ q ⟨⟨rfl, rfl⟩, hq, hbackup, hrtc⟩
    refine (configurePeripheralClocks_succeeds ht hbackup hrtc plan.peripherals hq).imp ?_
    rintro _ u ⟨-, _, rfl, -⟩ platform - hosc hbus hper
    exact ⟨hosc, hbus, hper⟩

include ht in
/-- A plan that stops the internal oscillator is refused, and the remaining
steps still run. -/
theorem afterReset_refuses {ceiling : Log.Ceiling} (hstops : plan.oscillators.runs .hsi = false)
    (hp : p.Tracking ∧ Fresh p) :
    Ensures (simulated t) patience (fun _ => True) (onRegisters ceiling (afterReset plan)) p
      (fun platform _ => platform.report.oscillators = .error (.oscillatorInUse .hsi)) := by
  refine .afterReset (A := fun q => q.Tracking ∧ Fresh q) (B := fun q => q.Tracking ∧ Fresh q)
    (C := fun r _ => r = .error (.oscillatorInUse .hsi))
    (D := fun r _ _ => r = .error (.oscillatorInUse .hsi))
    (initialise_fresh ht ceiling hp) (fun q hq => installStubs_fresh ht hq) ?_ ?_ ?_
  · exact fun q hq => configureOscillators_refuses ht hq.2 hq.1 hstops
  · rintro _ q rfl
    exact (configureBusClocks_ensures ht.unlatched plan.buses q).imp fun _ _ _ => rfl
  · rintro _ _ q rfl
    refine (configurePeripheralClocks_ensures ht.unlatched plan.peripherals q).imp ?_
    exact fun _ _ _ _ _ hosc _ _ => hosc

end Steps

/-- Which accepted plans can be applied. Take a part at power-on whose flags
follow within the budgets of the waits, and a plan that the check accepts and
that runs the core at the board's frequency. The bring-up comes to its end. If
the plan leaves the internal oscillator running, then all clock steps succeed;
if it stops it, then the oscillators report that it is in use. -/
theorem bringUp_applies_accepted {t : Temper} (ht : t.Cooperative) (patience : Nat)
    (ceiling : Log.Ceiling) (flash : Nat → Word) {plan : Plan} {rates : Rates}
    (hcheck : plan.check = .ok rates) (hcore : plan.rates.sysclk = coreHz) :
    ∃ platform q log,
      (onRegisters ceiling (bringUp plan)).run ((simulated t).handler patience)
        (.powerOn flash) = ⟨.ok platform, q, log⟩ ∧
      (plan.oscillators.runs .hsi = true → platform.report.oscillators = .ok () ∧
        platform.report.busClocks = .ok () ∧ platform.report.peripheralClocks = .ok ()) ∧
      (plan.oscillators.runs .hsi = false →
        platform.report.oscillators = .error (.oscillatorInUse .hsi)) := by
  obtain ⟨hsource, s, hs, -⟩ := Plan.pll_of_coreHz hcore
  have hpll : plan.oscillators.pll.isSome = true := by
    rw [hs]
    rfl
  have hrange : ∀ s, plan.oscillators.pll = some s → s.inRange = true :=
    fun _ hs => (Plan.pll_of_check hcheck hs).1
  have hreset : Ensures (simulated t) patience (fun _ => True) resetPart (.powerOn flash)
      (fun _ q => q.Tracking ∧ Fresh q) := resetPart_fresh ht flash
  cases hhsi : plan.oscillators.runs .hsi with
  | true =>
      have happlies : Ensures (simulated t) patience (fun _ => True)
          (onRegisters ceiling (bringUp plan)) (.powerOn flash) _ :=
        .bringUp hcore hreset fun u hu => afterReset_applies ht hsource hpll hrange hhsi hu
      obtain ⟨-, platform, q, log, hrun, hok⟩ := happlies
      exact ⟨platform, q, log, hrun, fun _ => hok, fun h => by cases h⟩
  | false =>
      have hrefuses : Ensures (simulated t) patience (fun _ => True)
          (onRegisters ceiling (bringUp plan)) (.powerOn flash) _ :=
        .bringUp hcore hreset fun u hu => afterReset_refuses ht hhsi hu
      obtain ⟨-, platform, q, log, hrun, herror⟩ := hrefuses
      exact ⟨platform, q, log, hrun, fun h => (by cases h), fun _ => herror⟩

/-- The board's plan at power-on. -/
theorem bringUp_applies_board :
    Temper.prompt.Cooperative ∧ Plan.board.check = .ok Plan.board.rates ∧
    Plan.board.rates.sysclk = coreHz ∧
    ∃ platform q log,
      (onRegisters .all (bringUp .board)).run ((simulated .prompt).handler 0)
        (.powerOn Part.bootVector) = ⟨.ok platform, q, log⟩ ∧
      platform.report.oscillators = .ok () ∧ platform.report.busClocks = .ok () ∧
      platform.report.peripheralClocks = .ok () := by
  have hcheck : Plan.board.check = .ok Plan.board.rates := rfl
  have hcore : Plan.board.rates.sysclk = coreHz := rfl
  obtain ⟨platform, q, log, hrun, happlied, -⟩ := bringUp_applies_accepted
    Temper.prompt_cooperative 0 .all Part.bootVector hcheck hcore
  exact ⟨Temper.prompt_cooperative, hcheck, hcore, platform, q, log, hrun, happlied rfl⟩

/-- The board's plan with the internal oscillator stopped. -/
def Clock.Plan.boardWithoutHsi : Plan :=
  { Plan.board with oscillators := { Plan.board.oscillators with hsi := .off } }

/-- A plan that stops the internal oscillator is accepted by the check and
cannot be applied: at power-on, on a part whose flags all follow in time, its
oscillators are not configured, and there is no PLL to switch to. -/
theorem accepted_plan_refused :
    ∃ platform q log, Temper.prompt.Cooperative ∧
      Plan.boardWithoutHsi.check = .ok Plan.boardWithoutHsi.rates ∧
      Plan.boardWithoutHsi.rates.sysclk = coreHz ∧
      (onRegisters .all (bringUp .boardWithoutHsi)).run ((simulated .prompt).handler 0)
        (.powerOn Part.bootVector) = ⟨.ok platform, q, log⟩ ∧
      platform.report.oscillators = .error (.oscillatorInUse .hsi) ∧
      platform.report.busClocks = .error (.notReady .pll) := by
  have htest : ((onRegisters .all (bringUp .boardWithoutHsi)).run
      ((simulated .prompt).handler 0) (.powerOn Part.bootVector)).outcome.toOption.any
        (fun platform => (platform.report.oscillators, platform.report.busClocks) matches
          (.error (.oscillatorInUse .hsi), .error (.notReady .pll))) = true := by
    decide +kernel
  obtain ⟨platform, hrun, hfailed⟩ := Run.result_of_any htest
  split at hfailed
  · next hresults =>
    exact ⟨platform, _, _, Temper.prompt_cooperative, rfl, rfl, hrun, Prod.mk.inj hresults⟩
  · cases hfailed

end BringUp
