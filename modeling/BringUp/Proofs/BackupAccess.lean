import BringUp.Proofs.DriverRegisters

/-!
Writes to the backup domain.

* `configureOscillators_gated`, `configurePeripheralClocks_gated`: the two
  drivers that write to the domain come to it through its lock.
* `enableClock_aside`, `configurePin_aside`, …: all others keep aside.

Main statement: whatever services are asked for, in any order and from any
state of the part, the backup domain is only written while it is open; and a
service that finds it locked to the end writes nothing there and reports the
timeout (`backup_writes_open`).

No service can be trusted to leave the domain open for the next one, and none
has to: each of the two drivers that write to it opens it first.
-/

namespace BringUp

open Board Clock Hardware

namespace Access

variable {rs : List Register}

/-- What accesses neither the domain nor its lock keeps aside. -/
theorem aside_of_among (h : .bdcr ∉ rs ∧ .pwr ∉ rs) (c : Access) (hc : c.among rs = true) :
    c.aside = true := by
  rw [aside, writes_of_among h.1 hc, reads_of_among h.2 hc]
  rfl

theorem elsewhere_of_among (h : .bdcr ∉ rs ∧ .pwr ∉ rs ∧ .apb1enr ∉ rs) (c : Access)
    (hc : c.among rs = true) : c.elsewhere = true := by
  obtain ⟨hdomain, hlock, hclock⟩ := h
  rw [elsewhere, aside_of_among ⟨hdomain, hlock⟩ c hc, behindLock, writes_of_among hclock hc,
    writes_of_among hlock hc, reads_of_among hlock hc]
  rfl

end Access

/-! ## The two drivers that write to the domain -/

namespace Hardware

theorem configureHse_elsewhere (mode : OscillatorMode) :
    (configureHse mode).run.CallsOnly Access.elsewhere :=
  (configureHse_among mode).mono (Access.elsewhere_of_among (by decide))

theorem configureHsi_elsewhere (mode : OscillatorMode) :
    (configureHsi mode).run.CallsOnly Access.elsewhere :=
  (configureHsi_among mode).mono (Access.elsewhere_of_among (by decide))

theorem configureLsi_elsewhere (mode : OscillatorMode) :
    (configureLsi mode).run.CallsOnly Access.elsewhere :=
  (configureLsi_among mode).mono (Access.elsewhere_of_among (by decide))

theorem configurePll_elsewhere (wanted : Option PllSetting) (divider : HseDivider) :
    (configurePll wanted divider).run.CallsOnly Access.elsewhere :=
  (configurePll_among wanted divider).mono (Access.elsewhere_of_among (by decide))

/-- The crystal is operated behind the lock. -/
theorem configureLse_gated (mode : OscillatorMode) : Gated (configureLse mode) := by
  refine .gate (pure ()) _ rfl trivial ?_
  refine .setupBind (.lift (.read rfl)) fun bdcr => ?_
  split
  · unfold awaitLse
    split <;> exact .waitUntil _ _ _ rfl
  · refine .setupBind (.lift (.modify rfl fun _ => rfl)) fun _ => ?_
    refine .setupBind (.waitUntil _ _ _ rfl) fun _ => ?_
    split
    · exact .modifyThenWait _ _ _ rfl fun _ => rfl
    · trivial

theorem configureOscillators_gated (plan : OscillatorPlan) : Gated (configureOscillators plan) := by
  rw [configureOscillators_eq]
  refine .before ?_ (configurePll_elsewhere _ _)
  refine .after (.optionally (configureHse_elsewhere _)) ?_
  refine .after (.optionally (configureHsi_elsewhere _)) ?_
  exact .after (.optionally (configureLsi_elsewhere _)) (.optionally (configureLse_gated _))

theorem replaceRtcSource_behindLock (source : RtcSource) :
    (replaceRtcSource source).run.CallsOnly Access.behindLock := by
  refine .setupBind (.lift (.readField _ rfl)) fun current => ?_
  have hwrite : (liftM (Driver.writeField .bdcr Bdcr.rtcSource source.code) :
      Setup Unit).run.CallsOnly Access.behindLock := .lift (.modify rfl fun _ => rfl)
  dsimp only
  split
  · refine .setupBind ?_ fun _ => hwrite
    refine .setupBind (.lift (.log _ _ _)) fun _ => .setupBind (.lift (.read rfl)) fun _ => ?_
    refine .setupBind (.lift (.modify rfl fun _ => rfl)) fun _ => ?_
    refine .setupBind (.lift (.modify rfl fun _ => rfl)) fun _ => ?_
    refine .setupBind (.lift (.write _ rfl)) fun _ => ?_
    split
    · exact .waitUntil _ _ _ rfl
    · trivial
  · exact hwrite

/-- The source of the real-time clock is selected behind the lock. -/
theorem selectRtcSource_gated (source : RtcSource) : Gated (selectRtcSource source) :=
  .gate (pure ()) _ rfl trivial (replaceRtcSource_behindLock source)

theorem configurePeripheralClocks_gated (plan : PeripheralPlan) :
    Gated (configurePeripheralClocks plan) := by
  rw [configurePeripheralClocks_eq]
  exact .before (.optionally (selectRtcSource_gated _))
    (.optionally (.lift (.modify rfl fun _ => rfl)))

/-! ## The other services -/

theorem enableClock_aside (gate : Gate) : (enableClock gate).CallsOnly Access.aside := by
  refine (enableClock_among gate).mono (Access.aside_of_among ?_)
  cases gate.bus <;> decide

theorem pulseReset_aside (line : Gate) : (pulseReset line).CallsOnly Access.aside := by
  refine (pulseReset_among line).mono (Access.aside_of_among ?_)
  cases line.bus <;> decide

theorem configurePin_aside (bank : Port) (pin : Pin) (setup : PinSetup) :
    (configurePin bank pin setup).CallsOnly Access.aside :=
  (configurePin_among bank pin setup).mono (Access.aside_of_among (by simp [portRegisters]))

theorem initialise_aside (ceiling : Log.Ceiling) :
    (initialise ceiling).CallsOnly Access.aside :=
  (initialise_among ceiling).mono (Access.aside_of_among (by decide))

theorem resetPart_aside : resetPart.CallsOnly Access.aside :=
  resetPart_among.mono (Access.aside_of_among (by decide))

theorem installStubs_aside : SystemControl.installStubs.CallsOnly Access.aside :=
  installStubs_among.mono (Access.aside_of_among (by decide))

theorem configureBusClocks_aside (plan : BusPlan) :
    (configureBusClocks plan).run.CallsOnly Access.aside :=
  (configureBusClocks_among plan).mono (Access.aside_of_among (by decide))

theorem requestReset_aside {α : Type} :
    (SystemControl.requestReset (α := α)).CallsOnly Access.aside :=
  requestReset_among.mono (Access.aside_of_among (by decide))

/-- No service writes to the domain unless it is open. -/
theorem provide_writes_open {t : Temper} (ht : t.LatchesOnly .pwr) {patience : Nat}
    (ceiling : Log.Ceiling) (service : Service) (p : Part) :
    ∀ e ∈ (provide ceiling service).history (simulated t) patience p,
      e.access.writes .bdcr = true → e.before.Open := by
  have haside : ∀ {α : Type} {x : Driver α}, x.CallsOnly Access.aside →
      ∀ e ∈ x.history (simulated t) patience p, e.access.writes .bdcr = true →
        e.before.Open := by
    intro α x hx e he hwrite
    have hspared := hx.access_of_mem he
    rw [Access.aside, hwrite] at hspared
    cases hspared
  cases service with
  | resetClocks => exact haside resetPart_aside
  | initialise => exact haside (initialise_aside ceiling)
  | stubVectors => exact haside installStubs_aside
  | configureOscillators plan => exact (configureOscillators_gated plan).writes_open ht p
  | configureBusClocks plan => exact haside (configureBusClocks_aside plan)
  | configurePeripheralClocks plan => exact (configurePeripheralClocks_gated plan).writes_open ht p
  | enableClock gate => exact haside (enableClock_aside gate)
  | pulseReset line => exact haside (pulseReset_aside line)
  | configurePin pin setup => exact haside (configurePin_aside _ pin setup)
  | releasePin pin => exact haside (configurePin_aside _ pin _)
  | resetSystem => exact haside requestReset_aside

/-- What holds of the events of every service, from every state, holds of the
events of every sequence of services. -/
theorem onRegisters_forall {d : Device Part} {patience : Nat} {ceiling : Log.Ceiling}
    {G : Event Part → Prop}
    (h : ∀ service p, ∀ e ∈ (provide ceiling service).history d patience p, G e)
    {α : Type} (s : Sequence α) (p : Part) :
    ∀ e ∈ (onRegisters ceiling s).history d patience p, G e :=
  (onRegisters_forall_iff s p).mpr fun call _ => h call.2 call.1

end Hardware

/-- A selection of the real-time clock's source that does not get the domain
unlocked has only seen the closed lock. -/
theorem Hardware.configurePeripheralClocks_refused {t : Temper} {patience : Nat}
    {plan : PeripheralPlan} (hnamed : plan.named.names .rtc = true) {p : Part}
    (h : ¬((p.powered t).unlocking t).Unlocked) :
    Refused ((configurePeripheralClocks plan).run.history (simulated t) patience p) := by
  have haccess : BackupDomain.access.run.run ((simulated t).handler patience) p = _ := access_run p
  rw [unlockResult, if_neg h] at haccess
  have hselect : (selectRtcSource plan.rtc).run.run ((simulated t).handler patience) p = _ :=
    Setup.run_bind_of_error haccess
  have hevents : (selectRtcSource plan.rtc).run.history (simulated t) patience p = _ :=
    Setup.history_bind_of_error haccess
  have htaken : optionally true (selectRtcSource plan.rtc) = selectRtcSource plan.rtc := rfl
  rw [configurePeripheralClocks_eq, hnamed, htaken, Setup.history_bind_of_error hselect, hevents]
  exact access_refused h

/-- The backup domain is always opened before it is written. Take any part on
which only power control may have stuck bits, and any state of it.

Whatever services are asked for, in any order, every write to the backup domain
finds it unlocked and the power controller under its clock, and so the part
never drops one. And when the lock stays closed at every look, then the service
reports the timeout and has written nothing to the domain. -/
theorem backup_writes_open {t : Temper} (ht : t.LatchesOnly .pwr) (patience : Nat)
    (ceiling : Log.Ceiling) :
    (∀ (α : Type) (s : Sequence α) (p : Part),
      ∀ e ∈ (onRegisters ceiling s).history (simulated t) patience p,
        ∀ v, e.access = .write .bdcr v → e.before.Open ∧ e.before.ignores t .bdcr = false) ∧
    (∀ plan, ReportsRefusal t patience (configureOscillators plan)) ∧
    (∀ plan, ReportsRefusal t patience (configurePeripheralClocks plan)) := by
  refine ⟨fun α s p e he v hv => ?_, fun plan => ?_, fun plan => ?_⟩
  · have hservice : ∀ service p, ∀ e ∈ (provide ceiling service).history (simulated t) patience p,
        e.access.writes .bdcr = true → e.before.Open := provide_writes_open ht ceiling
    have hopen : e.before.Open := onRegisters_forall hservice s p e he (by rw [hv]; rfl)
    exact ⟨hopen, hopen.takes t⟩
  · exact (configureOscillators_gated plan).reportsRefusal
  · exact (configurePeripheralClocks_gated plan).reportsRefusal

/-- A part whose power control never unlocks the backup domain. -/
def Temper.stuckLock : Temper :=
  { Temper.prompt with latch := fun r => if r = .pwr then some (0xFFFFFEFF, 0) else none }

/-- The board's plan at power-on: on a part that unlocks the domain there is a
write to it, and on one that never does the selection of a source is refused. -/
theorem backup_writes_open_board :
    Temper.prompt.LatchesOnly .pwr ∧
    (∃ e ∈ (onRegisters .all (bringUp .board)).history (simulated .prompt) 0
        (.powerOn Part.bootVector),
      ∃ v, e.access = .write .bdcr v ∧ e.before.Open ∧ e.before.ignores .prompt .bdcr = false) ∧
    Temper.stuckLock.LatchesOnly .pwr ∧
    Refused ((configurePeripheralClocks Plan.board.peripherals).run.history
      (simulated .stuckLock) 0 (.powerOn Part.bootVector)) ∧
    ∃ q log, (configurePeripheralClocks Plan.board.peripherals).run.run
      ((simulated .stuckLock).handler 0) (.powerOn Part.bootVector) =
        ⟨.ok (.error (.timeout .backupDomainAccess)), q, log⟩ := by
  have hprompt : Temper.prompt.LatchesOnly .pwr := fun _ _ => rfl
  have hstuck : Temper.stuckLock.LatchesOnly .pwr := fun r hr => if_neg hr
  have hwrites : ((onRegisters .all (bringUp .board)).history (simulated .prompt) 0
      (.powerOn Part.bootVector)).any (·.access.writes .bdcr) = true := by
    decide +kernel
  obtain ⟨e, he, hwrite⟩ := List.any_eq_true.mp hwrites
  have hrefused : Refused ((configurePeripheralClocks Plan.board.peripherals).run.history
      (simulated .stuckLock) 0 (.powerOn Part.bootVector)) :=
    configurePeripheralClocks_refused rfl (by decide)
  refine ⟨hprompt, ⟨e, he, ?_⟩, hstuck, hrefused, ?_⟩
  · obtain ⟨hopen, -, -⟩ := backup_writes_open hprompt 0 .all
    cases haccess : e.access with
    | write r v =>
        rw [haccess] at hwrite
        obtain rfl : r = .bdcr := of_decide_eq_true hwrite
        obtain ⟨h, htakes⟩ := hopen _ _ _ e he v haccess
        exact ⟨v, rfl, h, htakes⟩
    | read r | poll r accept budget | await r accept | loadVector table slot
    | storeVector slot entry =>
        rw [haccess] at hwrite
        cases hwrite
  · obtain ⟨-, -, hreports⟩ := backup_writes_open hstuck 0 .all
    exact (hreports _ _ hrefused).1

end BringUp
