import BringUp.Proofs.BackupLock
import BringUp.Proofs.BusClocks
import BringUp.Proofs.Oscillators
import BringUp.Proofs.Sequences

/-!
The registers that each driver accesses, whatever it is answered.

* `Access.among rs`: the access is to one of the registers `rs`. The vectors
  belong to the register that holds the address of their table.
* `configureHse_among`, `configureLse_among`, …: each driver keeps to a few
  registers, for all modes and plans.
* `Service.registers`: the registers of a service.

Main statement: a service accesses its registers and no others
(`provide_among`), and the other registers are as it found them
(`Part.peek_keeps`).

A footprint says what a driver may change. Here it is what the driver asks for:
a write is counted even if it changes nothing, and so is a read.
-/

namespace BringUp

open Board Clock Hardware

namespace Access

/-- The register that is accessed. A vector is accessed through the register of
its table. -/
def register : Access → Register
  | .read r | .write r _ | .poll r _ _ | .await r _ => r
  | .loadVector _ _ | .storeVector _ _ => .vtor

/-- The access is to one of the registers, or to a vector behind one. -/
def among (rs : List Register) (c : Access) : Bool :=
  c.register ∈ rs

theorem among_mono {rs rs' : List Register} (h : rs ⊆ rs') (c : Access)
    (hc : c.among rs = true) : c.among rs' = true :=
  decide_eq_true (h (of_decide_eq_true hc))

variable {rs : List Register} {r : Register}

theorem reads_of_among (hr : r ∉ rs) {c : Access} (hc : c.among rs = true) :
    c.reads r = false := by
  refine Bool.eq_false_iff.mpr fun h => hr ?_
  cases c with
  | read s =>
      obtain rfl : s = r := of_decide_eq_true h
      exact of_decide_eq_true hc
  | write s v | poll s accept budget | await s accept | loadVector table slot
  | storeVector slot entry => cases h

theorem writes_of_among (hr : r ∉ rs) {c : Access} (hc : c.among rs = true) :
    c.writes r = false := by
  refine Bool.eq_false_iff.mpr fun h => hr ?_
  obtain ⟨v, rfl⟩ := eq_write_of_writes h
  exact of_decide_eq_true hc

end Access

/-- What accesses other registers only leaves a register as it is. -/
theorem Part.peek_keeps (t : Temper) {rs : List Register} {r : Register} (hr : r ∉ rs)
    (hstatus : ¬r.IsUsartStatus) (w : Word) :
    (simulated t).Keeps (Access.among rs) (fun p => p.peek r = w) where
  read s p hok hp := by
    have hne : r ≠ s := fun h => hr (h ▸ of_decide_eq_true hok)
    exact (p.peek_tick_of_ne hne).trans hp
  write s v p hok hp := by
    have hne : r ≠ s := fun h => hr (h ▸ of_decide_eq_true hok)
    exact (p.peek_write_of_ne t v hne hstatus).trans hp
  storeVector _ _ _ _ hp := hp

namespace Hardware

/-! ## Oscillators and buses -/

theorem drivesSysclk_among (source : SysclkSource) (input : PllSource) :
    (drivesSysclk source input).CallsOnly (Access.among [.cfgr]) := by
  unfold drivesSysclk sysclkStatus pllSource
  refine .bind (.bind (.readField _ rfl) fun _ => trivial) fun status => ?_
  split
  · trivial
  · split
    · exact .bind (.bind (.isSet _ rfl) fun _ => trivial) fun _ => trivial
    · trivial

theorem configureHse_among (mode : OscillatorMode) :
    (configureHse mode).run.CallsOnly (Access.among [.cfgr, .cr]) := by
  unfold configureHse
  refine .setupBind (.lift ((drivesSysclk_among _ _).mono (Access.among_mono (by decide)))) ?_
  intro drives
  split
  · split <;> trivial
  · refine .setupBind (.lift (.modify rfl fun _ => rfl)) fun _ => ?_
    refine .setupBind (.waitUntil _ _ _ rfl) fun _ => ?_
    split
    · exact .modifyThenWait _ _ _ rfl fun _ => rfl
    · trivial

theorem configureHsi_among (mode : OscillatorMode) :
    (configureHsi mode).run.CallsOnly (Access.among [.cfgr, .cr]) := by
  unfold configureHsi
  refine .setupBind (.lift ((drivesSysclk_among _ _).mono (Access.among_mono (by decide)))) ?_
  intro drives
  split
  · split
    · exact .waitUntil _ _ _ rfl
    · trivial
  · split <;> exact .modifyThenWait _ _ _ rfl fun _ => rfl

theorem configureLsi_among (mode : OscillatorMode) :
    (configureLsi mode).run.CallsOnly (Access.among [.csr]) := by
  unfold configureLsi
  split <;> exact .modifyThenWait _ _ _ rfl fun _ => rfl

theorem configurePll_among (wanted : Option PllSetting) (divider : HseDivider) :
    (configurePll wanted divider).run.CallsOnly (Access.among [.cfgr, .cr]) := by
  unfold configurePll requireMultiplier sysclkStatus
  refine .setupBind ?_ fun _ => ?_
  · split
    · split <;> trivial
    · trivial
  refine .setupBind (.lift (.bind (.readField _ rfl) fun _ => trivial)) fun status => ?_
  split
  · unfold keepPll
    split
    · trivial
    · refine .setupBind (.lift (.read rfl)) fun _ => ?_
      split <;> trivial
  · unfold restartPll
    refine .setupBind (.lift (.modify rfl fun _ => rfl)) fun _ => ?_
    refine .setupBind (.waitUntil _ _ _ rfl) fun _ => ?_
    split
    · trivial
    · refine .setupBind (.lift (.modify rfl fun _ => rfl)) fun _ => ?_
      exact .modifyThenWait _ _ _ rfl fun _ => rfl

/-- Wait states are read and, if that calls for it, set. -/
theorem adjustWaitStates_among (due : WaitStates → Prop) [DecidablePred due]
    (wanted : WaitStates) :
    (adjustWaitStates due wanted).run.CallsOnly (Access.among [.acr]) := by
  have hcurrent : Flash.waitStates.CallsOnly (Access.among [.acr]) :=
    .bind (.readField _ rfl) fun _ => trivial
  unfold adjustWaitStates
  refine .setupBind (.lift hcurrent) fun _ => ?_
  split
  · refine .setupBind (.lift (.modify rfl fun _ => rfl)) fun _ => ?_
    refine .setupBind (.lift hcurrent) fun _ => ?_
    split <;> trivial
  · trivial

theorem writeDivider_among (named : Bool) (f : Field) (v : Word) :
    (optionally named (Driver.writeField .cfgr f v)).CallsOnly (Access.among [.cfgr]) :=
  .optionallyDriver (.modify rfl fun _ => rfl)

theorem divideCore_among (plan : BusPlan) :
    (divideCore plan).CallsOnly (Access.among [.cfgr]) := by
  rw [divideCore_eq]
  exact .bind (writeDivider_among _ _ _) fun _ => .bind (writeDivider_among _ _ _) fun _ =>
    writeDivider_among _ _ _

theorem dividePeripheralBuses_among (plan : BusPlan) :
    (dividePeripheralBuses plan).CallsOnly (Access.among [.cfgr]) := by
  rw [dividePeripheralBuses_eq]
  exact .bind (writeDivider_among _ _ _) fun _ => writeDivider_among _ _ _

theorem switchSysclk_among (source : SysclkSource) :
    (switchSysclk source).run.CallsOnly (Access.among [.cfgr, .cr]) := by
  refine .setupBind (.lift (.read rfl)) fun cr => ?_
  split
  · trivial
  · exact .modifyThenWait _ _ _ rfl fun _ => rfl

theorem configureBusClocks_among (plan : BusPlan) :
    (configureBusClocks plan).run.CallsOnly (Access.among [.acr, .cfgr, .cr]) := by
  have hadjust : ∀ c : Access, c.among [.acr] = true → c.among [.acr, .cfgr, .cr] = true :=
    Access.among_mono (by simp)
  have hdivide : ∀ c : Access, c.among [.cfgr] = true → c.among [.acr, .cfgr, .cr] = true :=
    Access.among_mono (by simp)
  have hswitch : ∀ c : Access, c.among [.cfgr, .cr] = true → c.among [.acr, .cfgr, .cr] = true :=
    Access.among_mono (by simp)
  rw [configureBusClocks_eq]
  refine .setupBind ((adjustWaitStates_among (plan.waitStates.count > ·.count) _).mono hadjust)
    fun _ => ?_
  refine .setupBind (.optionally (.lift ((divideCore_among plan).mono hdivide))) fun _ => ?_
  refine .setupBind (.optionally ((switchSysclk_among _).mono hswitch)) fun _ => ?_
  refine .setupBind ((adjustWaitStates_among (plan.waitStates.count < ·.count) _).mono hadjust) ?_
  exact fun _ => .lift ((dividePeripheralBuses_among plan).mono hdivide)

/-! ## The backup domain -/

theorem enableClock_among (gate : Gate) :
    (enableClock gate).CallsOnly (Access.among [Register.enable gate.bus]) := by
  unfold enableClock
  refine .bind (.ofExcept _) fun _ => ?_
  cases gate.bus <;>
    exact .bind (.modify rfl fun _ => rfl) fun _ => .bind (.read rfl) fun _ => trivial

theorem access_among : BackupDomain.access.run.CallsOnly (Access.among [.apb1enr, .pwr]) := by
  refine .setupBind (.lift ((enableClock_among Gate.pwr).mono (Access.among_mono (by decide)))) ?_
  refine fun _ => .setupBind (.lift (.isSet _ rfl)) fun unlocked => ?_
  cases unlocked with
  | true => exact .setupPure ()
  | false => exact .modifyThenWait _ _ _ rfl fun _ => rfl

theorem configureLse_among (mode : OscillatorMode) :
    (configureLse mode).run.CallsOnly (Access.among [.apb1enr, .pwr, .bdcr]) := by
  unfold configureLse awaitLse
  refine .setupBind (access_among.mono (Access.among_mono (by decide))) fun _ => ?_
  refine .setupBind (.lift (.read rfl)) fun bdcr => ?_
  split
  · split <;> exact .waitUntil _ _ _ rfl
  · refine .setupBind (.lift (.modify rfl fun _ => rfl)) fun _ => ?_
    refine .setupBind (.waitUntil _ _ _ rfl) fun _ => ?_
    split
    · exact .modifyThenWait _ _ _ rfl fun _ => rfl
    · trivial

theorem configureOscillators_among (plan : OscillatorPlan) :
    (configureOscillators plan).run.CallsOnly
      (Access.among [.cfgr, .cr, .csr, .apb1enr, .pwr, .bdcr]) := by
  have hcontrol : ∀ c : Access, c.among [.cfgr, .cr] = true →
      c.among [.cfgr, .cr, .csr, .apb1enr, .pwr, .bdcr] = true := Access.among_mono (by decide)
  rw [configureOscillators_eq]
  refine .setupBind ?_ fun _ => (configurePll_among _ _).mono hcontrol
  refine .setupBind (.optionally ((configureHse_among _).mono hcontrol)) fun _ => ?_
  refine .setupBind (.optionally ((configureHsi_among _).mono hcontrol)) fun _ => ?_
  refine .setupBind (.optionally ((configureLsi_among _).mono (Access.among_mono (by decide)))) ?_
  exact fun _ => .optionally ((configureLse_among _).mono (Access.among_mono (by decide)))

theorem selectRtcSource_among (source : RtcSource) :
    (selectRtcSource source).run.CallsOnly (Access.among [.apb1enr, .pwr, .bdcr]) := by
  have hwrite : (liftM (Driver.writeField .bdcr Bdcr.rtcSource source.code) :
      Setup Unit).run.CallsOnly (Access.among [.apb1enr, .pwr, .bdcr]) :=
    .lift (.modify rfl fun _ => rfl)
  unfold selectRtcSource resetBackupDomain
  refine .setupBind (access_among.mono (Access.among_mono (by decide))) fun _ => ?_
  refine .setupBind (.lift (.readField _ rfl)) fun current => ?_
  dsimp only
  split
  · refine .setupBind ?_ fun _ => hwrite
    refine .setupBind (.lift (.log _ _ _)) fun _ => .setupBind (.lift (.read rfl)) fun _ => ?_
    refine .setupBind (.lift (.modify rfl fun _ => rfl)) fun _ => ?_
    refine .setupBind (.lift (.modify rfl fun _ => rfl)) fun _ => ?_
    refine .setupBind (.lift (.write _ rfl)) fun _ => ?_
    split
    · exact .waitUntil _ _ _ rfl
    · trivial
  · exact hwrite

theorem configurePeripheralClocks_among (plan : PeripheralPlan) :
    (configurePeripheralClocks plan).run.CallsOnly
      (Access.among [.cfgr, .apb1enr, .pwr, .bdcr]) := by
  rw [configurePeripheralClocks_eq]
  exact .setupBind
    (.optionally ((selectRtcSource_among _).mono (Access.among_mono (by decide))))
    fun _ => .optionally (.lift (.modify rfl fun _ => rfl))

/-! ## The other drivers -/

theorem pulseReset_among (line : Gate) :
    (pulseReset line).CallsOnly (Access.among (Register.reset? line.bus).toList) := by
  unfold pulseReset
  cases line.bus with
  | ahb => trivial
  | apb1 | apb2 =>
      exact .bind (.ofExcept _) fun _ => .bind (.modify rfl fun _ => rfl) fun _ =>
        .modify rfl fun _ => rfl

/-- The registers of a port. -/
def portRegisters (port : Port) : List Register :=
  [.crl, .crh, .idr, .odr, .bsrr, .brr].map (.port port)

theorem mem_portRegisters (port : Port) (half : PortRegister) :
    .port port half ∈ portRegisters port := by
  refine List.mem_map_of_mem ?_
  cases half <;> decide

theorem configurePin_among (bank : Port) (pin : Pin) (setup : PinSetup) :
    (configurePin bank pin setup).CallsOnly (Access.among (portRegisters bank)) := by
  have hread : ∀ half, (Access.read (.port bank half)).among (portRegisters bank) = true :=
    fun half => decide_eq_true (mem_portRegisters bank half)
  have hwrite : ∀ half v, (Access.write (.port bank half) v).among (portRegisters bank) = true :=
    fun half _ => decide_eq_true (mem_portRegisters bank half)
  unfold configurePin latchPull
  split
  · trivial
  · refine .bind (.ofExcept _) fun slot => .bind (.modify (hread _) (hwrite _)) fun _ => ?_
    refine .bind (.ofExcept _) fun _ => ?_
    split
    · exact .write _ (hwrite _ _)
    · exact .write _ (hwrite _ _)
    · trivial

theorem logPrefetch_among (ceiling : Log.Ceiling) :
    (logPrefetch ceiling).CallsOnly (Access.among [.acr]) := by
  unfold logPrefetch
  split
  · exact .bind (.isSet _ rfl) fun _ => .log _ _ _
  · trivial

theorem initialise_among (ceiling : Log.Ceiling) :
    (initialise ceiling).CallsOnly (Access.among [.acr, .aircr, .apb2enr, .apb1enr]) := by
  unfold initialise
  refine .bind (.modify rfl fun _ => rfl) fun _ => .bind (.modify rfl fun _ => rfl) fun _ => ?_
  refine .bind ((enableClock_among Gate.afio).mono (Access.among_mono (by decide))) fun _ => ?_
  refine .bind ((enableClock_among Gate.pwr).mono (Access.among_mono (by decide))) fun _ => ?_
  exact .bind ((logPrefetch_among ceiling).mono (Access.among_mono (by decide))) fun _ => trivial

theorem resetClocks_among : resetClocks.CallsOnly (Access.among [.cr, .cfgr, .cir]) := by
  unfold resetClocks
  refine .bind (.modify rfl fun _ => rfl) fun _ => .bind (.modify rfl fun _ => rfl) fun _ => ?_
  refine .bind (.modify rfl fun _ => rfl) fun _ => .bind (.modify rfl fun _ => rfl) fun _ => ?_
  exact .bind (.modify rfl fun _ => rfl) fun _ => .write _ rfl

theorem resetPart_among : resetPart.CallsOnly (Access.among [.cr, .cfgr, .cir, .vtor]) :=
  .bind (resetClocks_among.mono (Access.among_mono (by decide))) fun _ => .write _ rfl

theorem installStubs_among : SystemControl.installStubs.CallsOnly (Access.among [.vtor]) := by
  unfold SystemControl.installStubs
  refine .bind (.read rfl) fun _ => ?_
  refine .bind (.forM (fun _ => .bind (.request rfl) fun _ => .request rfl) _) fun _ => ?_
  refine .bind (.forM (fun _ => .request rfl) _) fun _ => ?_
  exact .bind (.write _ rfl) fun _ => .log _ _ _

theorem requestReset_among {α : Type} :
    (SystemControl.requestReset (α := α)).CallsOnly (Access.among [.aircr]) :=
  .bind (.modify rfl fun _ => rfl) fun _ => trivial

end Hardware

/-! ## Services -/

/-- The registers that the driver of a service accesses. -/
def Board.Service.registers : Service → List Register
  | .resetClocks => [.cr, .cfgr, .cir, .vtor]
  | .initialise => [.acr, .aircr, .apb2enr, .apb1enr]
  | .stubVectors => [.vtor]
  | .configureOscillators _ => [.cfgr, .cr, .csr, .apb1enr, .pwr, .bdcr]
  | .configureBusClocks _ => [.acr, .cfgr, .cr]
  | .configurePeripheralClocks _ => [.cfgr, .apb1enr, .pwr, .bdcr]
  | .enableClock gate => [Register.enable gate.bus]
  | .pulseReset line => (Register.reset? line.bus).toList
  | .configurePin pin _ | .releasePin pin => portRegisters pin.port
  | .resetSystem => [.aircr]

/-- A service accesses its registers and no others. -/
theorem Hardware.provide_among (ceiling : Log.Ceiling) (service : Service) :
    (provide ceiling service).CallsOnly (Access.among service.registers) := by
  cases service with
  | resetClocks => exact resetPart_among
  | initialise => exact initialise_among ceiling
  | stubVectors => exact installStubs_among
  | configureOscillators plan => exact configureOscillators_among plan
  | configureBusClocks plan => exact configureBusClocks_among plan
  | configurePeripheralClocks plan => exact configurePeripheralClocks_among plan
  | enableClock gate => exact enableClock_among gate
  | pulseReset line => exact pulseReset_among line
  | configurePin pin setup => exact configurePin_among _ pin setup
  | releasePin pin => exact configurePin_among _ pin _
  | resetSystem => exact requestReset_among

end BringUp
