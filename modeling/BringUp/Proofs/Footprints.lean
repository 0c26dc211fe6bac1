import BringUp.Hardware.Services
import BringUp.Proofs.Confinement

/-!
The footprints of the drivers: for each of them, the bits that it may change.

* `Footprint.hse`, `Footprint.lse`, `Footprint.buses`, …: the footprints.
* `configureHse_confines`, `configureLse_confines`, …: each driver keeps to
  its footprint, for all modes and plans, on success and on every error.

A footprint is all that a caller has to know of a driver whose effect does not
matter to it.
-/

namespace BringUp

open Clock

namespace Footprint

/-- The power controller's clock, and the lock of the backup domain. -/
def access : Footprint
  | .apb1enr => BitVec.twoPow 32 28
  | .pwr => Hardware.BackupDomain.writable
  | _ => 0

def hse : Footprint
  | .cr => Cr.hseOn ||| Cr.hseBypass
  | _ => 0

def hsi : Footprint
  | .cr => Cr.hsiOn
  | _ => 0

def lsi : Footprint
  | .csr => Csr.lsiOn
  | _ => 0

/-- The crystal's mode, and the access to it. -/
def lse : Footprint
  | .bdcr => Bdcr.lseMode
  | r => access r

/-- All oscillators, but not the PLL. -/
def oscillators : Footprint
  | .cr => Cr.hsiOn ||| Cr.hseOn ||| Cr.hseBypass
  | .csr => Csr.lsiOn
  | r => lse r

def pll : Footprint
  | .cr => Cr.pllOn
  | .cfgr => Cfgr.pll
  | _ => 0

/-- All oscillators and the PLL. -/
def clockSources : Footprint
  | .cr => Cr.hsiOn ||| Cr.hseOn ||| Cr.hseBypass ||| Cr.pllOn
  | .cfgr => Cfgr.pll
  | r => oscillators r

/-- The whole backup domain, and the access to it. -/
def backupDomain : Footprint
  | .bdcr => BitVec.allOnes 32
  | r => access r

/-- The clocks of the real-time clock and the converter. -/
def peripherals : Footprint
  | .cfgr => Cfgr.adcpre.mask
  | r => backupDomain r

def waitStates : Footprint
  | .acr => Hardware.Flash.latency.mask
  | _ => 0

/-- The dividers of the peripheral buses. -/
def busDividers : Footprint
  | .cfgr => Cfgr.ppre1.mask ||| Cfgr.ppre2.mask
  | _ => 0

/-- The dividers of all buses. -/
def dividers : Footprint
  | .cfgr => Cfgr.hpre.mask ||| Cfgr.ppre1.mask ||| Cfgr.ppre2.mask
  | _ => 0

/-- The bus clocks, but the source only if it is named. -/
def buses (named : FlagSet BusClock) : Footprint
  | .cfgr =>
      (if named.names .sysclk then Cfgr.sw.mask else 0) |||
        (Cfgr.hpre.mask ||| Cfgr.ppre1.mask ||| Cfgr.ppre2.mask)
  | .acr => Hardware.Flash.latency.mask
  | _ => 0

/-- The reset state of the clocks, and the vectors. -/
def reset : Footprint
  | .cr => Cr.hsiOn ||| ~~~(Hardware.keepBesideOscillators &&& Hardware.keepBesideBypass)
  | .cfgr => ~~~(Hardware.keepBesideBusClocks &&& Hardware.keepBesidePll)
  | .cir => BitVec.allOnes 32
  | .vtor => BitVec.allOnes 32
  | _ => 0

/-- The basic setup: prefetch buffer, interrupt priorities, and two gates. -/
def initialise : Footprint
  | .acr => Hardware.Flash.prefetchOn
  | .aircr => BitVec.allOnes 32
  | .apb2enr => BitVec.twoPow 32 0
  | .apb1enr => BitVec.twoPow 32 28
  | _ => 0

/-- The clock interrupts and the vectors. -/
def interrupts : Footprint
  | .cir | .vtor => BitVec.allOnes 32
  | _ => 0

def vectors : Footprint
  | .vtor => BitVec.allOnes 32
  | _ => 0

end Footprint

namespace Hardware

variable {t : Temper} (ht : t.Unlatched) (patience : Nat)

/-! ## Building blocks -/

/-- A gate whose mask exists is opened by its mask. -/
theorem enableClock_eq {gate : Gate} {mask : Word} (h : gate.mask = .ok mask) :
    enableClock gate =
      Driver.setBits (Register.enable gate.bus) mask >>= fun _ =>
        Driver.read (Register.enable gate.bus) >>= fun _ => pure () := by
  simp only [enableClock, h]
  rfl

include ht in
theorem enableClock_confines {m : Footprint} {gate : Gate} {mask : Word}
    (h : gate.mask = .ok mask) (hm : mask &&& ~~~m (Register.enable gate.bus) = 0) :
    Confines t patience m (enableClock gate) := by
  rw [enableClock_eq h]
  exact .bind (.setBits ht hm) fun _ => .bind (.read _) fun _ => .done ()

theorem drivesSysclk_confines (m : Footprint) (source : SysclkSource)
    (input : PllSource) : Confines t patience m (drivesSysclk source input) := by
  unfold drivesSysclk sysclkStatus pllSource
  refine .bind (.bind (.readField _ _) fun _ => .done _) fun status => ?_
  split
  · exact .done _
  · split
    · exact .bind (.bind (.isSet _ _) fun _ => .done _) fun _ => .done _
    · exact .done _

/-! ## The backup domain -/

include ht in
theorem access_confines : Confines t patience Footprint.access BackupDomain.access.run := by
  unfold BackupDomain.access BackupDomain.unlock
  refine .setupBind (.lift (enableClock_confines ht patience rfl (by decide))) fun _ => ?_
  refine .setupBind (.lift (.isSet _ _)) fun unlocked => ?_
  split
  · exact .setupPure ()
  · refine .setupBind (.lift (.setBits ht (by decide))) fun _ => ?_
    exact .waitUntil _ _ _ _

/-! ## Oscillators -/

include ht in
theorem configureHse_confines (mode : OscillatorMode) :
    Confines t patience Footprint.hse (configureHse mode).run := by
  unfold configureHse
  refine .setupBind (.lift (drivesSysclk_confines patience _ _ _)) fun drives => ?_
  split
  · split
    · exact .setupPure ()
    · exact .throw _
  · refine .setupBind (.lift (.clearBits ht (by decide))) fun _ => ?_
    refine .setupBind (.waitUntil _ _ _ _) fun _ => ?_
    split
    · refine .setupBind (.lift (.setBits ht ?_)) fun _ => .waitUntil _ _ _ _
      cases mode <;> decide
    · exact .setupPure ()

include ht in
theorem configureHsi_confines (mode : OscillatorMode) :
    Confines t patience Footprint.hsi (configureHsi mode).run := by
  unfold configureHsi
  refine .setupBind (.lift (drivesSysclk_confines patience _ _ _)) fun drives => ?_
  split
  · split
    · exact .waitUntil _ _ _ _
    · exact .throw _
  · split
    · exact .setupBind (.lift (.setBits ht (by decide))) fun _ => .waitUntil _ _ _ _
    · exact .setupBind (.lift (.clearBits ht (by decide))) fun _ => .waitUntil _ _ _ _

include ht in
theorem configureLsi_confines (mode : OscillatorMode) :
    Confines t patience Footprint.lsi (configureLsi mode).run := by
  unfold configureLsi
  split
  · exact .setupBind (.lift (.setBits ht (by decide))) fun _ => .waitUntil _ _ _ _
  · exact .setupBind (.lift (.clearBits ht (by decide))) fun _ => .waitUntil _ _ _ _

theorem awaitLse_confines (m : Footprint) (mode : OscillatorMode) :
    Confines t patience m (awaitLse mode).run := by
  unfold awaitLse
  split <;> exact .waitUntil _ _ _ _

include ht in
theorem configureLse_confines (mode : OscillatorMode) :
    Confines t patience Footprint.lse (configureLse mode).run := by
  have haccess : Footprint.access.Within Footprint.lse := by
    intro r
    cases r <;> simp [Footprint.access, Footprint.lse]
  unfold configureLse
  refine .setupBind ((access_confines ht patience).mono haccess) fun _ => ?_
  refine .setupBind (.lift (.read _)) fun bdcr => ?_
  split
  · exact awaitLse_confines patience _ mode
  · refine .setupBind (.lift (.clearBits ht (by decide))) fun _ => ?_
    refine .setupBind (.waitUntil _ _ _ _) fun _ => ?_
    split
    · refine .setupBind (.lift (.setBits ht ?_)) fun _ => .waitUntil _ _ _ _
      cases mode <;> decide
    · exact .setupPure ()

/-! ## Peripheral clocks -/

include ht in
theorem resetBackupDomain_confines :
    Confines t patience Footprint.backupDomain resetBackupDomain.run := by
  unfold resetBackupDomain
  refine .setupBind (.lift (.log _ _ _)) fun _ => ?_
  refine .setupBind (.lift (.read _)) fun bdcr => ?_
  refine .setupBind (.lift (.setBits ht (by decide))) fun _ => ?_
  refine .setupBind (.lift (.clearBits ht (by decide))) fun _ => ?_
  refine .setupBind (.lift (.write ht _ (by decide))) fun _ => ?_
  split
  · exact .waitUntil _ _ _ _
  · exact .setupPure ()

include ht in
theorem selectRtcSource_confines (source : RtcSource) :
    Confines t patience Footprint.backupDomain (selectRtcSource source).run := by
  have haccess : Footprint.access.Within Footprint.backupDomain := by
    intro r
    cases r <;> simp [Footprint.access, Footprint.backupDomain]
  have hwrite : Confines t patience Footprint.backupDomain
      (liftM (Driver.writeField .bdcr Bdcr.rtcSource source.code) : Setup Unit).run :=
    .lift (.writeField ht _ (by decide))
  unfold selectRtcSource
  refine .setupBind ((access_confines ht patience).mono haccess) fun _ => ?_
  refine .setupBind (.lift (.readField _ _)) fun current => ?_
  dsimp only
  split
  · exact .setupBind (resetBackupDomain_confines ht patience) fun _ => hwrite
  · exact hwrite

theorem configurePeripheralClocks_eq (plan : PeripheralPlan) :
    configurePeripheralClocks plan = (do
      optionally (plan.named.names .rtc) (selectRtcSource plan.rtc)
      optionally (plan.named.names .adc)
        (liftM (Driver.writeField .cfgr Cfgr.adcpre plan.adc.code) : Setup Unit)) := by
  simp only [optionally_bind]
  rfl

include ht in
theorem configurePeripheralClocks_confines (plan : PeripheralPlan) :
    Confines t patience Footprint.peripherals (configurePeripheralClocks plan).run := by
  have hbackup : Footprint.backupDomain.Within Footprint.peripherals := by
    intro r
    cases r <;> simp [Footprint.backupDomain, Footprint.access, Footprint.peripherals]
  rw [configurePeripheralClocks_eq]
  refine .setupBind (.optionally ((selectRtcSource_confines ht patience _).mono hbackup)) ?_
  exact fun _ => .optionally (.lift (.writeField ht _ (by decide)))

/-! ## Services -/

include ht in
theorem resetPart_confines : Confines t patience Footprint.reset resetPart := by
  unfold resetPart resetClocks
  refine .bind ?_ fun _ => .write ht _ (by decide)
  refine .bind (.setBits ht (by decide)) fun _ => ?_
  refine .bind (.modify ht fun w => Word.agreeOn_and w (by decide)) fun _ => ?_
  refine .bind (.modify ht fun w => Word.agreeOn_and w (by decide)) fun _ => ?_
  refine .bind (.modify ht fun w => Word.agreeOn_and w (by decide)) fun _ => ?_
  refine .bind (.modify ht fun w => Word.agreeOn_and w (by decide)) fun _ => ?_
  exact .write ht _ (by decide)

theorem logPrefetch_confines (m : Footprint) (ceiling : Log.Ceiling) :
    Confines t patience m (logPrefetch ceiling) := by
  unfold logPrefetch
  split
  · exact .bind (.isSet _ _) fun _ => .log _ _ _
  · exact .done ()

include ht in
theorem initialise_confines (ceiling : Log.Ceiling) :
    Confines t patience Footprint.initialise (initialise ceiling) := by
  unfold initialise
  refine .bind (.setBits ht (by decide)) fun _ => ?_
  refine .bind (.modify ht fun w => ?_) fun _ => ?_
  · simp [Word.AgreeOn, Footprint.initialise]
  refine .bind (enableClock_confines ht patience rfl (by decide)) fun _ => ?_
  refine .bind (enableClock_confines ht patience rfl (by decide)) fun _ => ?_
  exact .bind (logPrefetch_confines patience _ ceiling) fun _ => .done _

/-- A loop over a list is confined if its body is. -/
theorem forM_confines {ι : Type} {m : Footprint} {body : ι → Driver Unit}
    (h : ∀ i, Confines t patience m (body i)) (xs : List ι) :
    Confines t patience m (xs.forM body) := by
  induction xs with
  | nil => exact .done ()
  | cons i xs ih => exact .bind (h i) fun _ => ih

include ht in
theorem installStubs_confines :
    Confines t patience Footprint.vectors SystemControl.installStubs := by
  unfold SystemControl.installStubs SystemControl.vectorTable
  refine .bind (.read _) fun current => ?_
  refine .bind (forM_confines patience (fun slot => ?_) _) fun _ => ?_
  · exact .bind (.loadVector _ _) fun _ => .storeVector _ _
  refine .bind (forM_confines patience (fun line => .storeVector _ _) _) fun _ => ?_
  exact .bind (.write ht _ (by decide)) fun _ => .log _ _ _

end Hardware

end BringUp
