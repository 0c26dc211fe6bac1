import BringUp.Proofs.FlagProgress
import BringUp.Proofs.Oscillators
import BringUp.Proofs.PeripheralClocks

/-!
What is demanded of an oscillator, and the drivers that see to it.

* `Controls`: the control bits of an oscillator, and the flag that follows them.
* `Demand`: what the bits are to be, and whether the oscillator runs with them.
* `Demand.Met d q`: the bits are so, and the ready flag says the same.
* `Part.Takes r`: the register takes what is written. For the backup domain that
  is a state, for the other registers it is always so.

Main statements: a demand that is met stays so under whatever leaves its control
bits alone (`Met.of_confined`), to write the bits and to wait for the flag meets
it (`modifyThenWait_ensures`), and so does every driver that succeeds without
its oscillator being in use (`configureHse_meets`, `configureLse_meets`, …).

The flag follows the control bits at any time, or never, and a write of the
register may write it back as it was read before. None of that matters to a
demand that is met, because there the flag has nothing left to follow.
-/

namespace BringUp

open Clock Hardware

/-! ## Demands -/

/-- The control bits of an oscillator, and the flag that follows them. -/
structure Controls where
  flag : StatusFlag
  status : Word
  mask : Word
  shows : flag.status = status
  control : flag.control &&& mask = flag.control
  plain : mask &&& ~~~StatusFlag.statusOf flag.register = mask

namespace Controls

/-- The register of the oscillator. -/
def register (c : Controls) : Register :=
  c.flag.register

def hse : Controls where
  flag := .hse
  status := Cr.hseReady
  mask := Cr.hseOn ||| Cr.hseBypass
  shows := by decide
  control := by decide
  plain := by decide

def hsi : Controls where
  flag := .hsi
  status := Cr.hsiReady
  mask := Cr.hsiOn
  shows := by decide
  control := by decide
  plain := by decide

def lsi : Controls where
  flag := .lsi
  status := Csr.lsiReady
  mask := Csr.lsiOn
  shows := by decide
  control := by decide
  plain := by decide

def lse : Controls where
  flag := .lse
  status := Bdcr.lseReady
  mask := Bdcr.lseMode
  shows := by decide
  control := by decide
  plain := by decide

def pll : Controls where
  flag := .pll
  status := Cr.pllReady
  mask := Cr.pllOn
  shows := by decide
  control := by decide
  plain := by decide

theorem shown_eq (c : Controls) (w : Word) : c.flag.shown w = w &&& c.status := by
  rw [StatusFlag.shown, c.shows]

theorem status_nonzero (c : Controls) : (c.status != 0) = true := by
  rw [← c.shows]
  cases c.flag <;> rfl

end Controls

/-- What an oscillator is to be: its control bits, and whether it runs with
them. -/
structure Demand extends Controls where
  bits : Word
  running : Bool
  within : bits &&& mask = bits
  asks : bits &&& flag.control = if running then flag.control else 0
  stopped : running = false → bits = 0
  noReset : flag.register = .bdcr → bits.getLsbD 16 = false

namespace Demand

/-- The control bits are as demanded, and the ready flag says whether the
oscillator runs. -/
structure Met (d : Demand) (q : Part) : Prop where
  bits : q.peek d.register &&& d.mask = d.bits
  ready : (q.peek d.register).has d.status = d.running

def hse (mode : OscillatorMode) : Demand where
  toControls := .hse
  bits := hseBits mode
  running := mode.running
  within := by cases mode <;> decide
  asks := by cases mode <;> rfl
  stopped := by cases mode <;> decide
  noReset := fun h => by cases h

def hsi (mode : OscillatorMode) : Demand where
  toControls := .hsi
  bits := if mode.running then Cr.hsiOn else 0
  running := mode.running
  within := by cases mode <;> decide
  asks := by cases mode <;> rfl
  stopped := by cases mode <;> decide
  noReset := fun h => by cases h

def lsi (mode : OscillatorMode) : Demand where
  toControls := .lsi
  bits := if mode.running then Csr.lsiOn else 0
  running := mode.running
  within := by cases mode <;> decide
  asks := by cases mode <;> rfl
  stopped := by cases mode <;> decide
  noReset := fun h => by cases h

def lse (mode : OscillatorMode) : Demand where
  toControls := .lse
  bits := lseBits mode
  running := mode.running
  within := by cases mode <;> decide
  asks := by cases mode <;> rfl
  stopped := by cases mode <;> decide
  noReset := fun _ => by cases mode <;> rfl

def pll (on : Bool) : Demand where
  toControls := .pll
  bits := if on then Cr.pllOn else 0
  running := on
  within := by cases on <;> decide
  asks := by cases on <;> rfl
  stopped := by cases on <;> decide
  noReset := fun h => by cases h

/-- The crystal's switch, and no other of its bits: it is on, and runs. -/
def crystal : Demand where
  flag := .lse
  status := Bdcr.lseReady
  mask := Bdcr.lseOn
  shows := by decide
  control := by decide
  plain := by decide
  bits := Bdcr.lseOn
  running := true
  within := by decide
  asks := by rfl
  stopped := fun h => by cases h
  noReset := fun _ => by rfl

variable {d : Demand} {m : Footprint} {p q : Part}

/-- The control bits ask for the flag that is demanded. -/
theorem wanted_eq (h : p.peek d.register &&& d.mask = d.bits) :
    d.flag.wanted (p.peek d.register) = if d.running then d.status else 0 := by
  have hcontrol : p.peek d.register &&& d.flag.control =
      if d.running then d.flag.control else 0 := by
    rw [← d.asks, ← h, BitVec.and_assoc, BitVec.and_comm d.mask, d.control]
  rw [StatusFlag.wanted, hcontrol]
  split
  · exact d.shows
  · exact BitVec.zero_shiftLeft _

/-- Out of reset of the backup domain, a footprint says what happens to the
oscillator. -/
theorem covers (d : Demand) (hreset : (m .bdcr).getLsbD 16 = false) (hp : p.NoDomainReset) :
    m.Covers p d.register :=
  Footprint.covers_of_noDomainReset hreset hp d.flag.register_notUsart

theorem bits_of_confined (h : Confined m p q) (hcover : m.Covers p d.register)
    (hm : m d.register &&& d.mask = 0) (hbits : p.peek d.register &&& d.mask = d.bits) :
    q.peek d.register &&& d.mask = d.bits := by
  refine Eq.trans ((h.steady d.register hcover).and_eq ?_) hbits
  have hplain : d.mask &&& ~~~StatusFlag.statusOf d.register = d.mask := d.plain
  ext i hi
  have hbit := Word.and_getElem_of_disjoint hm i hi
  have hstatus := Word.getElem_of_subset hplain i hi
  simp only [BitVec.getElem_and, BitVec.getElem_or, BitVec.getElem_not] at hbit hstatus ⊢
  cases hmask : d.mask[i] <;> simp_all

/-- A demand that is met stays so if nothing is done to its oscillator. -/
theorem Met.of_confined (h : Confined m p q) (hcover : m.Covers p d.register)
    (hm : m d.register &&& (d.mask ||| d.status) = 0) (hmet : d.Met p) : d.Met q := by
  obtain ⟨hmask, hstatus⟩ := (Word.and_or_eq_zero_iff _ _ _).mp hm
  have hcontrol : m d.register &&& (d.flag.control ||| d.flag.status) = 0 := by
    refine (Word.and_or_eq_zero_iff _ _ _).mpr ⟨?_, by rw [d.shows, hstatus]⟩
    rw [← d.control, BitVec.and_comm d.flag.control, ← BitVec.and_assoc, hmask]
    exact BitVec.zero_and
  refine ⟨bits_of_confined h hcover hmask hmet.bits, ?_⟩
  rcases h.shown d.flag hcover hcontrol with hkept | hfollowed
  · rw [← hmet.ready]
    exact congrArg (· != 0) (d.shown_eq _ ▸ d.shown_eq _ ▸ hkept)
  · have hshown : q.peek d.register &&& d.status = if d.running then d.status else 0 :=
      (d.shown_eq _).symm.trans (hfollowed.trans (wanted_eq hmet.bits))
    refine Eq.trans (congrArg (· != 0) hshown) ?_
    cases d.running with
    | false => rfl
    | true => exact d.status_nonzero

end Demand

/-! ## Registers that take what is written -/

/-- A write of the register takes effect as it is, as long as it does not reset
the backup domain. -/
structure Part.Takes (p : Part) (r : Register) : Prop where
  noReset : p.NoDomainReset
  unlocked : r = .bdcr → p.Unlocked

/-- The registers of the flags are open, or that of the backup domain. -/
theorem StatusFlag.open_or_bdcr (f : StatusFlag) : f.register.Open ∨ f.register = .bdcr := by
  cases f with
  | hsi | hse | pll => exact .inl Register.cr_open
  | lsi => exact .inl Register.csr_open
  | lse => exact .inr rfl
  | sysclk => exact .inl Register.cfgr_open
  | prefetch => exact .inl Register.acr_open

theorem Part.Takes.of_none {p q : Part} {r : Register} (h : Confined .none p q)
    (hp : p.Takes r) : q.Takes r :=
  ⟨h.noDomainReset rfl hp.noReset, fun hr => h.unlocked rfl (hp.unlocked hr)⟩

section Steps

variable {t : Temper} (ht : t.Unlatched) {patience : Nat} {d : Demand} {p : Part}

include ht in
/-- A read-modify-write leaves what was made of the word, unless it resets the
backup domain. -/
theorem modify_ensures {r : Register} (hr : r.Open ∨ r = .bdcr) {g : Word → Word}
    (hg : r = .bdcr → ∀ w, w.getLsbD 16 = false → (g w).getLsbD 16 = false) (hp : p.Takes r) :
    Ensures (simulated t) patience (fun _ => True) (Driver.modify r g) p
      (fun _ q => q.Takes r ∧
        Word.AgreeOn (~~~StatusFlag.statusOf r) (q.peek r) (g (p.peek r))) := by
  rcases hr with hopen | rfl
  · have hreset : ((p.tick r).write t r (g (p.peek r))).NoDomainReset := by
      rw [Part.NoDomainReset, Part.peek_write_of_ne t _ _ hopen.ne_bdcr.symm
        (by rintro ⟨u, h⟩; cases h), p.peek_tick_of_ne hopen.ne_bdcr.symm]
      exact hp.noReset
    exact .modify trivial trivial ⟨⟨hreset, fun h => absurd h hopen.ne_bdcr⟩,
      Part.steady_write ht hopen _ _⟩
  · refine .bind (R := fun w q => w = p.peek .bdcr ∧ q.Unlocked) ?_ ?_
    · exact .read trivial ⟨rfl, (Confined.tick .none p .bdcr).unlocked rfl (hp.unlocked rfl)⟩
    · rintro _ q ⟨rfl, hq⟩
      refine (writeBdcr_ensures ht hq (hg rfl _ hp.noReset)).imp ?_
      exact fun _ u hu => ⟨⟨hu.1.2, fun _ => hu.1.1⟩, hu.2⟩

namespace Demand

/-- A wait for the flag, with the control bits as demanded. -/
theorem wait_ensures {accept : Word → Bool} {flag : ReadyFlag} {budget : Nat}
    (haccept : ∀ w, accept w = true → w.has d.status = d.running) (hp : p.Takes d.register)
    (hbits : p.peek d.register &&& d.mask = d.bits) :
    Ensures (simulated t) patience (fun _ => True)
      (Setup.waitUntil d.register accept flag budget).run p
      (fun result q => q.Takes d.register ∧ (result = .ok () → d.Met q)) := by
  refine .waitUntil (I := fun v => v.Takes d.register ∧ v.peek d.register &&& d.mask = d.bits)
    ⟨hp, hbits⟩ ?_ ?_ ?_
  · rintro v ⟨hv, hbits⟩
    have htick : Confined .none v (v.tick d.register) := .tick .none v _
    exact ⟨trivial, hv.of_none htick,
      bits_of_confined htick (d.covers rfl hv.noReset) BitVec.zero_and hbits⟩
  · rintro v ⟨hv, hbits⟩ hread
    have htick : Confined .none v (v.tick d.register) := .tick .none v _
    have hmet : d.Met v := ⟨hbits, haccept _ hread⟩
    exact ⟨hv.of_none htick,
      fun _ => hmet.of_confined htick (d.covers rfl hv.noReset) BitVec.zero_and⟩
  · exact fun v hv => ⟨hv.1, fun h => by cases h⟩

include ht in
/-- To write the control bits and to wait for the flag meets the demand. -/
theorem modifyThenWait_ensures {g : Word → Word} {accept : Word → Bool} {flag : ReadyFlag}
    {budget : Nat} (hg : d.register = .bdcr → ∀ w, w.getLsbD 16 = false → (g w).getLsbD 16 = false)
    (hbits : g (p.peek d.register) &&& d.mask = d.bits)
    (haccept : ∀ w, accept w = true → w.has d.status = d.running) (hp : p.Takes d.register) :
    Ensures (simulated t) patience (fun _ => True)
      (do
        Driver.modify d.register g
        Setup.waitUntil d.register accept flag budget : Setup Unit).run p
      (fun result q => q.Takes d.register ∧ (result = .ok () → d.Met q)) := by
  refine .setupBind (R := fun result q => result = .ok () ∧ q.Takes d.register ∧
    q.peek d.register &&& d.mask = d.bits) ?_ ?_ (fun _ _ hq => by cases hq.1)
  · refine .lift ((modify_ensures ht d.flag.open_or_bdcr hg hp).imp ?_)
    rintro _ q ⟨hq, hagree⟩
    exact ⟨rfl, hq, (hagree.and_eq d.plain).trans hbits⟩
  · rintro _ q ⟨-, hq, hbits⟩
    exact wait_ensures haccept hq hbits

include ht in
/-- An oscillator with a single control bit is switched on or off. -/
theorem switch_ensures (d : Demand) (hon : d.running = true → d.bits = d.mask)
    (hopen : d.register ≠ .bdcr) (hp : p.NoDomainReset) {flag : ReadyFlag} {budget : Nat} :
    Ensures (simulated t) patience (fun _ => True)
      (if d.running then do
          Driver.setBits d.register d.mask
          Setup.waitSet d.register d.status flag budget
        else do
          Driver.clearBits d.register d.mask
          Setup.waitClear d.register d.status flag budget : Setup Unit).run p
      (fun result q => result = .ok () → d.Met q) := by
  have htakes : p.Takes d.register := ⟨hp, fun h => absurd h hopen⟩
  split
  · next hrunning =>
    refine (modifyThenWait_ensures ht (fun h => absurd h hopen) ?_ ?_ htakes).imp fun _ _ h => h.2
    · rw [hon hrunning]
      exact Word.or_and_of_subset _ BitVec.and_self
    · exact fun w hw => hw.trans hrunning.symm
  · next hstopped =>
    have hstopped : d.running = false := Bool.eq_false_iff.mpr hstopped
    refine (modifyThenWait_ensures ht (fun h => absurd h hopen) ?_ ?_ htakes).imp fun _ _ h => h.2
    · rw [d.stopped hstopped]
      exact Word.andNot_and_of_subset _ BitVec.and_self
    · exact fun w hw => (Bool.not_eq_eq_eq_not.mp hw).trans hstopped.symm

/-- The same oscillator, switched off. -/
def off (d : Demand) : Demand where
  toControls := d.toControls
  bits := 0
  running := false
  within := BitVec.zero_and
  asks := BitVec.zero_and
  stopped _ := rfl
  noReset _ := rfl

include ht in
/-- To stop an oscillator and to wait for its flag to go. -/
theorem stop_ensures (d : Demand) (hp : p.Takes d.register) {flag : ReadyFlag} {budget : Nat} :
    Ensures (simulated t) patience (fun _ => True)
      (do
        Driver.clearBits d.register d.mask
        Setup.waitClear d.register d.status flag budget : Setup Unit).run p
      (fun result q => q.Takes d.register ∧ (result = .ok () → d.off.Met q)) := by
  refine modifyThenWait_ensures ht (d := d.off) (fun _ w hw => ?_) ?_ ?_ hp
  · rw [BitVec.getLsbD_and, hw, Bool.false_and]
  · exact Word.andNot_and_of_subset _ BitVec.and_self
  · exact fun w hw => Bool.not_eq_eq_eq_not.mp hw

include ht in
/-- An oscillator is stopped, and then started if it is to run. -/
theorem restart_ensures (d : Demand) (hp : p.Takes d.register) {flag : ReadyFlag} {budget : Nat} :
    Ensures (simulated t) patience (fun _ => True)
      (do
        Driver.clearBits d.register d.mask
        Setup.waitClear d.register d.status flag budget
        if d.running then
          Driver.setBits d.register d.bits
          Setup.waitSet d.register d.status flag budget : Setup Unit).run p
      (fun result q => result = .ok () → d.Met q) := by
  rw [← bind_assoc]
  refine .setupBind (stop_ensures ht d hp) ?_ (fun _ _ _ h => by cases h)
  rintro _ q ⟨hq, hoff⟩
  obtain ⟨hclear, hstopped⟩ := hoff rfl
  split
  · next hrunning =>
    refine (modifyThenWait_ensures ht (fun h w hw => ?_) ?_ ?_ hq).imp fun _ _ h => h.2
    · rw [BitVec.getLsbD_or, hw, d.noReset h, Bool.false_or]
    · rw [BitVec.and_or_distrib_right, d.within]
      exact Eq.trans (congrArg (· ||| d.bits) hclear) BitVec.zero_or
    · exact fun w hw => hw.trans hrunning.symm
  · next hidle =>
    have hidle : d.running = false := Bool.eq_false_iff.mpr hidle
    exact .setupPure fun _ => ⟨hclear.trans (d.stopped hidle).symm, hstopped.trans hidle.symm⟩

end Demand

end Steps

/-! ## The drivers -/

namespace Hardware

variable {t : Temper} (ht : t.Unlatched) {patience : Nat} {p : Part}

/-- An oscillator that is not in use is operated. -/
theorem idle_ensures {source : SysclkSource} {input : PllSource}
    (h : ¬Cfgr.Drives source input (p.peek .cfgr)) (hp : p.NoDomainReset) {x y : Setup Unit}
    {Q : SetupResult → Part → Prop}
    (hy : ∀ q, q.NoDomainReset → Ensures (simulated t) patience (fun _ => True) y.run q Q) :
    Ensures (simulated t) patience (fun _ => True)
      (do if ← drivesSysclk source input then x else y : Setup Unit).run p Q := by
  refine .setupBind (R := fun drives q => Confined .none p q ∧ drives = .ok false) (.lift ?_) ?_
    (fun _ _ hq => by cases hq.2)
  · refine (drivesSysclk_ensures p source input).unguarded.imp ?_
    rintro _ q ⟨hq, rfl⟩
    exact ⟨hq, by rw [decide_eq_false h]⟩
  · rintro _ q ⟨hq, ⟨⟩⟩
    rw [if_neg Bool.false_ne_true]
    exact hy q (hq.noDomainReset rfl hp)

include ht in
theorem configureHse_meets (mode : OscillatorMode) (hp : p.NoDomainReset)
    (hidle : ¬Cfgr.Drives .hse .hse (p.peek .cfgr)) :
    Ensures (simulated t) patience (fun _ => True) (configureHse mode).run p
      (fun result q => result = .ok () → (Demand.hse mode).Met q) :=
  idle_ensures hidle hp fun _ hq => Demand.restart_ensures ht (.hse mode) ⟨hq, fun h => by cases h⟩

include ht in
theorem configureHsi_meets (mode : OscillatorMode) (hp : p.NoDomainReset)
    (hidle : ¬Cfgr.Drives .hsi .hsiDiv2 (p.peek .cfgr)) :
    Ensures (simulated t) patience (fun _ => True) (configureHsi mode).run p
      (fun result q => result = .ok () → (Demand.hsi mode).Met q) :=
  idle_ensures hidle hp fun _ hq =>
    Demand.switch_ensures ht (.hsi mode) (fun h => if_pos h) (fun h => by cases h) hq

include ht in
theorem configureLsi_meets (mode : OscillatorMode) (hp : p.NoDomainReset) :
    Ensures (simulated t) patience (fun _ => True) (configureLsi mode).run p
      (fun result q => result = .ok () → (Demand.lsi mode).Met q) :=
  Demand.switch_ensures ht (.lsi mode) (fun h => if_pos h) (fun h => by cases h) hp

include ht in
/-- The watch crystal, whether or not it is left running in its mode. -/
theorem configureLse_meets (mode : OscillatorMode) (hp : p.NoDomainReset) :
    Ensures (simulated t) patience (fun _ => True) (configureLse mode).run p
      (fun result q => result = .ok () → (Demand.lse mode).Met q) := by
  have haccess : Ensures (simulated t) patience (fun _ => True) BackupDomain.access.run p
      (fun result q => result = .ok () → q.Takes .bdcr) := by
    refine ((access_ensures ht p).and (access_confines ht patience p)).unguarded.imp ?_
    exact fun _ q hq hok => ⟨hq.2.noDomainReset (by decide) hp, fun _ => hq.1 hok⟩
  unfold configureLse
  refine .setupBind haccess ?_ (fun _ _ _ h => by cases h)
  intro _ q hq
  refine .setupBind (R := fun word u => word = .ok (q.peek .bdcr) ∧ Confined .none q u) ?_ ?_
    (fun _ _ hu => by cases hu.1)
  · exact .lift (.read trivial ⟨rfl, .tick .none q .bdcr⟩)
  rintro _ u ⟨⟨⟩, hu⟩
  have htakes : u.Takes .bdcr := (hq rfl).of_none hu
  split
  · next hmode =>
    have hkept : u.peek .bdcr &&& Bdcr.lseMode = lseBits mode :=
      Demand.bits_of_confined (d := .lse mode) hu (Demand.covers _ rfl (hq rfl).noReset)
        BitVec.zero_and hmode
    unfold awaitLse
    split
    · next hrunning =>
      refine (Demand.wait_ensures (d := .lse mode) ?_ htakes hkept).imp fun _ _ h => h.2
      exact fun w hw => hw.trans hrunning.symm
    · next hstopped =>
      refine (Demand.wait_ensures (d := .lse mode) ?_ htakes hkept).imp fun _ _ h => h.2
      exact fun w hw => (Bool.not_eq_eq_eq_not.mp hw).trans (Bool.eq_false_iff.mpr hstopped).symm
  · exact Demand.restart_ensures ht (.lse mode) htakes

include ht in
/-- A PLL that is not in use runs if a setting is wanted. -/
theorem configurePll_meets (wanted : Option PllSetting) (divider : HseDivider)
    (hp : p.NoDomainReset) (hidle : Cfgr.running (p.peek .cfgr) ≠ .pll) :
    Ensures (simulated t) patience (fun _ => True) (configurePll wanted divider).run p
      (fun result q => result = .ok () → (Demand.pll wanted.isSome).Met q) := by
  have htakes : ∀ {q : Part}, q.NoDomainReset → q.Takes .cr := fun hq =>
    ⟨hq, fun h => by cases h⟩
  unfold configurePll
  refine .setupBind (requireMultiplier_ensures p) ?_ (fun _ _ _ h => by cases h)
  rintro _ q ⟨rfl, -⟩
  refine .setupBind (R := fun status u => status = .ok (Cfgr.running (q.peek .cfgr)) ∧
    Confined .none q u) ?_ ?_ (fun _ _ hu => by cases hu.1)
  · exact .lift (sysclkStatus_ensures (fun _ _ => trivial) fun u hu => ⟨rfl, hu⟩)
  rintro _ u ⟨⟨⟩, hu⟩
  rw [if_neg hidle, restartPll_eq]
  unfold stopPll
  refine .setupBind (Demand.stop_ensures ht (.pll wanted.isSome)
    (htakes (hu.noDomainReset rfl hp))) ?_ (fun _ _ _ h => by cases h)
  rintro _ v ⟨hv, hoff⟩
  unfold startPll
  cases wanted with
  | none => exact .setupPure fun _ => ⟨(hoff rfl).bits, (hoff rfl).ready⟩
  | some setting =>
      refine .setupBind (R := fun result v' => result = .ok () ∧ v'.NoDomainReset) ?_ ?_
        (fun _ _ hv => by cases hv.1)
      · exact .lift ((modify_ensures ht (.inl Register.cfgr_open) (fun h => by cases h)
          ⟨hv.noReset, fun h => by cases h⟩).imp fun _ _ hv => ⟨rfl, hv.1.noReset⟩)
      · rintro _ v' ⟨-, hv'⟩
        refine (Demand.modifyThenWait_ensures ht (d := .pll true) (fun h => by cases h) ?_
          (fun _ hw => hw) (htakes hv')).imp fun _ _ h => h.2
        exact Word.or_and_of_subset _ BitVec.and_self

end Hardware

end BringUp
