import BringUp.Proofs.BackupLock
import BringUp.Proofs.OscillatorDemands
import BringUp.Proofs.ResetState
import BringUp.Proofs.Success

/-!
The oscillators of a cooperative part, in use or not, and after a reset.

* `Fresh p`: the system clock runs from the internal oscillator, which is
  switched on, and no source is selected for the real-time clock.
* `PllRunning p`: the PLL is switched on and ready.

Main statements: each driver succeeds if it has nothing to do to a clock in use
(`configureHse_succeeds`, `configureHsi_succeeds`, `configurePll_succeeds`, …).
On a fresh part they leave it fresh, but for a request to stop the internal
oscillator, which is an error (`configureHsi_refuses`); and so does the driver
of them all (`configureOscillators_succeeds`), or it ends with that error
(`configureOscillators_refuses`).

A driver relies on the flags that it waits for and on no others, so each
statement names the flags that have to be watched.
-/

namespace BringUp

open Clock Hardware

/-- The part as a reset leaves it, as far as the clock steps rely on it. -/
structure Fresh (p : Part) : Prop where
  source : OnSource .hsi p
  hsiOn : p.peek .cr &&& Cr.hsiOn = Cr.hsiOn
  backup : p.NoDomainReset
  rtc : Bdcr.rtcSource.get (p.peek .bdcr) = 0

/-- The PLL is switched on and ready. -/
structure PllRunning (p : Part) : Prop where
  on : p.peek .cr &&& Cr.pllOn = Cr.pllOn
  ready : (p.peek .cr).has Cr.pllReady = true

/-- A running PLL that nothing is done to keeps running. -/
theorem PllRunning.of_confined {m : Footprint} {p q : Part} (h : Confined m p q)
    (hm : m .cr = 0) (hp : PllRunning p) : PllRunning q := by
  have hcover : m.Covers p .cr :=
    Footprint.covers_of_ne Register.cr_open.notUsart Register.cr_open.ne_bdcr
  have hmet : (Demand.pll true).Met p := ⟨hp.on, hp.ready⟩
  have hkept : (Demand.pll true).Met q := hmet.of_confined h hcover (by
    show m .cr &&& _ = 0
    rw [hm]
    exact BitVec.zero_and)
  exact ⟨hkept.bits, hkept.ready⟩

namespace Hardware

variable {t : Temper} (ht : t.Cooperative) {patience : Nat} {p : Part}
  {watched : StatusFlag → Bool}

/-- Nothing but the internal oscillator drives the system clock. -/
theorem OnSource.drives_iff (hp : OnSource .hsi p) (source : SysclkSource) (input : PllSource) :
    Cfgr.Drives source input (p.peek .cfgr) ↔ source = .hsi := by
  unfold Cfgr.Drives
  rw [hp.1]
  constructor
  · rintro (h | ⟨h, -⟩)
    · exact h.symm
    · cases h
  · exact fun h => .inl h.symm

/-- The driver tells whether an oscillator feeds the system clock. -/
theorem drivesSysclk_succeeds (ht : t.Cooperative) (source : SysclkSource) (input : PllSource) :
    Succeeds t patience (liftM (drivesSysclk source input) : Setup Bool) p
      (fun drives q => Confined .none p q ∧
        drives = decide (Cfgr.Drives source input (p.peek .cfgr))) watched :=
  .lift ht (drivesSysclk_ensures p source input).unguarded

include ht in
theorem configureHse_succeeds (hwatched : StatusFlag.hse.budgetIn watched = some Budget.hse)
    {mode : OscillatorMode}
    (hinUse : Cfgr.Drives .hse .hse (p.peek .cfgr) → mode.running = true) :
    Succeeds t patience (configureHse mode) p (fun _ _ => True) watched := by
  unfold configureHse
  refine .bind (drivesSysclk_succeeds ht .hse .hse) ?_
  rintro _ q ⟨-, rfl⟩
  by_cases hdrives : Cfgr.Drives .hse .hse (p.peek .cfgr)
  · rw [decide_eq_true hdrives, if_pos rfl, if_pos (hinUse hdrives)]
    exact .pure trivial
  rw [decide_eq_false hdrives, if_neg Bool.false_ne_true, ← bind_assoc]
  refine .bind (Succeeds.switchOff ht hwatched Register.cr_open rfl) fun _ q _ => ?_
  cases mode with
  | off => exact .pure trivial
  | on | bypass =>
      exact (Succeeds.switchOn ht hwatched Register.cr_open rfl).imp fun _ _ _ => trivial

include ht in
/-- In use, the internal oscillator has to be on already. -/
theorem configureHsi_succeeds (hwatched : StatusFlag.hsi.budgetIn watched = some Budget.hsi)
    {mode : OscillatorMode} (hinUse : Cfgr.Drives .hsi .hsiDiv2 (p.peek .cfgr) →
      mode.running = true ∧ p.peek .cr &&& Cr.hsiOn = Cr.hsiOn) :
    Succeeds t patience (configureHsi mode) p (fun _ _ => True) watched := by
  unfold configureHsi
  refine .bind (drivesSysclk_succeeds ht .hsi .hsiDiv2) ?_
  rintro _ q ⟨hq, rfl⟩
  by_cases hdrives : Cfgr.Drives .hsi .hsiDiv2 (p.peek .cfgr)
  · obtain ⟨hrunning, hon⟩ := hinUse hdrives
    rw [decide_eq_true hdrives, if_pos rfl, if_pos hrunning]
    have hon : q.peek .cr &&& Cr.hsiOn = Cr.hsiOn :=
      (hq.control_eq (f := .hsi) Register.cr_open).trans hon
    exact (Succeeds.waitSet ht hwatched hon).imp fun _ _ _ => trivial
  rw [decide_eq_false hdrives, if_neg Bool.false_ne_true]
  split
  · exact (Succeeds.switchOn ht hwatched Register.cr_open rfl).imp fun _ _ _ => trivial
  · exact (Succeeds.switchOff ht hwatched Register.cr_open rfl).imp fun _ _ _ => trivial

/-- The internal oscillator is not stopped while it drives the system clock. -/
theorem configureHsi_refuses {t : Temper} (hinUse : Cfgr.Drives .hsi .hsiDiv2 (p.peek .cfgr))
    {mode : OscillatorMode} (hmode : mode.running = false) :
    Ensures (simulated t) patience (fun _ => True) (configureHsi mode).run p
      (fun result _ => result = .error (.oscillatorInUse .hsi)) := by
  unfold configureHsi
  refine .setupBind (R := fun drives _ => drives = .ok true) (.lift ?_) ?_ (fun _ _ h => by cases h)
  · refine (drivesSysclk_ensures p .hsi .hsiDiv2).unguarded.imp ?_
    rintro _ _ ⟨-, rfl⟩
    rw [decide_eq_true hinUse]
  · rintro _ q ⟨⟩
    rw [if_pos rfl, if_neg (by rw [hmode]; decide)]
    exact .throw rfl

include ht in
theorem configureLsi_succeeds (hwatched : StatusFlag.lsi.budgetIn watched = some Budget.lsi)
    (mode : OscillatorMode) :
    Succeeds t patience (configureLsi mode) p (fun _ _ => True) watched := by
  unfold configureLsi
  split
  · exact (Succeeds.switchOn ht hwatched Register.csr_open rfl).imp fun _ _ _ => trivial
  · exact (Succeeds.switchOff ht hwatched Register.csr_open rfl).imp fun _ _ _ => trivial

/-! ## The watch crystal -/

include ht in
/-- Opening the backup domain succeeds. -/
theorem access_succeeds (hp : p.NoDomainReset) :
    Succeeds t patience BackupDomain.access p (fun _ q => BackupReady q) watched := by
  have hunlocked := Part.unlocked_unlocking ht.unlatched p
  have hok : Ensures (simulated t) patience (fun _ => True) BackupDomain.access.run p
      (fun result q => result = .ok () ∧ q.Unlocked) :=
    ⟨fun _ _ => trivial, _, _, _, access_run p, (unlockResult_eq_ok _).mpr hunlocked, hunlocked⟩
  refine .of_ensures ht ((hok.and (access_confines ht.unlatched patience p)).imp ?_)
  rintro _ q ⟨⟨rfl, hopen⟩, hpq⟩
  exact ⟨(), rfl, hopen, hpq.noDomainReset (by decide) hp⟩

include ht in
/-- A read-modify-write of an open backup domain that keeps it out of reset. -/
theorem modifyBdcr_succeeds (hp : BackupReady p) {g : Word → Word}
    (hg : ∀ w, w.getLsbD 16 = false → (g w).getLsbD 16 = false) :
    Succeeds t patience (liftM (Driver.modify .bdcr g) : Setup Unit) p
      (fun _ q => BackupReady q ∧
        Word.AgreeOn (~~~StatusFlag.statusOf .bdcr) (q.peek .bdcr) (g (p.peek .bdcr))) watched := by
  have htakes : p.Takes .bdcr := ⟨hp.2, fun _ => hp.1⟩
  refine .lift ht ((modify_ensures ht.unlatched (.inr rfl) (fun _ => hg) htakes).imp ?_)
  rintro _ q ⟨hq, hagree⟩
  exact ⟨⟨hq.unlocked rfl, hq.noReset⟩, hagree⟩

theorem BackupReady.of_none {q : Part} (h : Confined .none p q) (hp : BackupReady p) :
    BackupReady q :=
  ⟨h.unlocked rfl hp.1, h.noDomainReset rfl hp.2⟩

/-- The crystal's mode bits say whether it runs. -/
theorem lseBits_and_control (mode : OscillatorMode) :
    lseBits mode &&& StatusFlag.lse.control =
      if mode.running then StatusFlag.lse.control else 0 :=
  (Demand.lse mode).asks

/-- In a mode, the crystal's switch is as the mode asks. -/
theorem lseControl_eq {mode : OscillatorMode} (hp : p.peek .bdcr &&& Bdcr.lseMode = lseBits mode) :
    p.peek .bdcr &&& StatusFlag.lse.control =
      if mode.running then StatusFlag.lse.control else 0 := by
  have hsub : Bdcr.lseMode &&& StatusFlag.lse.control = StatusFlag.lse.control := rfl
  rw [← lseBits_and_control, ← hp, BitVec.and_assoc, hsub]

variable (hlse : StatusFlag.lse.budgetIn watched = some Budget.lse)

include ht hlse in
/-- A wait for the crystal succeeds in the mode that it is in. -/
theorem awaitLse_succeeds {mode : OscillatorMode}
    (hp : p.peek .bdcr &&& StatusFlag.lse.control =
      if mode.running then StatusFlag.lse.control else 0) :
    Succeeds t patience (awaitLse mode) p (fun _ q => Confined .none p q) watched := by
  unfold awaitLse
  split
  · next hrunning =>
    rw [if_pos hrunning] at hp
    exact (Succeeds.waitSet ht hlse hp).imp fun _ _ hq => hq.1
  · next hstopped =>
    rw [if_neg hstopped] at hp
    exact Succeeds.waitClear ht hlse hp

include ht hlse in
theorem configureLse_succeeds (hp : p.NoDomainReset) (mode : OscillatorMode) :
    Succeeds t patience (configureLse mode) p (fun _ _ => True) watched := by
  unfold configureLse
  refine .bind (access_succeeds ht hp) fun _ q hq => ?_
  refine .bind (R := fun w u => BackupReady u ∧
    Word.AgreeOn StatusFlag.lse.control (u.peek .bdcr) w) ?_ ?_
  · have htick := Confined.tick .none q .bdcr
    refine .lift ht (.read trivial ⟨hq.of_none htick, ?_⟩)
    exact (q.passed_tick StatusFlag.lse.register_notUsart).steady.mono
      StatusFlag.lse.control_disjoint
  intro w u hu
  obtain ⟨hready, hcontrol⟩ := hu
  split
  · next hmode =>
    refine (awaitLse_succeeds ht hlse ?_).imp fun _ _ _ => trivial
    have hsub : Bdcr.lseMode &&& StatusFlag.lse.control = StatusFlag.lse.control := rfl
    rw [Eq.trans hcontrol rfl, ← hsub, ← BitVec.and_assoc, hmode, hsub, lseBits_and_control]
  · refine .bind (modifyBdcr_succeeds ht hready (g := (· &&& ~~~Bdcr.lseMode)) ?_) ?_
    · intro v hv
      rw [BitVec.getLsbD_and, hv, Bool.false_and]
    rintro _ v ⟨hready, hagree⟩
    have hoff : v.peek .bdcr &&& StatusFlag.lse.control = 0 := by
      rw [hagree.and_eq (by decide), Word.andNot_and_of_subset _ (by decide)]
    refine .bind (.waitClear ht hlse hoff) fun _ v' hv' => ?_
    have hready := hready.of_none hv'
    split
    · next hrunning =>
      refine .bind (modifyBdcr_succeeds ht hready (g := (· ||| lseBits mode)) ?_) ?_
      · intro v hv
        rw [BitVec.getLsbD_or, hv, Bool.false_or]
        cases mode <;> rfl
      rintro _ v'' ⟨-, hagree⟩
      have hon : v''.peek .bdcr &&& StatusFlag.lse.control = StatusFlag.lse.control := by
        rw [hagree.and_eq (by decide)]
        refine Word.or_and_of_subset _ ?_
        rw [BitVec.and_comm, lseBits_and_control, if_pos hrunning]
      exact (Succeeds.waitSet ht hlse hon).imp fun _ _ _ => trivial
    · exact .pure trivial

/-! ## The PLL -/

include ht in
/-- In use, the PLL is compared with the setting. -/
theorem keepPll_succeeds {s : PllSetting} {divider : HseDivider}
    (hsetting : p.pllSetting = s.code divider) :
    Succeeds t patience (keepPll (some s) divider) p (fun _ _ => True) watched := by
  refine .bind (R := fun w _ => w = p.peek .cfgr) (.lift ht (.read trivial rfl)) ?_
  rintro _ q rfl
  split
  · exact .pure trivial
  · next hother => exact absurd hsetting hother

include ht in
/-- A PLL with a multiplier in range is set and started, or it is in use with
that setting. -/
theorem configurePll_succeeds (hwatched : StatusFlag.pll.budgetIn watched = some Budget.pll)
    {wanted : Option PllSetting} (hrange : ∀ s, wanted = some s → s.inRange = true)
    {divider : HseDivider} (hinUse : Cfgr.running (p.peek .cfgr) = .pll →
      ∃ s, wanted = some s ∧ p.pllSetting = s.code divider) :
    Succeeds t patience (configurePll wanted divider) p (fun _ _ => True) watched := by
  have hrequire : requireMultiplier wanted = pure () := by
    unfold requireMultiplier
    split
    · next s => rw [if_pos (hrange s rfl)]
    · rfl
  unfold configurePll
  rw [hrequire, pure_bind]
  refine .bind (R := fun status q => status = Cfgr.running (p.peek .cfgr) ∧ Confined .none p q)
    (.lift ht (sysclkStatus_ensures (fun _ _ => trivial) (fun _ hq => ⟨rfl, hq⟩))) ?_
  rintro _ q ⟨rfl, hq⟩
  split
  · next hpll =>
    obtain ⟨s, rfl, hsetting⟩ := hinUse hpll
    exact keepPll_succeeds ht ((hq.pllSetting_eq (by decide)).trans hsetting)
  · rw [restartPll_eq]
    refine .bind (Succeeds.switchOff ht hwatched Register.cr_open rfl) fun _ u _ => ?_
    unfold startPll
    split
    · exact .pure trivial
    · refine .bind (.modify ht Register.cfgr_open _) fun _ v _ => ?_
      exact (Succeeds.switchOn ht hwatched Register.cr_open rfl).imp fun _ _ _ => trivial

include ht in
/-- While the internal oscillator is in use, the PLL is started, and then
runs. -/
theorem configurePll_starts (hp : Fresh p) {wanted : Option PllSetting}
    (hrange : ∀ s, wanted = some s → s.inRange = true) (divider : HseDivider) :
    Succeeds t patience (configurePll wanted divider) p
      (fun _ q => wanted.isSome = true → PllRunning q) := by
  have hidle : Cfgr.running (p.peek .cfgr) ≠ .pll := by
    rw [hp.source.1]
    decide
  have hmeets : Ensures (simulated t) patience (fun _ => True) (configurePll wanted divider).run p
      _ := configurePll_meets ht.unlatched wanted divider hp.backup hidle
  refine ((configurePll_succeeds ht rfl hrange fun h => absurd h hidle).and hmeets).imp ?_
  rintro _ q ⟨-, hmet⟩ hsome
  rw [hsome] at hmet
  exact ⟨(hmet rfl).bits, (hmet rfl).ready⟩

end Hardware

/-! ## One after the other -/

/-- The footprint spares what a fresh part relies on. -/
structure Footprint.SparesFresh (m : Footprint) : Prop where
  source : m .cfgr &&& (Cfgr.sw.mask ||| Cfgr.sws.mask) = 0
  hsiOn : (m .cr ||| StatusFlag.statusOf .cr) &&& Cr.hsiOn = 0
  backup : (m .bdcr).getLsbD 16 = false
  rtc : Bdcr.rtcSource.mask &&& ~~~(m .bdcr ||| StatusFlag.statusOf .bdcr) = Bdcr.rtcSource.mask

namespace Fresh

variable {m : Footprint} {p q : Part}

theorem of_confined (h : Confined m p q) (hm : m.SparesFresh) (hp : Fresh p) : Fresh q where
  source := hp.source.of_confined h hm.source
  hsiOn := Eq.trans (h.agreeOn_open Register.cr_open hm.hsiOn) hp.hsiOn
  backup := h.noDomainReset hm.backup hp.backup
  rtc := ((h.steady .bdcr (Footprint.covers_bdcr hm.backup hp.backup)).get hm.rtc).trans hp.rtc

variable {t : Temper} {patience : Nat} {G : Event Part → Prop}

/-- A stage that succeeds and keeps to such a footprint leaves the part fresh. -/
theorem stage {α : Type} {x : Setup α} {Q : α → Part → Prop} (hp : Fresh p) (hm : m.SparesFresh)
    (hframe : Ensures (simulated t) patience G x.run p (fun _ q => Confined m p q))
    (hx : Succeeds t patience x p Q) :
    Succeeds t patience x p (fun a q => Fresh q ∧ Q a q) :=
  (hx.and hframe).imp fun _ _ hq => ⟨hp.of_confined hq.2 hm, hq.1⟩

/-- The same for a stage that is left out if it is not named. -/
theorem optionalStage {x : Setup Unit} {named : Bool} (hp : Fresh p) (hm : m.SparesFresh)
    (hframe : Ensures (simulated t) patience G x.run p (fun _ q => Confined m p q))
    (hx : named = true → Succeeds t patience x p (fun _ _ => True)) :
    Succeeds t patience (optionally named x) p (fun _ q => Fresh q) :=
  .optionally (fun hnamed => (hp.stage hm hframe (hx hnamed)).imp fun _ _ hq => hq.1) fun _ => hp

end Fresh

namespace Hardware

variable {t : Temper} (ht : t.Cooperative) {patience : Nat} {p : Part} {plan : OscillatorPlan}

include ht in
/-- The external oscillator is operated if it is named. -/
theorem optionalHse_succeeds (hp : Fresh p) :
    Succeeds t patience (optionally (plan.named.names .hse) (configureHse plan.hse)) p
      (fun _ q => Fresh q) := by
  have hm : Footprint.hse.SparesFresh := by constructor <;> decide
  exact hp.optionalStage hm (configureHse_confines ht.unlatched patience plan.hse p)
    fun _ => configureHse_succeeds ht rfl fun h => by cases (OnSource.drives_iff hp.source ..).mp h

include ht in
/-- On a fresh part, all oscillators and the PLL are operated as planned, as
long as the plan does not stop the internal oscillator. -/
theorem configureOscillators_succeeds (hp : Fresh p) (hruns : plan.runs .hsi = true)
    (hrange : ∀ s, plan.pll = some s → s.inRange = true) :
    Succeeds t patience (configureOscillators plan) p
      (fun _ q => Fresh q ∧ (plan.pll.isSome = true → PllRunning q)) := by
  have hnone : Footprint.none.SparesFresh := by constructor <;> decide
  have hlsi : Footprint.lsi.SparesFresh := by constructor <;> decide
  have hlse : Footprint.lse.SparesFresh := by constructor <;> decide
  have hpll : Footprint.pll.SparesFresh := by constructor <;> decide
  rw [configureOscillators_eq]
  refine .bind (R := fun _ q => Fresh q) ?_ fun _ q hq => ?_
  · refine .bind (optionalHse_succeeds ht hp) fun _ q1 h1 => ?_
    refine .bind (R := fun _ q => Fresh q) ?_ fun _ q2 h2 => ?_
    · have hframe : Ensures (simulated t) patience _ (configureHsi plan.hsi).run q1 _ :=
        configureHsi_keeps (.inl h1.source.1) plan.hsi
      refine h1.optionalStage hnone hframe fun hnamed => configureHsi_succeeds ht rfl fun _ => ?_
      exact ⟨by simpa [OscillatorPlan.runs, hnamed] using hruns, h1.hsiOn⟩
    refine .bind (R := fun _ q => Fresh q) ?_ fun _ q3 h3 => ?_
    · exact h2.optionalStage hlsi (configureLsi_confines ht.unlatched patience plan.lsi q2)
        fun _ => configureLsi_succeeds ht rfl _
    · exact h3.optionalStage hlse (configureLse_confines ht.unlatched patience plan.lse q3)
        fun _ => configureLse_succeeds ht rfl h3.backup _
  · have hframe : Ensures (simulated t) patience _ (configurePll plan.pll plan.hseDivider).run q
        (fun _ u => Confined Footprint.pll q u) :=
      (configurePll_ensures ht.unlatched _ _ q).imp fun _ _ hu => hu.1.confined
    exact hq.stage hpll hframe (configurePll_starts ht hq hrange _)

include ht in
/-- A plan that stops the internal oscillator is refused there. -/
theorem configureOscillators_refuses (hp : Fresh p) (htracking : p.Tracking)
    (hstops : plan.runs .hsi = false) :
    Ensures (simulated t) patience (fun _ => True) (configureOscillators plan).run p
      (fun result _ => result = .error (.oscillatorInUse .hsi)) := by
  have hplan : plan.named.names .hsi = true ∧ plan.hsi.running = false := by
    simpa [OscillatorPlan.runs] using hstops
  rw [configureOscillators_eq]
  refine .setupFails ((optionalHse_succeeds ht hp).followedBy htracking fun _ q _ hfresh => ?_)
  rw [hplan.1]
  exact .setupFails (configureHsi_refuses ((OnSource.drives_iff hfresh.source ..).mpr rfl) hplan.2)

end Hardware

end BringUp
