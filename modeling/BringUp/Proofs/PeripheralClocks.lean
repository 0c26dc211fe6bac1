import BringUp.Proofs.Footprints
import BringUp.Proofs.OpenRegisters

/-!
The source of the real-time clock and the divider of the converter.

* `Part.Unlocked`: the backup domain takes writes.
* `Part.NoDomainReset`: the reset bit of the backup domain is clear. While it
  is set, a write may leave nothing of its word.

Main statement: after a success the named clocks are as planned, even if the
backup domain had to be reset on the way (`configurePeripheralClocks_ensures`).
-/

namespace BringUp

open Clock

/-- The backup domain takes writes. -/
def Part.Unlocked (p : Part) : Prop :=
  (p.peek .pwr).getLsbD 8 = true

/-- The reset bit of the backup domain is clear. -/
def Part.NoDomainReset (p : Part) : Prop :=
  (p.peek .bdcr).getLsbD 16 = false

instance (p : Part) : Decidable p.NoDomainReset :=
  inferInstanceAs (Decidable (_ = _))

theorem Word.has_writable (w : Word) :
    w.has Hardware.BackupDomain.writable = w.getLsbD 8 :=
  w.has_twoPow 8

/-- Out of reset, a footprint without the reset bit can be relied on. -/
theorem Footprint.covers_of_noDomainReset {m : Footprint} {p : Part}
    (hm : (m .bdcr).getLsbD 16 = false) (hp : p.NoDomainReset) {r : Register}
    (hr : ¬r.IsUsartStatus) : m.Covers p r := by
  refine ⟨hr, fun _ => ?_⟩
  rw [BitVec.getLsbD_or, hm, Bool.false_or]
  exact hp

theorem Footprint.covers_bdcr {m : Footprint} {p : Part} (hm : (m .bdcr).getLsbD 16 = false)
    (hp : p.NoDomainReset) : m.Covers p .bdcr := by
  refine covers_of_noDomainReset hm hp ?_
  rintro ⟨u, hu⟩
  cases hu

namespace Confined

variable {m : Footprint} {p q : Part}

theorem unlocked (h : Confined m p q) (hm : m .pwr = 0) (hp : p.Unlocked) : q.Unlocked := by
  have hcover : m.Covers p .pwr := by
    refine Footprint.covers_of_ne ?_ (by decide)
    rintro ⟨u, hu⟩
    cases hu
  have hsteady := h.steady .pwr hcover
  rw [hm] at hsteady
  unfold Part.Unlocked at hp ⊢
  rw [hsteady.getLsbD (by decide), hp]

theorem noDomainReset (h : Confined m p q) (hm : (m .bdcr).getLsbD 16 = false)
    (hp : p.NoDomainReset) : q.NoDomainReset := by
  have hafter := (h.covers (Footprint.covers_bdcr hm hp)).2 rfl
  rw [BitVec.getLsbD_or, hm, Bool.false_or] at hafter
  exact hafter

/-- Outside of a reset, the source of the real-time clock stays selected. -/
theorem get_rtcSource (h : Confined m p q) (hm : m .bdcr = 0) (hp : p.NoDomainReset) :
    Bdcr.rtcSource.get (q.peek .bdcr) = Bdcr.rtcSource.get (p.peek .bdcr) := by
  have hbit : (m .bdcr).getLsbD 16 = false := by
    rw [hm]
    rfl
  have hsteady := h.steady .bdcr (Footprint.covers_bdcr hbit hp)
  rw [hm] at hsteady
  exact hsteady.get (by decide)

end Confined

/-- No write to an unlocked domain is dropped. -/
theorem Part.Unlocked.takes {p : Part} (h : p.Unlocked) (t : Temper) :
    p.ignores t .bdcr = false := by
  have hbit : (p.peek .pwr).getLsbD 8 = true := h
  simp only [ignores, hbit, Bool.not_true, Bool.and_false]

/-- An unlocked backup domain holds what was written without the reset bit. -/
theorem Part.steady_write_bdcr {t : Temper} (ht : t.Unlatched) {p : Part} (hp : p.Unlocked)
    {v : Word} (hv : v.getLsbD 16 = false) :
    Word.AgreeOn (~~~StatusFlag.statusOf .bdcr) ((p.write t .bdcr v).peek .bdcr) v := by
  have hwrote := Part.wrote_write ht (v := v) (hp.takes t)
  have hvalue : resetBackup t .bdcr v = v := by
    unfold resetBackup
    rw [if_neg]
    rintro ⟨-, -, hreset⟩
    rw [hv] at hreset
    cases hreset
  rw [hvalue] at hwrote
  exact hwrote.steady

namespace Hardware

variable {t : Temper} (ht : t.Unlatched) {patience : Nat}

include ht in
/-- After a success the backup domain is unlocked. -/
theorem access_ensures (p : Part) :
    Ensures (simulated t) patience (fun _ => True) BackupDomain.access.run p
      (fun result q => result = .ok () → q.Unlocked) := by
  unfold BackupDomain.access BackupDomain.unlock
  refine .setupBind (R := fun _ _ => True) ?_ ?_ (fun _ _ _ h => by cases h)
  · have hclock : Confines t patience Footprint.access (enableClock Gate.pwr) :=
      enableClock_confines ht patience rfl (by decide)
    exact .lift ((hclock p).unguarded.imp (fun _ _ _ => trivial))
  intro _ q _
  have hwait : ∀ q, Ensures (simulated t) patience (fun _ => True)
      (Setup.waitSet .pwr BackupDomain.writable .backupDomainAccess Budget.backupDomain).run q
      (fun result u => result = .ok () → u.Unlocked) := by
    intro q
    refine .waitUntil (I := fun _ => True) trivial (fun _ _ => ⟨trivial, trivial⟩) ?_ ?_
    · intro u _ haccept _
      have hset : u.Unlocked := by
        rw [Word.has_writable] at haccept
        exact haccept
      exact (Confined.tick .none u .pwr).unlocked rfl hset
    · intro u _ h
      cases h
  refine .setupBind (R := fun unlocked u => unlocked = .ok true → u.Unlocked) ?_ ?_
    (fun _ _ _ h => by cases h)
  · refine .lift (.isSet trivial ?_)
    intro h
    have hset : q.Unlocked := by
      have hbit : (q.peek .pwr).has BackupDomain.writable = true := by
        injection h
      rw [Word.has_writable] at hbit
      exact hbit
    exact (Confined.tick .none q .pwr).unlocked rfl hset
  · intro unlocked u hu
    cases unlocked with
    | true => exact .setupPure fun _ => hu rfl
    | false =>
        refine .setupBind (R := fun _ _ => True) ?_ (fun _ v _ => hwait v)
          (fun _ _ _ h => by cases h)
        exact .lift (.modify trivial trivial trivial)

/-- The backup domain is unlocked, and its reset bit is clear. -/
def BackupReady (p : Part) : Prop :=
  p.Unlocked ∧ p.NoDomainReset

include ht in
/-- A write to an unlocked backup domain without the reset bit. -/
theorem writeBdcr_ensures {p : Part} (hp : p.Unlocked) {v : Word}
    (hv : v.getLsbD 16 = false) :
    Ensures (simulated t) patience (fun _ => True) (Driver.write .bdcr v) p
      (fun _ q => BackupReady q ∧
        Word.AgreeOn (~~~StatusFlag.statusOf .bdcr) (q.peek .bdcr) v) := by
  have hsteady := Part.steady_write_bdcr ht hp hv
  have honly : Confines t patience (.only .bdcr (BitVec.allOnes 32)) (Driver.write .bdcr v) :=
    .write ht v (by decide)
  refine .write trivial ⟨⟨?_, ?_⟩, hsteady⟩
  · obtain ⟨-, _, q, _, hrun, hq⟩ := honly p
    cases hrun
    exact hq.unlocked (by decide) hp
  · unfold Part.NoDomainReset
    exact (hsteady.getLsbD (by decide)).trans hv

/-- The reset of the backup domain up to the wait for its crystal. It results in
the word that was written back. -/
def restoreBackupDomain : Driver Word := do
  Driver.log .debug Log.Target.clocks
    "RTC clock source change, resetting backup domain"
  let bdcr ← Driver.read .bdcr
  Driver.setBits .bdcr Bdcr.domainReset
  Driver.clearBits .bdcr Bdcr.domainReset
  Driver.write .bdcr (bdcr &&& ~~~Bdcr.rtcSource.mask)
  return bdcr &&& ~~~Bdcr.rtcSource.mask

theorem resetBackupDomain_eq :
    resetBackupDomain = (do
      let saved ← (restoreBackupDomain : Driver Word)
      if saved.has Bdcr.lseOn then
        Setup.waitSet .bdcr Bdcr.lseReady .lse Budget.lse) :=
  rfl

include ht in
/-- Whatever the reset leaves of the domain, the old word is written back but
for the source. -/
theorem restoreBackupDomain_ensures {p : Part} (hp : BackupReady p) :
    Ensures (simulated t) patience (fun _ => True) restoreBackupDomain p
      (fun saved q => saved = p.peek .bdcr &&& ~~~Bdcr.rtcSource.mask ∧ BackupReady q ∧
        Word.AgreeOn (~~~StatusFlag.statusOf .bdcr) (q.peek .bdcr) saved) := by
  have hfree : ∀ {x : Driver Unit}, Confines t patience (.only .bdcr (BitVec.allOnes 32)) x →
      ∀ {q : Part}, q.Unlocked → Ensures (simulated t) patience (fun _ => True) x q
        (fun _ u => u.Unlocked) :=
    fun hx q hq => (hx q).unguarded.imp (fun _ _ hu => hu.unlocked (by decide) hq)
  obtain ⟨hunlocked, hclear⟩ := hp
  have hsaved : (p.peek .bdcr &&& ~~~Bdcr.rtcSource.mask).getLsbD 16 = false := by
    rw [BitVec.getLsbD_and, hclear, Bool.false_and]
  unfold restoreBackupDomain
  refine .bind (R := fun _ q => p = q) (.log rfl) ?_
  rintro _ _ rfl
  refine .bind (R := fun word q => word = p.peek .bdcr ∧ q.Unlocked)
    (.read trivial ⟨rfl, (Confined.tick .none p .bdcr).unlocked rfl hunlocked⟩) ?_
  rintro _ q1 ⟨rfl, h1⟩
  refine .bind (hfree (.setBits ht (by decide)) h1) fun _ q2 h2 => ?_
  refine .bind (hfree (.clearBits ht (by decide)) h2) fun _ q3 h3 => ?_
  exact .bind (writeBdcr_ensures ht h3 hsaved) fun _ q4 h4 => .pure ⟨rfl, h4⟩

include ht in
/-- The reset of the backup domain leaves it unlocked and out of reset. -/
theorem resetBackupDomain_ensures {p : Part} (hp : BackupReady p) :
    Ensures (simulated t) patience (fun _ => True) resetBackupDomain.run p
      (fun result q => result = .ok () → BackupReady q) := by
  rw [resetBackupDomain_eq]
  refine .setupBind (R := fun _ q => BackupReady q)
    (.lift ((restoreBackupDomain_ensures ht hp).imp fun _ _ h => h.2.1)) ?_
    (fun _ _ _ h => by cases h)
  intro _ q hq
  split
  · have hwait : Confines t patience .none
        (Setup.waitSet .bdcr Bdcr.lseReady .lse Budget.lse).run := .waitUntil _ _ _ _
    refine (hwait q).unguarded.imp ?_
    exact fun _ u hu _ => ⟨hu.unlocked rfl hq.1, hu.noDomainReset rfl hq.2⟩
  · exact .setupPure fun _ => hq

include ht in
/-- The write of the source leaves the rest of an unlocked domain alone. -/
theorem writeRtcSource_ensures (source : RtcSource) {p : Part} (hp : BackupReady p) :
    Ensures (simulated t) patience
      (fun e => ∀ v, e.access = .write .bdcr v → v.getLsbD 16 = false)
      (liftM (Driver.writeField .bdcr Bdcr.rtcSource source.code) : Setup Unit).run p
      (fun result q => result = .ok () ∧ Confined (.only .bdcr Bdcr.rtcSource.mask) p q ∧
        Bdcr.rtcSource.get (q.peek .bdcr) = source.code) := by
  obtain ⟨hunlocked, hclear⟩ := hp
  have hput : (Bdcr.rtcSource.put source.code (p.peek .bdcr)).getLsbD 16 = false := by
    have hkept : Word.AgreeOn (BitVec.twoPow 32 16)
        (Bdcr.rtcSource.put source.code (p.peek .bdcr)) (p.peek .bdcr) :=
      Word.agreeOn_put _ _ _ (by decide)
    exact (hkept.getLsbD (by decide)).trans hclear
  have hread : Confined .none p (p.tick .bdcr) := .tick .none p .bdcr
  have hwrite := hread.of_none.write ht (m := .only .bdcr Bdcr.rtcSource.mask) (r := .bdcr)
    (v := Bdcr.rtcSource.put source.code (p.peek .bdcr)) (Field.put_outside _ _ _)
  refine .lift (.modify nofun ?_ ⟨rfl, hwrite, ?_⟩)
  · rintro _ ⟨⟩
    exact hput
  · exact (Part.steady_write_bdcr ht (hread.unlocked rfl hunlocked) hput).get_put (by decide)
      source.code_fits

/-- The selection of a source in an open domain. -/
def replaceRtcSource (source : RtcSource) : Setup Unit := do
  let current ← Driver.readField .bdcr Bdcr.rtcSource
  if current ≠ 0 ∧ current ≠ source.code then resetBackupDomain
  Driver.writeField .bdcr Bdcr.rtcSource source.code

theorem selectRtcSource_eq (source : RtcSource) :
    selectRtcSource source = BackupDomain.access >>= fun _ => replaceRtcSource source :=
  rfl

include ht in
/-- After a success the source is the wanted one. -/
theorem selectRtcSource_ensures (source : RtcSource) {p : Part} (hp : p.NoDomainReset) :
    Ensures (simulated t) patience (fun _ => True) (selectRtcSource source).run p
      (fun result q => result = .ok () →
        q.NoDomainReset ∧ Bdcr.rtcSource.get (q.peek .bdcr) = source.code) := by
  have haccess := ((access_confines ht patience p).and (access_ensures ht p)).unguarded
  have hwrite : ∀ {q : Part}, BackupReady q → Ensures (simulated t) patience (fun _ => True)
      (liftM (Driver.writeField .bdcr Bdcr.rtcSource source.code) : Setup Unit).run q
      (fun result u => result = .ok () →
        u.NoDomainReset ∧ Bdcr.rtcSource.get (u.peek .bdcr) = source.code) := by
    intro q hq
    refine (writeRtcSource_ensures ht source hq).unguarded.imp ?_
    exact fun _ u hu _ => ⟨hu.2.1.noDomainReset (by decide) hq.2, hu.2.2⟩
  unfold selectRtcSource
  refine .setupBind haccess ?_ (fun _ _ _ h => by cases h)
  intro _ q hq
  obtain ⟨hq, hunlocked⟩ := hq
  refine .setupBind (R := fun _ u => BackupReady u) ?_ ?_ (fun _ _ _ h => by cases h)
  · have htick := Confined.tick .none q .bdcr
    refine .lift (.readField trivial ⟨htick.unlocked rfl (hunlocked rfl), ?_⟩)
    exact htick.noDomainReset rfl (hq.noDomainReset (by decide) hp)
  · intro current u hu
    dsimp only
    split
    · refine .setupBind (resetBackupDomain_ensures ht hu) ?_ (fun _ _ _ h => by cases h)
      exact fun _ v hv => hwrite (hv rfl)
    · exact hwrite hu

/-- What a plan's peripheral clocks come to. The source of the real-time clock
is only certain if the backup domain is not in reset to begin with. -/
structure PeripheralsSet (plan : PeripheralPlan) (p q : Part) : Prop where
  rtc : plan.named.names .rtc = true → p.NoDomainReset →
    Bdcr.rtcSource.get (q.peek .bdcr) = plan.rtc.code
  adc : Cfgr.adcpre.get (q.peek .cfgr) =
    if plan.named.names .adc then plan.adc.code else Cfgr.adcpre.get (p.peek .cfgr)

include ht in
theorem configurePeripheralClocks_rtc {plan : PeripheralPlan}
    (hnamed : plan.named.names .rtc = true) {p : Part} (hp : p.NoDomainReset) :
    Ensures (simulated t) patience (fun _ => True) (configurePeripheralClocks plan).run p
      (fun result q => result = .ok () →
        Bdcr.rtcSource.get (q.peek .bdcr) = plan.rtc.code) := by
  rw [configurePeripheralClocks_eq]
  refine .setupBind (.optionally (fun _ => selectRtcSource_ensures ht plan.rtc hp) ?_) ?_
    (fun _ _ _ h => by cases h)
  · intro hskip
    rw [hnamed] at hskip
    cases hskip
  · intro _ q hq
    obtain ⟨hclear, hrtc⟩ := hq rfl
    have hadc : Confines t patience (.only .cfgr Cfgr.adcpre.mask)
        (optionally (plan.named.names .adc)
          (liftM (Driver.writeField .cfgr Cfgr.adcpre plan.adc.code) : Setup Unit)).run :=
      .optionally (.lift (.writeField ht _ (by decide)))
    refine (hadc q).unguarded.imp ?_
    exact fun _ u hu _ => (hu.get_rtcSource (by decide) hclear).trans hrtc

include ht in
theorem configurePeripheralClocks_adc (plan : PeripheralPlan) (p : Part) :
    Ensures (simulated t) patience (fun _ => True) (configurePeripheralClocks plan).run p
      (fun result q => result = .ok () → Cfgr.adcpre.get (q.peek .cfgr) =
        if plan.named.names .adc then plan.adc.code else Cfgr.adcpre.get (p.peek .cfgr)) := by
  have hrtc : Confines t patience .backupDomain
      (optionally (plan.named.names .rtc) (selectRtcSource plan.rtc)).run :=
    .optionally (selectRtcSource_confines ht patience _)
  rw [configurePeripheralClocks_eq]
  refine .setupBind (hrtc p).unguarded ?_
    (fun _ _ _ h => by cases h)
  intro _ q hq
  have hsame : Cfgr.adcpre.get (q.peek .cfgr) = Cfgr.adcpre.get (p.peek .cfgr) :=
    hq.get_cfgr (by decide)
  refine .optionally (fun hnamed => .lift ?_) (fun hskip _ => ?_)
  · refine .writeFieldOpen ht Register.cfgr_open plan.adc.code_fits (by decide)
      (fun _ _ => trivial) ?_
    intro _ u _ _ _ hget
    refine ⟨trivial, fun _ => ?_⟩
    rw [hget, if_pos hnamed]
  · rw [hsame, hskip]
    rfl

include ht in
/-- After a success the named clocks are as planned. -/
theorem configurePeripheralClocks_ensures (plan : PeripheralPlan) (p : Part) :
    Ensures (simulated t) patience (fun _ => True) (configurePeripheralClocks plan).run p
      (fun result q => Confined .peripherals p q ∧
        (result = .ok () → PeripheralsSet plan p q)) := by
  have hframe := configurePeripheralClocks_confines ht patience plan p
  have hadc : Ensures (simulated t) patience _ _ p _ :=
    hframe.and (configurePeripheralClocks_adc ht plan p)
  by_cases h : plan.named.names .rtc = true ∧ p.NoDomainReset
  · refine (hadc.and (configurePeripheralClocks_rtc ht h.1 h.2)).unguarded.imp ?_
    intro _ q hq
    obtain ⟨⟨hq, hdivider⟩, hsource⟩ := hq
    exact ⟨hq, fun hok => ⟨fun _ _ => hsource hok, hdivider hok⟩⟩
  · refine hadc.unguarded.imp ?_
    intro _ q hq
    obtain ⟨hq, hdivider⟩ := hq
    exact ⟨hq, fun hok => ⟨fun hnamed hclear => absurd ⟨hnamed, hclear⟩ h, hdivider hok⟩⟩

end Hardware

end BringUp
