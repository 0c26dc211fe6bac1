import BringUp.Proofs.IdleSteps
import BringUp.Proofs.RtcSource

/-!
A plan that is applied once more.

* `Plan.Applied t patience plan p q`: the three clock steps of the plan succeed
  from `p`, one after the other, and end in `q`.
* `Part.OnInternal p`: the system clock runs from the internal oscillator, and
  the backup domain is out of reset.
* `Plan.Started plan p`, `Plan.Switched plan p`: how far the plan is in force
  after the oscillators, and after the bus clocks.

Main statement: a plan that was applied can be applied again, and then the
registers come to what they came to, if the internal oscillator was switched on
in the first place (`Plan.applied_again`). Without that, they may come to
something else (`Plan.applied_again_switches_hsi`).

The first time leaves the plan in force, and every flag that the plan waits for
follows its control bits, even if it did not before (`Plan.Applied.inForce`).
The second time finds it so (`Plan.InForce.applied`). Between the two times a
change may be under way, and it may still be so after the second. So the
registers are compared at rest.
-/

namespace BringUp

open Board Clock Hardware

/-! ## Flags that start to follow -/

/-- The flag of a source that has been reached follows its request. -/
theorem Part.Settled.shown_eq {p : Part} (h : p.Settled) :
    StatusFlag.sysclk.shown (p.peek .cfgr) = StatusFlag.sysclk.wanted (p.peek .cfgr) := by
  rw [← StatusFlag.shown_settle]
  refine Word.AgreeOn.of_get (f := Cfgr.sws) ?_ (by decide)
  rw [StatusFlag.sws_get (StatusFlag.settle _ _), StatusFlag.shown_settle, ← StatusFlag.sw_get]
  exact h.symm

namespace Hardware

section Follows

variable {t : Temper} (ht : t.Cooperative) {patience : Nat} {p : Part} {f : StatusFlag}
  {bound : Nat} (hbound : f.budget = some bound)

include ht hbound in
/-- A flag follows once its register has been written. -/
theorem modify_follows {r : Register} (hr : f.register = r) (hp : p.Paced)
    (htakes : (p.tick r).ignores t r = false) (g : Word → Word) :
    Ensures (simulated t) patience (fun _ => True) (Driver.modify r g) p
      (fun _ q => q.Follows f bound) := by
  subst hr
  have hpending : (p.tick f.register).pending.get f < bound :=
    Nat.lt_of_le_of_lt (p.pending_tick_le _ _) (hp f bound hbound)
  exact .modify trivial trivial (.of_write ht hbound hpending htakes _)

theorem startPll_ends (wanted : Option PllSetting) (divider : HseDivider) (p : Part) :
    Ensures (simulated t) patience (fun _ => True) (startPll wanted divider).run p
      (fun _ _ => True) := by
  have hmodify : ∀ {r g q}, Ensures (simulated t) patience (fun _ => True)
      (liftM (Driver.modify r g) : Setup Unit).run q (fun _ _ => True) :=
    .lift (.modify trivial trivial trivial)
  unfold startPll
  split
  · exact .setupPure trivial
  · refine .setupBind hmodify (fun _ q _ => ?_) (fun _ _ _ => trivial)
    exact .setupBind hmodify (fun _ u _ => Ensures.waitUntil_result.ends) (fun _ _ _ => trivial)

include ht hbound in
/-- A PLL that is not in use is stopped first, so the flags of its register
follow. -/
theorem configurePll_follows (wanted : Option PllSetting) (divider : HseDivider)
    (hidle : Cfgr.running (p.peek .cfgr) ≠ .pll) (hp : p.Paced) (hf : f.register = .cr) :
    Ensures (simulated t) patience (fun _ => True) (configurePll wanted divider).run p
      (fun result q => result = .ok () → q.Follows f bound) := by
  have hkeeps := Part.follows_keeps ht hbound
  unfold configurePll
  refine .setupBind (requireMultiplier_ensures p) ?_ (fun _ _ _ => nofun)
  rintro _ q ⟨rfl, -⟩
  refine .setupBind (R := fun status u => u.Paced ∧ status = .ok (Cfgr.running (q.peek .cfgr)))
    (.lift ((sysclkStatus_ensures (fun _ _ => trivial) fun _ _ => rfl).keeping
      (Part.paced_keeps ht) hp)) ?_ (fun _ _ _ => nofun)
  rintro _ u ⟨hu, ⟨⟩⟩
  rw [if_neg hidle, restartPll_eq]
  unfold stopPll
  refine .setupBind (R := fun _ v => v.Follows f bound) ?_ ?_ (fun _ _ _ => nofun)
  · refine .setupBind (R := fun _ v => v.Follows f bound)
      (.lift (modify_follows ht hbound hf hu rfl _)) ?_ (fun _ _ hv => hv)
    exact fun _ v hv => (Ensures.waitUntil_result.keeping hkeeps hv).imp fun _ _ hq => hq.1
  · exact fun _ v hv => ((startPll_ends _ _ v).keeping hkeeps hv).imp fun _ _ hq _ => hq.1

include ht hbound in
/-- From the internal oscillator, the PLL is never in use. -/
theorem configureOscillators_follows (plan : OscillatorPlan) (hp : OnSource .hsi p)
    (hpaced : p.Paced) (hf : f.register = .cr) :
    Ensures (simulated t) patience (fun _ => True) (configureOscillators plan).run p
      (fun result q => result = .ok () → q.Follows f bound) := by
  rw [configureOscillators_eq]
  refine .setupBind ((operateOscillators_confines ht.unlatched plan p).unguarded.keeping
    (Part.paced_keeps ht) hpaced) ?_ (fun _ _ _ => nofun)
  rintro _ q ⟨hq, hconfined⟩
  have hsource : OnSource .hsi q := hp.of_confined hconfined (by decide)
  exact configurePll_follows ht hbound _ _ (by rw [hsource.1]; decide) hq hf

end Follows

end Hardware

/-! ## After the oscillators -/

/-- The oscillators of the plan were operated while the system clock ran from
the internal one. -/
structure Clock.Plan.Started (plan : Plan) (p : Part) : Prop where
  outOfReset : p.NoDomainReset
  settled : p.Settled
  paced : p.Paced
  bits : ∀ s : Stage, s.named plan.oscillators = true → s.Programmed plan.oscillators p
  setting : ∀ setting, plan.oscillators.pll = some setting →
    p.pllSetting = setting.code plan.oscillators.hseDivider
  hsiOn : plan.buses.sysclk = .hsi → p.peek .cr &&& Cr.hsiOn = Cr.hsiOn
  follows : ∀ f bound, f.budgetIn plan.oscillators.waitsFor = some bound →
    f.register = .cr ∨ f.register = .csr → p.Follows f bound

/-- The system clock runs from the internal oscillator, and the backup domain is
out of reset. No change of a flag under way takes longer than its budget. -/
structure Part.OnInternal (p : Part) : Prop where
  selected : Cfgr.sw.get (p.peek .cfgr) = SysclkSource.hsi.code
  running : Cfgr.sws.get (p.peek .cfgr) = SysclkSource.hsi.code
  outOfReset : p.NoDomainReset
  paced : p.Paced

namespace Part.OnInternal

variable {p : Part} (h : p.OnInternal)

include h

theorem settled : p.Settled :=
  h.selected.trans h.running.symm

theorem source : OnSource .hsi p :=
  ⟨(congrArg SysclkSource.ofCode h.running).trans (SysclkSource.ofCode_code _),
    (congrArg SysclkSource.ofCode h.selected).trans (SysclkSource.ofCode_code _)⟩

/-- No other stage is in use. -/
theorem idle {s : Stage} (hs : s ≠ .hsi) : ¬s.InUse (p.peek .cfgr) := by
  cases s with
  | hsi => exact absurd rfl hs
  | hse => exact fun hinUse => nomatch (OnSource.drives_iff h.source ..).mp hinUse
  | lsi | lse => exact id
  | pll =>
      intro hinUse
      have hinUse : Cfgr.running (p.peek .cfgr) = .pll := hinUse
      rw [h.source.1] at hinUse
      cases hinUse

end Part.OnInternal

section Plans

variable {t : Temper} (ht : t.Cooperative) {patience : Nat} {plan : Plan} {rates : Rates}
  {p q u : Part}

include ht in
/-- A plan that stops the internal oscillator does not come past it. -/
theorem configureOscillators_hsiRuns (plan : OscillatorPlan) (hp : OnSource .hsi p)
    (hnamed : plan.named.names .hsi = true) :
    Ensures (simulated t) patience (fun _ => True) (configureOscillators plan).run p
      (fun result _ => result = .ok () → plan.hsi.running = true) := by
  cases hmode : plan.hsi.running with
  | true =>
      exact (configureOscillators_ensures ht.unlatched plan p).unguarded.imp fun _ _ _ _ => rfl
  | false =>
      have hhse : Confines t patience .hse
          (optionally (plan.named.names .hse) (configureHse plan.hse)).run :=
        .optionally (configureHse_confines ht.unlatched patience _)
      have hfails : Ensures (simulated t) patience (fun _ => True) (operateOscillators plan).run p
          (fun result _ => ∃ why, result = .error why) := by
        refine .setupBind (hhse p).unguarded (fun _ q hq => ?_) (fun why _ _ => ⟨why, rfl⟩)
        have hinUse : Cfgr.Drives .hsi .hsiDiv2 (q.peek .cfgr) :=
          (OnSource.drives_iff (hp.of_confined hq (by decide)) ..).mpr rfl
        rw [hnamed]
        refine .setupBind (configureHsi_refuses hinUse hmode) ?_ (fun why _ _ => ⟨why, rfl⟩)
        exact fun _ _ => nofun
      rw [configureOscillators_eq]
      refine .setupBind hfails ?_ (fun _ _ _ => nofun)
      rintro _ _ ⟨_, ⟨⟩⟩

/-- A demand that is met lets its flag follow. -/
theorem Part.Follows.of_met {d : Demand} (hd : d.flag ≠ .sysclk) {bound : Nat}
    (hpending : p.pending.get d.flag < bound) (h : d.Met p) : p.Follows d.flag bound :=
  ⟨hpending, fun _ => (h.shown_eq hd).trans (Demand.wanted_eq h.bits).symm⟩

section Started

variable (hp : p.OnInternal)
  (h : Setup.EndsIn t patience (configureOscillators plan.oscillators) p (.ok ()) u)

include ht hp h

/-- After a success, all stages have been gone through. -/
theorem Part.OnInternal.progress : Progress plan.oscillators p Stage.order [] u := by
  have hstart : Progress plan.oscillators p [] Stage.order p := .start hp.settled hp.outOfReset
  have hrun : Ensures (simulated t) patience _ (forM Stage.order (Stage.operate _)).run p _ :=
    hstart.run ht.unlatched Stage.order_pairwise ⟨[], rfl⟩
  rw [← configureOscillators_eq_forM] at hrun
  exact (hrun.at_end h).1 rfl

/-- All that are named have achieved what they are there for, but for the
internal oscillator, which is in use. -/
theorem Part.OnInternal.achieved {s : Stage} (hs : s ≠ .hsi)
    (hnamed : s.named plan.oscillators = true) : s.Achieved plan.oscillators u :=
  (hp.progress ht h).established s (by cases s <;> decide) hnamed (hp.idle hs)

/-- That one is as it was. -/
theorem Part.OnInternal.hsi_kept : u.peek .cr &&& Cr.hsiOn = p.peek .cr &&& Cr.hsiOn := by
  have hkept : SourceKept p u :=
    ((configureOscillators_keepsSource ht.unlatched _ p hp.settled).at_end h).sourceKept hp.settled
  exact hkept.hsi ((OnSource.drives_iff hp.source ..).mpr rfl)

theorem Part.OnInternal.paced_end : u.Paced :=
  (((configureOscillators_ensures ht.unlatched _ p).keeping (Part.paced_keeps ht)
    hp.paced).at_end h).1

/-- The flags of the control registers follow. -/
theorem Part.OnInternal.follows {f : StatusFlag} {bound : Nat}
    (hf : f.budgetIn plan.oscillators.waitsFor = some bound)
    (hr : f.register = .cr ∨ f.register = .csr) : u.Follows f bound := by
  have hbound : f.budget = some bound := StatusFlag.budget_of_budgetIn hf
  rcases hr with hcr | hcsr
  · exact (configureOscillators_follows ht hbound _ hp.source hp.paced hcr).at_end h rfl
  · obtain rfl : f = .lsi := by cases f <;> first | rfl | cases hcsr
    have hnamed : plan.oscillators.named.names .lsi = true := by
      cases hlsi : plan.oscillators.named.names .lsi with
      | true => rfl
      | false =>
          rw [StatusFlag.budgetIn, OscillatorPlan.waitsFor, hlsi] at hf
          cases hf
    exact .of_met (d := .lsi _) (fun h => by cases h) (hp.paced_end ht h _ _ hbound)
      (hp.achieved ht h (s := .lsi) (by decide) hnamed).met

end Started

include ht in
/-- After a success, whatever the oscillators were before. -/
theorem Clock.Plan.Started.of_endsIn (hp : p.OnInternal)
    (hon : plan.oscillators.named.names .hsi = true ∨ plan.buses.sysclk = .hsi →
      p.peek .cr &&& Cr.hsiOn = Cr.hsiOn)
    (h : Setup.EndsIn t patience (configureOscillators plan.oscillators) p (.ok ()) u) :
    plan.Started u := by
  refine ⟨(hp.progress ht h).backup, (hp.progress ht h).settled, hp.paced_end ht h,
    fun s hnamed => ?_, ?_, fun hsource => (hp.hsi_kept ht h).trans (hon (.inr hsource)),
    fun f bound => hp.follows ht h⟩
  · by_cases hs : s = .hsi
    · subst hs
      have hrunning : plan.oscillators.hsi.running = true :=
        (configureOscillators_hsiRuns ht _ hp.source hnamed).at_end h rfl
      exact ((hp.hsi_kept ht h).trans (hon (.inl hnamed))).trans (if_pos hrunning).symm
    · exact (hp.achieved ht h hs hnamed).met.bits
  · exact (hp.achieved ht h (s := .pll) (by decide) rfl).setting rfl

/-! ## After the bus clocks -/

include ht in
/-- The configuration only gets past the switch if the source was ready. -/
theorem configureBusClocks_ready (b : BusPlan) (hp : p.Settled)
    (hnamed : b.named.names .sysclk = true) :
    Ensures (simulated t) patience (fun _ => True) (configureBusClocks b).run p
      (fun result _ => result = .ok () → p.Ready b.sysclk) := by
  rw [configureBusClocks_eq_prepare]
  refine .setupBind (prepareSwitch_onWay ht.unlatched b hp).unguarded ?_ (fun _ _ _ => nofun)
  rintro _ q ⟨-, hq⟩
  refine .setupBind (optionalSwitch_onWay ht.unlatched b hq).unguarded ?_ (fun _ _ _ => nofun)
  rintro _ u ⟨-, hu⟩
  refine (finishSwitch_onWay ht.unlatched b (hu rfl)).unguarded.imp ?_
  exact fun _ _ _ _ => (hu rfl).ready hnamed

/-- With its source ready, all that the plan wants of the oscillators is so. -/
theorem Clock.Plan.Started.operated (h : plan.Started u) (hcheck : plan.check = .ok rates)
    (hready : u.Ready plan.buses.sysclk) : plan.Operated u where
  bits := h.bits
  setting := h.setting
  source := by
    have hruns := Plan.sysclkSourceRuns_of_check hcheck
    refine ⟨?_, ((plan.ready_iff u).mp hready).trans (Plan.sourceDemand_running hcheck).symm⟩
    unfold Plan.sourceDemand
    cases hsource : plan.buses.sysclk with
    | hsi => exact h.hsiOn hsource
    | hse =>
        rw [hsource] at hruns
        exact h.bits .hse (Bool.and_eq_true_iff.mp hruns).1
    | pll => exact h.bits .pll rfl

/-- The oscillators and the bus clocks are as the plan wants them. -/
structure Clock.Plan.Switched (plan : Plan) (p : Part) : Prop where
  outOfReset : p.NoDomainReset
  paced : p.Paced
  operated : plan.Operated p
  buses : BusesSet plan.buses p p
  follows : ∀ f bound, f.budgetIn plan.oscillators.waitsFor = some bound →
    f.register = .cr ∨ f.register = .csr → p.Follows f bound

include ht in
theorem Clock.Plan.Started.switched (hall : plan.NamesAll) (hcheck : plan.check = .ok rates)
    (hp : plan.Started p)
    (h : Setup.EndsIn t patience (configureBusClocks plan.buses) p (.ok ()) q) :
    plan.Switched q := by
  have hready : p.Ready plan.buses.sysclk :=
    (configureBusClocks_ready ht plan.buses hp.settled (hall.buses .sysclk)).at_end h rfl
  have hends : Ensures (simulated t) patience _ (configureBusClocks plan.buses).run p _ :=
    configureBusClocks_ensures ht.unlatched plan.buses p
  obtain ⟨hconfined, hset⟩ := hends.at_end h
  have hcrystal : Word.AgreeOn (~~~(0 ||| StatusFlag.statusOf .bdcr)) (q.peek .bdcr)
      (p.peek .bdcr) := hconfined.steady .bdcr (Footprint.covers_bdcr (by simp [Footprint.buses])
        hp.outOfReset)
  refine ⟨hconfined.noDomainReset (by simp [Footprint.buses]) hp.outOfReset,
    ((hends.keeping (Part.paced_keeps ht) hp.paced).at_end h).1, ?_,
    hall.rebase (hset rfl), fun f bound hf hr => ?_⟩
  · exact (hp.operated hcheck hready).of_confined hconfined rfl rfl
      (by simp only [Footprint.buses]; split <;> decide) (hcrystal.mono (by decide))
  · have hbound : f.budget = some bound := StatusFlag.budget_of_budgetIn hf
    exact ((hends.keeping (Part.follows_keeps ht hbound) (hp.follows f bound hf hr)).at_end h).1

/-! ## After the peripheral clocks -/

include ht in
/-- To write the register of the backup domain lets its flag follow. -/
theorem writeRtcSource_follows (source : RtcSource) (hp : BackupReady p) (hpaced : p.Paced) :
    Ensures (simulated t) patience (fun _ => True)
      (Driver.writeField .bdcr Bdcr.rtcSource source.code) p
      (fun _ q => q.Follows .lse Budget.lse) := by
  have htick : Confined .none p (p.tick .bdcr) := .tick .none p .bdcr
  exact modify_follows ht rfl (r := .bdcr) rfl hpaced ((htick.unlocked rfl hp.1).takes t) _

include ht in
theorem replaceRtcSource_follows (source : RtcSource) (hp : BackupReady p) (hpaced : p.Paced) :
    Ensures (simulated t) patience (fun _ => True) (replaceRtcSource source).run p
      (fun result q => result = .ok () → q.Follows .lse Budget.lse) := by
  have hwrite : ∀ {u : Part}, BackupReady u → u.Paced →
      Ensures (simulated t) patience (fun _ => True)
        (liftM (Driver.writeField .bdcr Bdcr.rtcSource source.code) : Setup Unit).run u
        (fun result v => result = .ok () → v.Follows .lse Budget.lse) := fun hu hpaced =>
    .lift ((writeRtcSource_follows ht source hu hpaced).imp fun _ _ hv _ => hv)
  have htick : Confined .none p (p.tick .bdcr) := .tick .none p .bdcr
  refine .setupBind (R := fun _ u => BackupReady u ∧ u.Paced) ?_ ?_ (fun _ _ _ => nofun)
  · exact .lift (.readField trivial ⟨hp.of_none htick,
      (Part.paced_keeps ht).read .bdcr p rfl hpaced⟩)
  rintro current u ⟨hu, hpaced⟩
  dsimp only
  split
  · refine .setupBind ((resetBackupDomain_ensures ht.unlatched hu).keeping
      (Part.paced_keeps ht) hpaced) ?_ (fun _ _ _ => nofun)
    exact fun _ v hv => hwrite (hv.2 rfl) hv.1
  · exact hwrite hu hpaced

include ht in
/-- A source that was selected leaves the backup domain open, and its flag
following. -/
theorem selectRtcSource_opens (source : RtcSource) (hp : p.NoDomainReset) (hpaced : p.Paced) :
    Ensures (simulated t) patience (fun _ => True) (selectRtcSource source).run p
      (fun result q => result = .ok () → q.Open ∧ q.Follows .lse Budget.lse) := by
  have hlatches : t.LatchesOnly .pwr := fun r _ => ht.unlatched r
  have haccess : Ensures (simulated t) patience (fun _ => True) BackupDomain.access.run p
      (fun result q => result = .ok () → q.Open) :=
    ⟨fun _ _ => trivial, _, _, _, access_run p, fun hok =>
      access_open hlatches ((unlockResult_eq_ok _).mp hok)⟩
  have hboth := (haccess.and (access_confines ht.unlatched patience p)).keeping
    (Part.paced_keeps ht) hpaced
  rw [selectRtcSource_eq]
  refine .setupBind hboth.unguarded ?_ (fun _ _ _ => nofun)
  rintro _ q ⟨hq, hopen, hconfined⟩
  have hopen : q.Open := hopen rfl
  have hready : BackupReady q := ⟨hopen.unlocked, hconfined.noDomainReset (by decide) hp⟩
  refine ((replaceRtcSource_follows ht source hready hq).within (Part.open_keeps t)
    (replaceRtcSource_behindLock source) hopen).unguarded.imp ?_
  exact fun _ _ hv hok => ⟨hv.1, hv.2 hok⟩

/-- The selection of the peripheral clocks has succeeded. -/
structure BackupSet (p q : Part) : Prop where
  opened : q.Open
  outOfReset : q.NoDomainReset
  kept : DomainKept p q
  follows : q.Follows .lse Budget.lse

include ht in
theorem configurePeripheralClocks_opens (plan : PeripheralPlan)
    (hnamed : plan.named.names .rtc = true) (hp : p.NoDomainReset) (hpaced : p.Paced) :
    Ensures (simulated t) patience (fun _ => True) (configurePeripheralClocks plan).run p
      (fun result q => result = .ok () → BackupSet p q) := by
  have hselect : Ensures (simulated t) patience _ (selectRtcSource plan.rtc).run p _ :=
    (selectRtcSource_opens ht plan.rtc hp hpaced).and
      (selectRtcSource_traced ht.unlatched plan.rtc hp).ensures
  rw [configurePeripheralClocks_eq, hnamed]
  refine .setupBind hselect.unguarded ?_ (fun _ _ _ => nofun)
  rintro _ q ⟨hends, _, hq, -⟩
  obtain ⟨hopen, hfollows⟩ := hends rfl
  have hadc : Confines t patience (.only .cfgr Cfgr.adcpre.mask)
      (optionally (plan.named.names .adc)
        (liftM (Driver.writeField .cfgr Cfgr.adcpre plan.adc.code) : Setup Unit)).run :=
    .optionally (.lift (.writeField ht.unlatched _ (by decide)))
  refine ((hadc q).unguarded.keeping (Part.follows_keeps ht rfl) hfollows).imp ?_
  rintro _ u ⟨hu, hconfined⟩ -
  refine ⟨hopen.of_confined hconfined (by decide) (by decide),
    hconfined.noDomainReset (by decide) hq.outOfReset, ?_, hu⟩
  have hsteady := hconfined.steady .bdcr (Footprint.covers_bdcr (by decide) hq.outOfReset)
  exact (hsteady.mono (by decide)).trans hq.kept

/-! ## The first time -/

/-- The three clock steps of the plan succeed, one after the other. -/
def Clock.Plan.Applied (t : Temper) (patience : Nat) (plan : Plan) (p q : Part) : Prop :=
  ∃ u v, Setup.EndsIn t patience (configureOscillators plan.oscillators) p (.ok ()) u ∧
    Setup.EndsIn t patience (configureBusClocks plan.buses) u (.ok ()) v ∧
    Setup.EndsIn t patience (configurePeripheralClocks plan.peripherals) v (.ok ()) q

include ht in
theorem Clock.Plan.Switched.inForce (hall : plan.NamesAll) (hp : plan.Switched p)
    (h : Setup.EndsIn t patience (configurePeripheralClocks plan.peripherals) p (.ok ()) q) :
    plan.InForce q ∧ q.Tracks plan.oscillators.waitsFor := by
  have hends : Ensures (simulated t) patience _
      (configurePeripheralClocks plan.peripherals).run p _ :=
    configurePeripheralClocks_ensures ht.unlatched plan.peripherals p
  obtain ⟨hconfined, hset⟩ := hends.at_end h
  have hbackup : BackupSet p q := (configurePeripheralClocks_opens ht plan.peripherals hall.rtc
    hp.outOfReset hp.paced).at_end h rfl
  have hfollows : ∀ {f : StatusFlag} {bound}, f.budget = some bound → p.Follows f bound →
      q.Follows f bound := fun hbound hf =>
    ((hends.keeping (Part.follows_keeps ht hbound) hf).at_end h).1
  refine ⟨⟨hbackup.outOfReset, hbackup.opened, ?_, ?_, ?_⟩, ?_⟩
  · exact hp.operated.of_confined hconfined rfl rfl (by decide) (hbackup.kept.mono (by decide))
  · exact hall.rebase (hp.buses.of_confined hconfined (by decide) rfl)
  · refine ⟨fun _ _ => (hset rfl).rtc hall.rtc hp.outOfReset, ?_⟩
    rw [hall.adc, if_pos rfl]
    exact (hset rfl).adc.trans (if_pos hall.adc)
  · intro f bound hf
    have hbound : f.budget = some bound := StatusFlag.budget_of_budgetIn hf
    cases f with
    | hsi | hse | pll => exact hfollows hbound (hp.follows _ bound hf (.inl rfl))
    | lsi => exact hfollows hbound (hp.follows _ bound hf (.inr rfl))
    | lse =>
        obtain rfl : Budget.lse = bound := Option.some.inj hbound
        exact hbackup.follows
    | sysclk =>
        have hsettled : p.Settled := (hp.buses.source (hall.buses .sysclk)).2
        exact hfollows hbound ⟨hp.paced _ _ hbound, fun _ => hsettled.shown_eq⟩
    | prefetch => cases hbound

include ht in
/-- A plan that was applied is in force, and all flags that it waits for
follow. -/
theorem Clock.Plan.Applied.inForce (hall : plan.NamesAll) (hcheck : plan.check = .ok rates)
    (hp : p.OnInternal)
    (hon : plan.oscillators.named.names .hsi = true ∨ plan.buses.sysclk = .hsi →
      p.peek .cr &&& Cr.hsiOn = Cr.hsiOn)
    (h : plan.Applied t patience p q) :
    plan.InForce q ∧ q.Tracks plan.oscillators.waitsFor := by
  obtain ⟨u, v, hosc, hbus, hper⟩ := h
  have hstarted : plan.Started u := .of_endsIn ht hp hon hosc
  have hswitched : plan.Switched v := hstarted.switched ht hall hcheck hbus
  exact hswitched.inForce ht hall hper

/-! ## The second time -/

include ht in
/-- A plan in force can be applied, and then comes to the same registers. -/
theorem Clock.Plan.InForce.applied (hall : plan.NamesAll) (hcheck : plan.check = .ok rates)
    (hp : plan.InForce p) (htracks : p.Tracks plan.oscillators.waitsFor) :
    ∃ q, plan.Applied t patience p q ∧ SameAtRest p q := by
  have hends : ∀ {x : Setup Unit} {p : Part}, Moves t patience plan.oscillators .none x p →
      p.Tracks plan.oscillators.waitsFor → ∃ q, Setup.EndsIn t patience x p (.ok ()) q ∧
        Moved plan.oscillators .none p q ∧ q.Tracks plan.oscillators.waitsFor := by
    intro x p hx hp
    obtain ⟨-, _, q, log, hrun, hq, _, rfl, hmoved⟩ := hx hp
    exact ⟨q, ⟨log, hrun⟩, hmoved, hq⟩
  obtain ⟨u, hosc, hu, htracks_u⟩ := hends (configureOscillators_inForce ht hall hcheck hp) htracks
  have hforce_u : plan.InForce u := hp.of_none hu.confined
  obtain ⟨v, hbus, hv, htracks_v⟩ :=
    hends (configureBusClocks_inForce ht hall hcheck hforce_u) htracks_u
  have hforce_v : plan.InForce v := hforce_u.of_none hv.confined
  obtain ⟨q, hper, hq, htracks_q⟩ := hends (configurePeripheralClocks_inForce ht hforce_v) htracks_v
  refine ⟨q, ⟨u, v, hosc, hbus, hper⟩, ?_⟩
  exact ((hu.trans hv).trans hq).sameAtRest hp.outOfReset htracks htracks_q

end Plans

/-! ## Both times -/

/-- The three clock steps of the plan as one driver. -/
def Clock.Plan.apply (plan : Plan) : Setup Unit := do
  configureOscillators plan.oscillators
  configureBusClocks plan.buses
  configurePeripheralClocks plan.peripherals

/-- It succeeds exactly if they do. -/
theorem Clock.Plan.applied_iff {t : Temper} {patience : Nat} {plan : Plan} {p q : Part} :
    plan.Applied t patience p q ↔ Setup.EndsIn t patience plan.apply p (.ok ()) q := by
  simp only [Applied, apply, Setup.endsIn_bind, exists_and_left]

/-- To apply a plan once more changes nothing in the end. Take a part without
stuck bits whose flags follow their control bits within the budgets of the
waits, in any state in which the system clock runs from the internal oscillator
and the backup domain is out of reset, and a plan that the check accepts and that
names all bus clocks, the real-time clock and the converter. If the plan names
the internal oscillator, or selects it for the system clock, then it is to be
switched on.

If all three clock steps succeed, then they succeed when they are run again, and
once nothing is under way any more all registers are as they are after the first
time. -/
theorem Clock.Plan.applied_again {t : Temper} (ht : t.Cooperative) (patience : Nat) {plan : Plan}
    {rates : Rates} (hcheck : plan.check = .ok rates) (hall : plan.NamesAll) {p q : Part}
    (hp : p.OnInternal)
    (hon : plan.oscillators.named.names .hsi = true ∨ plan.buses.sysclk = .hsi →
      p.peek .cr &&& Cr.hsiOn = Cr.hsiOn)
    (h : plan.Applied t patience p q) :
    ∃ q', plan.Applied t patience q q' ∧ ∀ r r', q.ComesToRest r → q'.ComesToRest r' →
      ∀ register, r'.peek register = r.peek register := by
  obtain ⟨hforce, htracks⟩ := h.inForce ht hall hcheck hp hon
  obtain ⟨q', happlied, hsame⟩ := hforce.applied ht hall hcheck htracks
  exact ⟨q', happlied, fun r r' hr hr' register => hsame.peek_eq hr hr' register⟩

/-- The board's plan, on a part that runs from the internal oscillator. -/
theorem Clock.Plan.applied_again_board :
    Temper.prompt.Cooperative ∧ Plan.board.check = .ok Plan.board.rates ∧ Plan.board.NamesAll ∧
    Part.onHsi.OnInternal ∧ Part.onHsi.peek .cr &&& Cr.hsiOn = Cr.hsiOn ∧
    ∃ q q', Plan.board.Applied .prompt 0 .onHsi q ∧ Plan.board.Applied .prompt 0 q q' ∧
      ∀ r r', q.ComesToRest r → q'.ComesToRest r' →
        ∀ register, r'.peek register = r.peek register := by
  have hcheck : Plan.board.check = .ok Plan.board.rates := rfl
  have hall : Plan.board.NamesAll := ⟨fun clock => by cases clock <;> rfl, rfl, rfl⟩
  have hstart : Part.onHsi.OnInternal :=
    ⟨by decide +kernel, by decide +kernel, by decide +kernel,
      fun f bound h => by cases f <;> cases h <;> decide⟩
  have hon : Part.onHsi.peek .cr &&& Cr.hsiOn = Cr.hsiOn := by decide +kernel
  have hruns : (Plan.board.apply.run.run ((simulated .prompt).handler 0)
      .onHsi).outcome.toOption.any (· = .ok ()) = true := by decide +kernel
  have happlied : Plan.board.Applied .prompt 0 .onHsi _ :=
    applied_iff.mpr (Setup.endsIn_state hruns)
  obtain ⟨q', hagain, hsame⟩ := applied_again Temper.prompt_cooperative 0 hcheck hall hstart
    (fun _ => hon) happlied
  exact ⟨Temper.prompt_cooperative, hcheck, hall, hstart, hon, _, q', happlied, hagain, hsame⟩

/-- A part whose internal oscillator takes 20 reads to stop. -/
def Temper.slowToStop : Temper :=
  { Temper.prompt with delay := fun f => if f = .hsi then ⟨some 1, some 20⟩ else ⟨some 1, some 1⟩ }

theorem Temper.slowToStop_cooperative : slowToStop.Cooperative where
  unlatched := prompt_unlatched
  settles f bound h := by
    have hbound : 20 < bound := by
      cases f <;> cases h <;> decide
    have hdelay : ∃ n, slowToStop.delay f = ⟨some 1, some n⟩ ∧ n ≤ 20 := by
      by_cases hf : f = .hsi
      · exact ⟨20, if_pos hf, by decide⟩
      · exact ⟨1, if_neg hf, by decide⟩
    obtain ⟨n, hn, hle⟩ := hdelay
    rw [hn]
    exact ⟨⟨1, rfl, by omega⟩, ⟨n, rfl, by omega⟩⟩

/-- A part that runs from its internal oscillator, which is ready although it is
switched off. -/
def Part.onFadingHsi : Part :=
  (powerOn bootVector).poke .cr 0x00000082

/-- Without the condition on the internal oscillator the registers may come to
something else. While the system clock runs from it, the driver only waits for
it and does not switch it on. The second time the system clock runs from the
PLL, and it does. -/
theorem Clock.Plan.applied_again_switches_hsi :
    Temper.slowToStop.Cooperative ∧ Plan.board.check = .ok Plan.board.rates ∧
    Plan.board.NamesAll ∧ Part.onFadingHsi.OnInternal ∧
    ∃ q q' r r', Plan.board.Applied .slowToStop 0 .onFadingHsi q ∧
      Plan.board.Applied .slowToStop 0 q q' ∧ q.ComesToRest r ∧ q'.ComesToRest r' ∧
      r.peek .cr = 0x03030080 ∧ r'.peek .cr = 0x03030083 := by
  have hcheck : Plan.board.check = .ok Plan.board.rates := rfl
  have hall : Plan.board.NamesAll := ⟨fun clock => by cases clock <;> rfl, rfl, rfl⟩
  have hstart : Part.onFadingHsi.OnInternal :=
    ⟨by decide +kernel, by decide +kernel, by decide +kernel,
      fun f bound h => by cases f <;> cases h <;> decide⟩
  have hfirst : (Plan.board.apply.run.run ((simulated .slowToStop).handler 0)
      .onFadingHsi).outcome.toOption.any (· = .ok ()) = true := by decide +kernel
  have hsecond : (Plan.board.apply.run.run ((simulated .slowToStop).handler 0)
      (Plan.board.apply.run.run ((simulated .slowToStop).handler 0)
        .onFadingHsi).state).outcome.toOption.any (· = .ok ()) = true := by decide +kernel
  refine ⟨Temper.slowToStop_cooperative, hcheck, hall, hstart, _, _, _, _,
    applied_iff.mpr (Setup.endsIn_state hfirst), applied_iff.mpr (Setup.endsIn_state hsecond),
    ⟨List.replicate 20 .cr, rfl, ?_⟩, ⟨List.replicate 20 .cr, rfl, ?_⟩, ?_, ?_⟩
  · decide +kernel
  · decide +kernel
  · decide +kernel
  · decide +kernel

end BringUp
