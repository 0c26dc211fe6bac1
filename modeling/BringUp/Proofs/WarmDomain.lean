import BringUp.Proofs.BackupAccess

/-!
The backup domain on a warm boot.

The domain survives a reset of the part, so a bring-up may find the crystal
running and the real-time clock with its source already selected.

* `DomainMatches plan p`: what the part has in its backup domain is what the
  plan asks for, or the source of the real-time clock is not selected yet.
* `DomainSpared plan old w`: the word `w` is `old` but for the crystal's ready
  flag and the selection of a source.

Main statement: a bring-up on a domain that matches its plan writes nothing to
the domain but the source of the real-time clock, whatever its steps come to
(`bringUp_spares_domain`).

Most drivers never write to the domain (`SparesDomain.of_callsOnly`). The two
that can decide by what they read there, and what they read is spared: so the
crystal is found in its mode, and no reset of the domain is called for.
-/

namespace BringUp

open Board Clock Hardware

/-- The backup domain is out of reset, its crystal is in the mode that the plan
asks for, and the real-time clock has the planned source or none. -/
structure DomainMatches (plan : Plan) (p : Part) : Prop where
  outOfReset : p.NoDomainReset
  crystal : plan.oscillators.named.names .lse = true →
    p.peek .bdcr &&& Bdcr.lseMode = lseBits plan.oscillators.lse
  source : plan.peripherals.named.names .rtc = true →
    Bdcr.rtcSource.get (p.peek .bdcr) = 0 ∨
      Bdcr.rtcSource.get (p.peek .bdcr) = plan.peripherals.rtc.code

/-- The word `w` is `old` but for the crystal's ready flag and the source of
the real-time clock, which is the old one or the one that the plan selects. -/
structure DomainSpared (plan : PeripheralPlan) (old w : Word) : Prop where
  outside : Word.AgreeOn (~~~(Bdcr.rtcSource.mask ||| Bdcr.lseReady)) w old
  source : Bdcr.rtcSource.get w = Bdcr.rtcSource.get old ∨
    plan.named.names .rtc = true ∧ Bdcr.rtcSource.get w = plan.rtc.code

namespace DomainSpared

variable {plan : PeripheralPlan} {old w : Word}

theorem refl (plan : PeripheralPlan) (w : Word) : DomainSpared plan w w :=
  ⟨.refl _ _, .inl rfl⟩

/-- The ready flag may change. -/
theorem of_steady (h : DomainSpared plan old w) {v : Word}
    (hv : Word.AgreeOn (~~~StatusFlag.statusOf .bdcr) v w) : DomainSpared plan old v where
  outside := (hv.mono (by decide)).trans h.outside
  source := by
    rw [hv.get (by decide)]
    exact h.source

/-- The planned source may be selected. -/
theorem put (h : DomainSpared plan old w) (hnamed : plan.named.names .rtc = true) :
    DomainSpared plan old (Bdcr.rtcSource.put plan.rtc.code w) where
  outside := (Word.agreeOn_put _ _ _ (by decide)).trans h.outside
  source := .inr ⟨hnamed, by rw [Field.get_put]; exact plan.rtc.code_fits⟩

/-- The crystal is operated as before. -/
theorem lseMode_eq (h : DomainSpared plan old w) : w &&& Bdcr.lseMode = old &&& Bdcr.lseMode :=
  h.outside.and_eq (by decide)

theorem domainReset_eq (h : DomainSpared plan old w) : w.getLsbD 16 = old.getLsbD 16 :=
  h.outside.getLsbD (by decide)

/-- The real-time clock stays on, or off. -/
theorem rtcOn_eq (h : DomainSpared plan old w) : w.has Bdcr.rtcOn = old.has Bdcr.rtcOn :=
  h.outside.has (by decide)

end DomainSpared

/-- Whatever does not write to the domain spares it. -/
theorem Part.domainSpared_keeps (t : Temper) (plan : PeripheralPlan) (old : Word) :
    (simulated t).Keeps (fun c => !c.writes .bdcr)
      (fun p => DomainSpared plan old (p.peek .bdcr)) where
  read r p _ hp := by
    by_cases hr : r = .bdcr
    · subst hr
      exact hp.of_steady (p.passed_tick (by rintro ⟨u, hu⟩; cases hu)).steady
    · show DomainSpared plan old ((p.tick r).peek .bdcr)
      rw [p.peek_tick_of_ne (Ne.symm hr)]
      exact hp
  write r v p hok hp := by
    have hr : (Register.bdcr : Register) ≠ r := by
      rintro rfl
      cases hok
    show DomainSpared plan old ((p.write t r v).peek .bdcr)
    rw [p.peek_write_of_ne t v hr (by rintro ⟨u, hu⟩; cases hu)]
    exact hp
  storeVector _ _ _ _ hp := hp

/-- A word that spares the domain may be written to it. -/
theorem Part.domainSpared_write {t : Temper} (ht : t.Unlatched) {plan : PeripheralPlan}
    {old v : Word} (hold : old.getLsbD 16 = false) {p : Part}
    (hp : DomainSpared plan old (p.peek .bdcr)) (hv : DomainSpared plan old v) :
    DomainSpared plan old ((p.write t .bdcr v).peek .bdcr) := by
  by_cases hi : p.ignores t .bdcr = true
  · rw [write_of_ignores hi]
    exact hp
  · have hwrote := wrote_write ht (v := v) (Bool.eq_false_iff.mpr hi)
    have hvalue : resetBackup t .bdcr v = v := by
      refine if_neg ?_
      rintro ⟨-, -, hreset⟩
      rw [hv.domainReset_eq, hold] at hreset
      cases hreset
    rw [hvalue] at hwrote
    exact hv.of_steady hwrote.steady

/-! ## Drivers -/

/-- The access writes nothing to the domain but what spares it, and leaves it
spared. -/
def SparingEvent (plan : PeripheralPlan) (old : Word) (e : Event Part) : Prop :=
  (∀ v, e.access = .write .bdcr v → DomainSpared plan old v) ∧
    DomainSpared plan old (e.after.peek .bdcr)

/-- Run from where the domain is spared, the driver comes to a result and
spares the domain at every access. -/
def SparesDomain {α : Type} (t : Temper) (patience : Nat) (plan : PeripheralPlan) (old : Word)
    (x : Driver α) : Prop :=
  ∀ p : Part, DomainSpared plan old (p.peek .bdcr) →
    Ensures (simulated t) patience (SparingEvent plan old) x p
      (fun _ q => DomainSpared plan old (q.peek .bdcr))

namespace SparesDomain

variable {α β : Type} {t : Temper} {patience : Nat} {plan : PeripheralPlan} {old : Word}

theorem setupBind {x : Setup α} {f : α → Setup β} (hx : SparesDomain t patience plan old x.run)
    (hf : ∀ a, SparesDomain t patience plan old (f a).run) :
    SparesDomain t patience plan old (x >>= f).run :=
  fun p hp => .setupBind (hx p hp) (fun a q hq => hf a q hq) (fun _ _ hq => hq)

theorem optionally {c : Bool} {x : Setup Unit}
    (hx : c = true → SparesDomain t patience plan old x.run) :
    SparesDomain t patience plan old (BringUp.optionally c x).run :=
  fun p hp => .optionally (fun hc => hx hc p hp) (fun _ => hp)

/-- A driver that never writes to the domain spares it. -/
theorem of_callsOnly {x : Driver α} (hx : x.CallsOnly (fun c => !c.writes .bdcr))
    (hends : ∀ p, Ensures (simulated t) patience (fun _ => True) x p (fun _ _ => True)) :
    SparesDomain t patience plan old x := by
  intro p hp
  refine ((hends p).within (Part.domainSpared_keeps t plan old) hx hp).mono ?_
    (fun _ _ hq => hq.1)
  rintro e ⟨hspared, hafter⟩
  refine ⟨fun v hv => ?_, hafter⟩
  rw [hv] at hspared
  cases hspared

theorem of_aside {x : Driver α} (hx : x.CallsOnly Access.aside)
    (hends : ∀ p, Ensures (simulated t) patience (fun _ => True) x p (fun _ _ => True)) :
    SparesDomain t patience plan old x :=
  of_callsOnly (hx.mono fun _ hc => (Bool.and_eq_true_iff.mp hc).1) hends

theorem of_elsewhere {x : Driver α} (hx : x.CallsOnly Access.elsewhere)
    (hends : ∀ p, Ensures (simulated t) patience (fun _ => True) x p (fun _ _ => True)) :
    SparesDomain t patience plan old x :=
  of_aside (hx.mono Access.aside_of_elsewhere) hends

end SparesDomain

namespace Hardware

variable {t : Temper} (ht : t.Unlatched) {patience : Nat} {plan : PeripheralPlan} {old : Word}

include ht in
theorem access_sparesDomain :
    SparesDomain t patience plan old BackupDomain.access.run :=
  .of_callsOnly access_spares fun p => (access_confines ht patience p).ends

include ht in
/-- A crystal that is found in the requested mode is only waited for. -/
theorem configureLse_sparesDomain {mode : OscillatorMode}
    (hmode : old &&& Bdcr.lseMode = lseBits mode) :
    SparesDomain t patience plan old (configureLse mode).run := by
  have hwait : SparesDomain t patience plan old (awaitLse mode).run := by
    refine .of_callsOnly ?_ fun p => (awaitLse_confines patience .none mode p).ends
    unfold awaitLse
    split <;> exact .waitUntil _ _ _ rfl
  unfold configureLse
  refine fun p hp => .setupBind (access_sparesDomain ht p hp) ?_ (fun _ _ hq => hq)
  intro _ q hq
  have hread := (Part.domainSpared_keeps t plan old).read .bdcr q rfl hq
  refine .setupBind (R := fun bdcr u => DomainSpared plan old (u.peek .bdcr) ∧
    bdcr = .ok (q.peek .bdcr)) (.lift (.read ⟨?_, hread⟩ ⟨hread, rfl⟩)) ?_ (fun _ _ hu => hu.1)
  · rintro v ⟨⟩
  · rintro _ u ⟨hu, ⟨⟩⟩
    rw [if_pos (hq.lseMode_eq.trans hmode)]
    exact hwait u hu

include ht in
theorem configureOscillators_sparesDomain {oscillators : OscillatorPlan}
    (hmode : oscillators.named.names .lse = true →
      old &&& Bdcr.lseMode = lseBits oscillators.lse) :
    SparesDomain t patience plan old (configureOscillators oscillators).run := by
  rw [configureOscillators_eq]
  refine .setupBind ?_ fun _ =>
    .of_elsewhere (configurePll_elsewhere _ _) fun p => (configurePll_ensures ht _ _ p).ends
  unfold operateOscillators
  refine .setupBind (.optionally fun _ => .of_elsewhere (configureHse_elsewhere _)
    fun p => (configureHse_confines ht patience _ p).ends) fun _ => ?_
  refine .setupBind (.optionally fun _ => .of_elsewhere (configureHsi_elsewhere _)
    fun p => (configureHsi_confines ht patience _ p).ends) fun _ => ?_
  refine .setupBind (.optionally fun _ => .of_elsewhere (configureLsi_elsewhere _)
    fun p => (configureLsi_confines ht patience _ p).ends) fun _ => ?_
  exact .optionally fun hnamed => configureLse_sparesDomain ht (hmode hnamed)

include ht in
/-- A source that is selected already, or can be, is selected without a reset of
the domain. -/
theorem selectRtcSource_sparesDomain (hnamed : plan.named.names .rtc = true)
    (hclear : old.getLsbD 16 = false)
    (hsource : Bdcr.rtcSource.get old = 0 ∨ Bdcr.rtcSource.get old = plan.rtc.code) :
    SparesDomain t patience plan old (selectRtcSource plan.rtc).run := by
  unfold selectRtcSource
  refine fun p hp => .setupBind (access_sparesDomain ht p hp) ?_ (fun _ _ hq => hq)
  intro _ q hq
  have hread : ∀ u : Part, DomainSpared plan old (u.peek .bdcr) →
      DomainSpared plan old ((u.tick .bdcr).peek .bdcr) :=
    fun u => (Part.domainSpared_keeps t plan old).read .bdcr u rfl
  refine .setupBind (R := fun current u => DomainSpared plan old (u.peek .bdcr) ∧
    current = .ok (Bdcr.rtcSource.get (q.peek .bdcr)))
    (.lift (.readField ⟨?_, hread q hq⟩ ⟨hread q hq, rfl⟩)) ?_ (fun _ _ hu => hu.1)
  · rintro v ⟨⟩
  rintro _ u ⟨hu, ⟨⟩⟩
  have hfound : ¬(Bdcr.rtcSource.get (q.peek .bdcr) ≠ 0 ∧
      Bdcr.rtcSource.get (q.peek .bdcr) ≠ plan.rtc.code) := by
    rintro ⟨hset, hother⟩
    rcases hq.source with hold | ⟨-, hplanned⟩
    · rw [hold] at hset hother
      exact hsource.elim hset hother
    · exact hother hplanned
  rw [if_neg hfound]
  have hput := hu.put hnamed
  have hwritten := Part.domainSpared_write ht hclear (hread u hu) hput
  refine .lift (.modify ⟨?_, hread u hu⟩ ⟨?_, hwritten⟩ hwritten)
  · rintro v ⟨⟩
  · rintro v ⟨⟩
    exact hput

include ht in
theorem configurePeripheralClocks_sparesDomain (hclear : old.getLsbD 16 = false)
    (hsource : plan.named.names .rtc = true →
      Bdcr.rtcSource.get old = 0 ∨ Bdcr.rtcSource.get old = plan.rtc.code) :
    SparesDomain t patience plan old (configurePeripheralClocks plan).run := by
  rw [configurePeripheralClocks_eq]
  refine .setupBind (.optionally fun hnamed =>
    selectRtcSource_sparesDomain ht hnamed hclear (hsource hnamed)) fun _ => ?_
  have hadc : Confines t patience (.only .cfgr Cfgr.adcpre.mask)
      (liftM (Driver.writeField .cfgr Cfgr.adcpre plan.adc.code) : Setup Unit).run :=
    .lift (.writeField ht _ (by decide))
  exact .optionally fun _ =>
    .of_callsOnly (.lift (.modify rfl fun _ => rfl)) fun p => (hadc p).ends

end Hardware

/-! ## The bring-up -/

/-- A bring-up leaves a backup domain alone that matches its plan. Take any plan
and any part without stuck bits, in any state and with flags that take any time,
or never follow.

If the domain is out of reset, its crystal is in the planned mode, and the
real-time clock has the planned source or none, as far as the plan names them,
then the bring-up only writes words to the domain that are what was there to
begin with, but for the crystal's ready flag and the source. So at no access the
crystal is stopped, the domain is reset or the real-time clock is switched off,
whatever the steps come to. -/
theorem bringUp_spares_domain {t : Temper} (ht : t.Unlatched) (patience : Nat)
    (ceiling : Log.Ceiling) {plan : Plan} {p : Part} (hp : DomainMatches plan p) :
    ∀ e ∈ (onRegisters ceiling (bringUp plan)).history (simulated t) patience p,
      (∀ v, e.access = .write .bdcr v → DomainSpared plan.peripherals (p.peek .bdcr) v) ∧
      DomainSpared plan.peripherals (p.peek .bdcr) (e.after.peek .bdcr) ∧
      e.after.peek .bdcr &&& Bdcr.lseMode = p.peek .bdcr &&& Bdcr.lseMode ∧
      e.after.NoDomainReset ∧
      (e.after.peek .bdcr).has Bdcr.rtcOn = (p.peek .bdcr).has Bdcr.rtcOn := by
  have hinit : SparesDomain t patience plan.peripherals (p.peek .bdcr) (initialise ceiling) :=
    .of_aside (initialise_aside ceiling) fun q => (initialise_confines ht patience ceiling q).ends
  have hstubs : SparesDomain t patience plan.peripherals (p.peek .bdcr)
      SystemControl.installStubs :=
    .of_aside installStubs_aside fun q => (installStubs_confines ht patience q).ends
  have hreset : SparesDomain t patience plan.peripherals (p.peek .bdcr) resetPart :=
    .of_aside resetPart_aside fun q => (resetPart_confines ht patience q).ends
  have hbuses : SparesDomain t patience plan.peripherals (p.peek .bdcr)
      (configureBusClocks plan.buses).run :=
    .of_aside (configureBusClocks_aside _) fun q => (configureBusClocks_ensures ht _ q).ends
  intro e he
  by_cases hcore : plan.rates.sysclk = coreHz
  · have hbringUp : Ensures (simulated t) patience
        (SparingEvent plan.peripherals (p.peek .bdcr)) (onRegisters ceiling (bringUp plan)) p
        (fun _ _ => True) := by
      refine .bringUp hcore (hreset p (.refl _ _)) fun q hq => ?_
      refine .afterReset (hinit q hq) hstubs ?_ (fun _ => hbuses) ?_
      · exact configureOscillators_sparesDomain ht hp.crystal
      · intro _ _ u hu
        refine (configurePeripheralClocks_sparesDomain ht hp.outOfReset hp.source u hu).imp ?_
        exact fun _ _ _ _ _ _ _ _ => trivial
    obtain ⟨hwrites, hafter⟩ := hbringUp.guarded e he
    exact ⟨hwrites, hafter, hafter.lseMode_eq, hafter.domainReset_eq.trans hp.outOfReset,
      hafter.rtcOn_eq⟩
  · rw [bringUp_of_ne hcore] at he
    cases he

/-- A part after a reset, whose crystal and real-time clock have kept on
running. -/
def Part.warm : Part :=
  (powerOn bootVector).poke .bdcr 0x8103

/-- The board's plan on a running real-time clock: the bring-up does write to
the domain, and spares it. -/
theorem bringUp_spares_domain_board :
    Temper.prompt.Unlatched ∧ DomainMatches .board .warm ∧
    ∃ e ∈ (onRegisters .all (bringUp .board)).history (simulated .prompt) 0 .warm,
      ∃ v, e.access = .write .bdcr v ∧
        DomainSpared Plan.board.peripherals (Part.warm.peek .bdcr) v ∧
        (e.after.peek .bdcr).has Bdcr.rtcOn = true := by
  have hmatches : DomainMatches .board .warm :=
    ⟨by decide, fun _ => by decide, fun _ => .inr (by decide)⟩
  have hwrites : ((onRegisters .all (bringUp .board)).history (simulated .prompt) 0 .warm).any
      (·.access.writes .bdcr) = true := by
    decide +kernel
  obtain ⟨e, he, hwrite⟩ := List.any_eq_true.mp hwrites
  obtain ⟨v, hv⟩ := Access.eq_write_of_writes hwrite
  obtain ⟨hspared, -, -, -, hrunning⟩ :=
    bringUp_spares_domain Temper.prompt_unlatched 0 .all hmatches e he
  exact ⟨Temper.prompt_unlatched, hmatches, e, he, v, hv, hspared v hv,
    hrunning.trans (by decide)⟩

end BringUp
