import BringUp.Proofs.OscillatorDemands
import BringUp.Proofs.OscillatorStages
import BringUp.Proofs.Traces

/-!
The source of the real-time clock, and the rest of the backup domain.

* `Replaces source p`: another source is selected, so that the domain has to be
  reset to get to the wanted one.
* `DomainKept p q`: beside the source and the crystal's ready flag, the domain
  is as it was.
* `RtcSelected source p result q`: what the selection of a source leaves behind,
  for each of its results.

Main statement: however the selection ends, the rest of the domain is as it was
and out of reset, and it was only reset to replace another source
(`configurePeripheralClocks_keeps_domain`).

The reset may wipe the domain or not, and the crystal may come back at any time,
or never. The word that is written back has all of the old one but the source,
so none of that matters to the other bits.
-/

namespace BringUp

open Clock Hardware

/-- Another source is selected than the wanted one. -/
def Replaces (source : RtcSource) (p : Part) : Prop :=
  Bdcr.rtcSource.get (p.peek .bdcr) ≠ 0 ∧ Bdcr.rtcSource.get (p.peek .bdcr) ≠ source.code

/-- The access requests a reset of the backup domain. -/
def Access.ResetsDomain (c : Access) : Prop :=
  ∃ v, c = .write .bdcr v ∧ v.getLsbD 16 = true

/-- Beside the source of the real-time clock and the ready flag of the crystal,
the backup domain is as it was. -/
def DomainKept (p q : Part) : Prop :=
  Word.AgreeOn (~~~(Bdcr.rtcSource.mask ||| Bdcr.lseReady)) (q.peek .bdcr) (p.peek .bdcr)

/-- What the selection leaves behind. The other errors are that the domain does
not open. -/
structure RtcSelected (source : RtcSource) (p : Part) (result : SetupResult) (q : Part) :
    Prop where
  outOfReset : q.NoDomainReset
  kept : DomainKept p q
  selected : result = .ok () → Bdcr.rtcSource.get (q.peek .bdcr) = source.code
  restarted : result = .ok () → Replaces source p → (p.peek .bdcr).has Bdcr.lseOn = true →
    (q.peek .bdcr).has Bdcr.lseReady = true
  lost : result = .error (.timeout .lse) → Bdcr.rtcSource.get (q.peek .bdcr) = 0
  refused : ∀ why, result = .error why → why = .timeout .lse ∨ why = .timeout .backupDomainAccess

/-- The source is written into an open domain. -/
theorem RtcSelected.of_write {source : RtcSource} {p q u : Part}
    (hready : BackupReady q) (hkept : DomainKept p q)
    (hcrystal : Replaces source p → (p.peek .bdcr).has Bdcr.lseOn = true → Demand.crystal.Met q)
    (hu : Confined (.only .bdcr Bdcr.rtcSource.mask) q u)
    (hcode : Bdcr.rtcSource.get (u.peek .bdcr) = source.code) :
    RtcSelected source p (.ok ()) u := by
  have hcover : Footprint.Covers (.only .bdcr Bdcr.rtcSource.mask) q .bdcr :=
    Footprint.covers_bdcr (by decide) hready.2
  refine ⟨hu.noDomainReset (by decide) hready.2, ?_, fun _ => hcode, fun _ hold hon => ?_, nofun,
    nofun⟩
  · exact ((hu.steady .bdcr hcover).mono (by decide)).trans hkept
  · exact (Demand.Met.of_confined (d := .crystal) hu hcover (by decide) (hcrystal hold hon)).ready

/-- The domain did not open, and its word is the old one. -/
theorem RtcSelected.of_refused {source : RtcSource} {p q : Part} (hp : p.NoDomainReset)
    (hword : q.peek .bdcr = p.peek .bdcr) :
    RtcSelected source p (.error (.timeout .backupDomainAccess)) q where
  outOfReset := by rwa [Part.NoDomainReset, hword]
  kept := by rw [DomainKept, hword]; exact .refl _ _
  selected := nofun
  restarted := nofun
  lost := nofun
  refused := fun _ hwhy => .inr (Except.error.inj hwhy).symm

/-- Only the domain's own register matters, at the start and in the end. -/
theorem RtcSelected.of_start_eq {source : RtcSource} {p p' q : Part} {result : SetupResult}
    (h : RtcSelected source p' result q) (hp : p'.peek .bdcr = p.peek .bdcr) :
    RtcSelected source p result q := by
  obtain ⟨hreset, hkept, hselected, hrestarted, hlost, hrefused⟩ := h
  unfold DomainKept at hkept
  unfold Replaces at hrestarted
  rw [hp] at hkept hrestarted
  exact ⟨hreset, hkept, hselected, hrestarted, hlost, hrefused⟩

theorem RtcSelected.of_peek_eq {source : RtcSource} {p q u : Part} {result : SetupResult}
    (h : RtcSelected source p result q) (hu : u.peek .bdcr = q.peek .bdcr) :
    RtcSelected source p result u := by
  obtain ⟨hreset, hkept, hselected, hrestarted, hlost, hrefused⟩ := h
  unfold Part.NoDomainReset at hreset
  unfold DomainKept at hkept
  rw [← hu] at hreset hkept hselected hrestarted hlost
  exact ⟨hreset, hkept, hselected, hrestarted, hlost, hrefused⟩

/-- A wait succeeds or times out. -/
theorem Ensures.waitUntil_result {σ : Type} {d : Device σ} {patience : Nat} {s : σ} {r : Register}
    {accept : Word → Bool} {flag : ReadyFlag} {budget : Nat} :
    Ensures d patience (fun _ => True) (Setup.waitUntil r accept flag budget).run s
      (fun result _ => result = .ok () ∨ result = .error (.timeout flag)) :=
  .waitUntil (I := fun _ => True) trivial (fun _ _ => ⟨trivial, trivial⟩)
    (fun _ _ _ => .inl rfl) (fun _ _ => .inr rfl)

namespace Hardware

variable {t : Temper} (ht : t.Unlatched) {patience : Nat}

/-- The domain after it was reset: all of the old word but the source. -/
structure Restored (p : Part) (result : SetupResult) (q : Part) : Prop where
  ready : BackupReady q
  word : Word.AgreeOn (~~~StatusFlag.statusOf .bdcr) (q.peek .bdcr)
    (p.peek .bdcr &&& ~~~Bdcr.rtcSource.mask)
  crystal : result = .ok () → (p.peek .bdcr).has Bdcr.lseOn = true → Demand.crystal.Met q
  refused : ∀ why, result = .error why → why = .timeout .lse

theorem Restored.kept {p q : Part} {result : SetupResult} (h : Restored p result q) :
    DomainKept p q :=
  (h.word.mono (by decide)).trans (Word.agreeOn_and _ (by decide))

theorem Restored.source {p q : Part} {result : SetupResult} (h : Restored p result q) :
    Bdcr.rtcSource.get (q.peek .bdcr) = 0 :=
  (h.word.get (by decide)).trans (Word.get_and_of_disjoint _ _ (by decide))

include ht in
theorem resetBackupDomain_restores {p : Part} (hp : BackupReady p) :
    Ensures (simulated t) patience (fun _ => True) resetBackupDomain.run p (Restored p) := by
  rw [resetBackupDomain_eq]
  refine .setupBind (R := fun saved q => ∃ w, saved = .ok w ∧
    w = p.peek .bdcr &&& ~~~Bdcr.rtcSource.mask ∧ BackupReady q ∧
      Word.AgreeOn (~~~StatusFlag.statusOf .bdcr) (q.peek .bdcr) w)
    (.lift ((restoreBackupDomain_ensures ht hp).imp fun w _ h => ⟨w, rfl, h⟩)) ?_
    (fun _ _ h => by obtain ⟨_, ⟨⟩, -⟩ := h)
  rintro saved q ⟨_, ⟨⟩, rfl, hq, hword⟩
  have hon : (p.peek .bdcr &&& ~~~Bdcr.rtcSource.mask).has Bdcr.lseOn =
      (p.peek .bdcr).has Bdcr.lseOn := (Word.agreeOn_and _ (by decide)).has BitVec.and_self
  split
  · next hset =>
    have hbits : q.peek .bdcr &&& Bdcr.lseOn = Bdcr.lseOn :=
      (hword.and_eq (by decide)).trans (Word.AgreeOn.of_has (i := 0) (b := Bdcr.lseOn) hset)
    have hwait : Confines t patience .none
        (Setup.waitSet .bdcr Bdcr.lseReady .lse Budget.lse).run := .waitUntil _ _ _ _
    have hcrystal : Ensures (simulated t) patience (fun _ => True)
        (Setup.waitSet .bdcr Bdcr.lseReady .lse Budget.lse).run q _ :=
      Demand.wait_ensures (d := .crystal) (fun _ h => h) ⟨hq.2, fun _ => hq.1⟩ hbits
    refine ((hwait q).and (hcrystal.and .waitUntil_result)).unguarded.imp ?_
    rintro result u ⟨hu, ⟨-, hmet⟩, hresult⟩
    refine ⟨⟨hu.unlocked rfl hq.1, hu.noDomainReset rfl hq.2⟩, ?_, fun hok _ => hmet hok, ?_⟩
    · exact (hu.steady .bdcr (Footprint.covers_bdcr rfl hq.2)).trans hword
    · rintro why rfl
      rcases hresult with hok | htimeout
      · cases hok
      · exact Except.error.inj htimeout
  · next hclear => exact .setupPure ⟨hq, hword, fun _ h => absurd (hon.trans h) hclear, nofun⟩

/-! ## The selection -/

/-- To open the domain leaves its word alone, and so does an attempt that
fails. -/
theorem access_traced (t : Temper) (p : Part) :
    Traced (simulated t) patience BackupDomain.access.run p (fun result _ q =>
      q.peek .bdcr = p.peek .bdcr ∧ (result = .ok () → q.Unlocked) ∧
      ∀ why, result = .error why → why = .timeout .backupDomainAccess) := by
  have hrun : Traced (simulated t) patience BackupDomain.access.run p (fun result _ q =>
      result = unlockResult q) := ⟨_, _, _, access_run p, rfl⟩
  have hkept := hrun.keeping access_among
    (Part.peek_keeps t (by simp) (by rintro ⟨u, h⟩; cases h) (p.peek .bdcr)) rfl
  refine hkept.imp ?_
  rintro _ _ q ⟨hword, rfl⟩
  refine ⟨hword, (unlockResult_eq_ok q).mp, fun why hwhy => ?_⟩
  unfold unlockResult at hwhy
  split at hwhy
  · cases hwhy
  · exact (Except.error.inj hwhy).symm

/-- An access that writes no word to the domain's register does not reset it. -/
theorem not_resetsDomain {c : Access} (hc : (!c.writes .bdcr) = true) : ¬c.ResetsDomain := by
  rintro ⟨v, rfl, -⟩
  cases hc

include ht in
/-- Another source is replaced: the rest of the domain is back before the wanted
source is written. -/
theorem resetThenSelect_ensures (source : RtcSource) {p u : Part} (hu : BackupReady u)
    (hsame : Word.AgreeOn (~~~StatusFlag.statusOf .bdcr) (u.peek .bdcr) (p.peek .bdcr)) :
    Ensures (simulated t) patience (fun _ => True)
      (do
        resetBackupDomain
        Driver.writeField .bdcr Bdcr.rtcSource source.code : Setup Unit).run u
      (RtcSelected source p) := by
  have hkept : DomainKept p u := hsame.mono (by decide)
  have hon : (u.peek .bdcr).has Bdcr.lseOn = (p.peek .bdcr).has Bdcr.lseOn :=
    hsame.has (by decide)
  refine .setupBind (resetBackupDomain_restores ht hu) ?_ ?_
  · intro _ v hv
    refine (writeRtcSource_ensures ht source hv.ready).unguarded.imp ?_
    rintro _ w ⟨rfl, hw, hcode⟩
    exact .of_write hv.ready (hv.kept.trans hkept) (fun _ h => hv.crystal rfl (hon.trans h)) hw
      hcode
  · intro why v hv
    refine ⟨hv.ready.2, hv.kept.trans hkept, nofun, nofun, fun _ => hv.source, ?_⟩
    rintro _ ⟨⟩
    exact .inl (hv.refused why rfl)

include ht in
/-- The wanted source is selected already, or none is: it is only written. -/
theorem keepThenSelect_traced (source : RtcSource) {p u : Part} (hu : BackupReady u)
    (hsame : Word.AgreeOn (~~~StatusFlag.statusOf .bdcr) (u.peek .bdcr) (p.peek .bdcr))
    (hkeeps : ¬Replaces source p) :
    Traced (simulated t) patience
      (liftM (Driver.writeField .bdcr Bdcr.rtcSource source.code) : Setup Unit).run u
      (fun result events q => RtcSelected source p result q ∧
        ∀ e ∈ events, ¬e.access.ResetsDomain) := by
  refine (Traced.of_ensures (writeRtcSource_ensures ht source hu)).imp ?_
  rintro _ events q ⟨hevents, rfl, hq, hcode⟩
  refine ⟨.of_write hu (hsame.mono (by decide)) (fun h => absurd h hkeeps) hq hcode, ?_⟩
  rintro e he ⟨v, hwrite, hbit⟩
  rw [hevents e he v hwrite] at hbit
  cases hbit

include ht in
/-- The selection in an open domain. -/
theorem replaceRtcSource_traced (source : RtcSource) {p : Part} (hp : BackupReady p) :
    Traced (simulated t) patience (replaceRtcSource source).run p (fun result events q =>
      RtcSelected source p result q ∧
      ∀ e ∈ events, e.access.ResetsDomain → Replaces source p) := by
  have htick : Confined .none p (p.tick .bdcr) := .tick .none p .bdcr
  have hready : BackupReady (p.tick .bdcr) :=
    ⟨htick.unlocked rfl hp.1, htick.noDomainReset rfl hp.2⟩
  have hsame : Word.AgreeOn (~~~StatusFlag.statusOf .bdcr) ((p.tick .bdcr).peek .bdcr)
      (p.peek .bdcr) := htick.steady .bdcr (Footprint.covers_bdcr rfl hp.2)
  unfold replaceRtcSource
  refine .setupBind (R := fun current events u =>
    current = .ok (Bdcr.rtcSource.get (p.peek .bdcr)) ∧
      events = [⟨p, .read .bdcr, p.tick .bdcr⟩] ∧ u = p.tick .bdcr)
    (.lift ⟨_, _, [], rfl, rfl, rfl, rfl⟩) ?_ (fun _ _ _ h => by cases h.1)
  rintro _ _ _ ⟨⟨⟩, rfl, rfl⟩
  dsimp only
  split
  · next hreplaces =>
    refine (Traced.of_ensures (resetThenSelect_ensures ht source hready hsame)).imp ?_
    exact fun _ _ q hq => ⟨hq.2, fun _ _ _ => hreplaces⟩
  · next hkeeps =>
    refine (keepThenSelect_traced ht source hready hsame hkeeps).imp ?_
    rintro _ events q ⟨hq, hquiet⟩
    refine ⟨hq, List.forall_mem_append.mpr ⟨List.forall_mem_singleton.mpr fun hresets => ?_, ?_⟩⟩
    · exact absurd hresets (not_resetsDomain rfl)
    · exact fun e he hresets => absurd hresets (hquiet e he)

include ht in
theorem selectRtcSource_traced (source : RtcSource) {p : Part} (hp : p.NoDomainReset) :
    Traced (simulated t) patience (selectRtcSource source).run p (fun result events q =>
      RtcSelected source p result q ∧
      ∀ e ∈ events, e.access.ResetsDomain → Replaces source p) := by
  rw [selectRtcSource_eq]
  refine .setupBind ((access_traced t p).calling access_spares) ?_ ?_
  · rintro _ before q ⟨hbefore, hword, hopen, -⟩
    have hready : BackupReady q := ⟨hopen rfl, by rwa [Part.NoDomainReset, hword]⟩
    refine (replaceRtcSource_traced ht source hready).imp ?_
    rintro result events u ⟨hu, hresets⟩
    refine ⟨hu.of_start_eq hword, List.forall_mem_append.mpr ⟨fun e he h => ?_, ?_⟩⟩
    · exact absurd h (not_resetsDomain (hbefore e he))
    · rwa [Replaces, hword] at hresets
  · rintro why before q ⟨hbefore, hword, -, hwhy⟩
    obtain rfl := hwhy why rfl
    exact ⟨.of_refused hp hword, fun e he h => absurd h (not_resetsDomain (hbefore e he))⟩

include ht in
/-- The converter's divider is in another register. -/
theorem optionalAdc_traced (plan : PeripheralPlan) (p : Part) :
    Traced (simulated t) patience
      (optionally (plan.named.names .adc)
        (liftM (Driver.writeField .cfgr Cfgr.adcpre plan.adc.code) : Setup Unit)).run p
      (fun result events q => q.peek .bdcr = p.peek .bdcr ∧
        (∀ e ∈ events, e.access.among [.cfgr] = true) ∧ result = .ok ()) := by
  have hcalls : (optionally (plan.named.names .adc)
      (liftM (Driver.writeField .cfgr Cfgr.adcpre plan.adc.code) : Setup Unit)).run.CallsOnly
        (Access.among [.cfgr]) := .optionally (.lift (.modify rfl fun _ => rfl))
  have hwrite : Confines t patience (.only .cfgr Cfgr.adcpre.mask)
      (Driver.writeField .cfgr Cfgr.adcpre plan.adc.code) := .writeField ht _ (by decide)
  have hends : Traced (simulated t) patience (optionally (plan.named.names .adc)
      (liftM (Driver.writeField .cfgr Cfgr.adcpre plan.adc.code) : Setup Unit)).run p
        (fun result _ _ => result = .ok ()) :=
    .optionally (fun _ => .lift ((Traced.of_ensures (hwrite p)).imp fun _ _ _ _ => rfl))
      (fun _ => rfl)
  exact (hends.calling hcalls).keeping hcalls
    (Part.peek_keeps t (by simp) (by rintro ⟨u, h⟩; cases h) (p.peek .bdcr)) rfl

include ht in
/-- To select the source of the real-time clock keeps the rest of the backup
domain, on a part that has no stuck bits and whose domain is out of reset.

After a success the source is selected, and a crystal that was on runs again if
the domain had to be reset. If the crystal does not come back in time, no source
is selected and the converter is not configured. Whatever the result, the other
bits of the domain are as they were, and it was reset only if another source
was selected before. -/
theorem configurePeripheralClocks_keeps_domain (patience : Nat) {plan : PeripheralPlan}
    (hnamed : plan.named.names .rtc = true) {p : Part} (hp : p.NoDomainReset) :
    ∃ result q, Setup.EndsIn t patience (configurePeripheralClocks plan) p result q ∧
      RtcSelected plan.rtc p result q ∧
      ∀ e ∈ (configurePeripheralClocks plan).run.history (simulated t) patience p,
        (e.access.ResetsDomain → Replaces plan.rtc p) ∧
          ∀ why, result = .error why → e.access.writes .cfgr = false := by
  have hselect : Traced (simulated t) patience
      (optionally (plan.named.names .rtc) (selectRtcSource plan.rtc)).run p _ :=
    .optionally (fun _ => (selectRtcSource_traced ht plan.rtc hp).calling
      (selectRtcSource_among plan.rtc)) (fun hskip => by rw [hnamed] at hskip; cases hskip)
  have hall : Traced (simulated t) patience (configurePeripheralClocks plan).run p
      (fun result events q => RtcSelected plan.rtc p result q ∧ ∀ e ∈ events,
        (e.access.ResetsDomain → Replaces plan.rtc p) ∧
          ∀ why, result = .error why → e.access.writes .cfgr = false) := by
    rw [configurePeripheralClocks_eq]
    refine .setupBind hselect ?_ ?_
    · rintro _ before q ⟨-, hq, hresets⟩
      refine (optionalAdc_traced ht plan q).imp ?_
      rintro _ after u ⟨hu, hcalls, rfl⟩
      refine ⟨hq.of_peek_eq hu, List.forall_mem_append.mpr ⟨?_, ?_⟩⟩
      · exact fun e he => ⟨hresets e he, nofun⟩
      · rintro e he
        refine ⟨?_, nofun⟩
        rintro ⟨v, hwrite, -⟩
        have hcall := hcalls e he
        rw [hwrite] at hcall
        cases hcall
    · rintro why before q ⟨hcalls, hq, hresets⟩
      exact ⟨hq, fun e he =>
        ⟨hresets e he, fun _ _ => Access.writes_of_among (by simp) (hcalls e he)⟩⟩
  obtain ⟨result, q, log, hrun, hq, hevents⟩ := hall
  exact ⟨result, q, ⟨log, hrun⟩, hq, hevents⟩

end Hardware

/-- A part whose real-time clock runs from the internal oscillator, with the
watch crystal on and running. -/
def Part.onLsiClock : Part :=
  (powerOn bootVector).poke .bdcr 0x00008203

namespace Hardware

/-- There the board's plan replaces the source. The clock itself stays on, and
so does the crystal. -/
theorem configurePeripheralClocks_keeps_domain_onLsiClock :
    Temper.prompt.Unlatched ∧ Plan.board.peripherals.named.names .rtc = true ∧
    Part.onLsiClock.NoDomainReset ∧ Replaces Plan.board.peripherals.rtc .onLsiClock ∧
    ∃ q, Setup.EndsIn .prompt 0 (configurePeripheralClocks Plan.board.peripherals) .onLsiClock
        (.ok ()) q ∧
      DomainKept .onLsiClock q ∧ Bdcr.rtcSource.get (q.peek .bdcr) = RtcSource.lse.code ∧
      (q.peek .bdcr).has Bdcr.lseReady = true := by
  have hnamed : Plan.board.peripherals.named.names .rtc = true := by decide +kernel
  have hreset : Part.onLsiClock.NoDomainReset := by decide +kernel
  have hreplaces : Replaces Plan.board.peripherals.rtc .onLsiClock := by
    unfold Replaces
    decide +kernel
  obtain ⟨q, hends⟩ : ∃ q, Setup.EndsIn .prompt 0
      (configurePeripheralClocks Plan.board.peripherals) .onLsiClock (.ok ()) q :=
    Setup.endsIn_of_any (by decide +kernel)
  obtain ⟨_, _, hends', hq, -⟩ := configurePeripheralClocks_keeps_domain
    Temper.prompt_unlatched 0 hnamed hreset
  obtain ⟨rfl, rfl⟩ := hends.unique hends'
  exact ⟨Temper.prompt_unlatched, hnamed, hreset, hreplaces, q, hends, hq.kept, hq.selected rfl,
    hq.restarted rfl hreplaces (by decide +kernel)⟩

end Hardware

end BringUp
