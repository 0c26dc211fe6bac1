import BringUp.Proofs.Footprints
import BringUp.Proofs.OpenRegisters

/-!
The source of the system clock, and the PLL behind it.

* `Part.Settled`: the system clock runs from the source that is requested.
* `Cfgr.Drives`: an oscillator feeds the system clock, directly or through the
  PLL.
* `PllStep`, `PllDone`: what an access of the PLL's driver may do, and what
  the driver leaves behind.

Main statements: the driver asks the right question about an oscillator in use
(`drivesSysclk_ensures`), and the PLL is only ever set while it is off, and
never while the system clock runs from it (`configurePll_ensures`).
-/

namespace BringUp

open Clock

/-- The system clock runs from the source that is requested. -/
def Part.Settled (p : Part) : Prop :=
  Cfgr.sw.get (p.peek .cfgr) = Cfgr.sws.get (p.peek .cfgr)

instance (p : Part) : Decidable p.Settled :=
  inferInstanceAs (Decidable (_ = _))

/-- A part that runs from the PLL at the board's frequency. -/
def Part.onPll : Part :=
  ((powerOn bootVector).poke .cr 0x03030083).poke .cfgr 0x001D840A

/-- The PLL is neither switched on nor ready. -/
def Part.PllStopped (p : Part) : Prop :=
  p.peek .cr &&& (Cr.pllOn ||| Cr.pllReady) = 0

/-- The bits that set the PLL. -/
def Part.pllSetting (p : Part) : Word :=
  p.peek .cfgr &&& Cfgr.pll

namespace Clock.Cfgr

/-- The input that the PLL is set to. -/
def pllInput (cfgr : Word) : PllSource :=
  if cfgr.has pllSource then .hse else .hsiDiv2

/-- The oscillator feeds the system clock, directly or through the PLL. -/
def Drives (source : SysclkSource) (input : PllSource) (cfgr : Word) : Prop :=
  running cfgr = source ∨ running cfgr = .pll ∧ pllInput cfgr = input

instance (source : SysclkSource) (input : PllSource) (cfgr : Word) :
    Decidable (Drives source input cfgr) :=
  inferInstanceAs (Decidable (_ ∨ _))

end Clock.Cfgr

namespace Confined

variable {m : Footprint} {p q : Part}

theorem settled (h : Confined m p q)
    (hm : m .cfgr &&& (Cfgr.sw.mask ||| Cfgr.sws.mask) = 0) (hp : p.Settled) :
    q.Settled := by
  unfold Part.Settled at hp ⊢
  rw [h.sw_eq hm, h.sws_of_settled hm hp, hp]

/-- With its source settled, the configuration keeps everything outside the
footprint, the source included. -/
theorem cfgr_of_settled (h : Confined m p q)
    (hm : m .cfgr &&& (Cfgr.sw.mask ||| Cfgr.sws.mask) = 0) (hp : p.Settled) :
    Word.AgreeOn (~~~m .cfgr) (q.peek .cfgr) (p.peek .cfgr) := by
  have hsteady : Word.AgreeOn (~~~(m .cfgr ||| StatusFlag.statusOf .cfgr)) _ _ :=
    h.steady .cfgr (Footprint.covers_of_ne Register.cfgr_open.notUsart Register.cfgr_open.ne_bdcr)
  have hsource : Word.AgreeOn Cfgr.sws.mask (q.peek .cfgr) (p.peek .cfgr) :=
    .of_get (h.sws_of_settled hm hp) (by decide)
  have hstatus : StatusFlag.statusOf .cfgr = Cfgr.sws.mask := by decide
  refine (hsteady.union hsource).mono ?_
  rw [hstatus]
  ext i hi
  simp only [BitVec.getElem_and, BitVec.getElem_or, BitVec.getElem_not]
  cases (m .cfgr)[i] <;> cases Cfgr.sws.mask[i] <;> rfl

theorem pllSetting_eq (h : Confined m p q) (hm : m .cfgr &&& Cfgr.pll = 0) :
    q.pllSetting = p.pllSetting :=
  h.agreeOn_open Register.cfgr_open (Word.or_and_eq_zero hm (by decide))

/-- A PLL that is off stays off: its flag has nothing to follow. -/
theorem pllStopped (h : Confined m p q) (hm : m .cr &&& (Cr.pllOn ||| Cr.pllReady) = 0)
    (hp : p.PllStopped) : q.PllStopped := by
  have hparts := (Word.and_or_eq_zero_iff _ _ _).mp hm
  unfold Part.PllStopped at hp ⊢
  rw [Word.and_or_eq_zero_iff] at hp ⊢
  refine ⟨?_, ?_⟩
  · exact Eq.trans (h.agreeOn_open Register.cr_open (Word.or_and_eq_zero hparts.1 (by decide))) hp.1
  · have hcover : m.Covers p StatusFlag.pll.register :=
      Footprint.covers_of_ne Register.cr_open.notUsart Register.cr_open.ne_bdcr
    rcases h.shown .pll hcover hm with hkept | hsettled
    · exact Eq.trans hkept hp.2
    · have hwanted : StatusFlag.pll.wanted (p.peek .cr) = 0 := by
        change (p.peek .cr &&& Cr.pllOn) <<< 1 = 0
        rw [hp.1]
        rfl
      exact Eq.trans hsettled hwanted

end Confined

namespace Hardware

variable {t : Temper} (ht : t.Unlatched) {patience : Nat}

/-! ## The source of the system clock -/

/-- The source is that of the present word. A switch under way may be over
afterwards. -/
theorem sysclkStatus_ensures {G : Event Part → Prop} {p : Part}
    {Q : SysclkSource → Part → Prop}
    (hG : ∀ q, Confined .none p q → G ⟨p, .read .cfgr, q⟩)
    (hQ : ∀ q, Confined .none p q → Q (Cfgr.running (p.peek .cfgr)) q) :
    Ensures (simulated t) patience G sysclkStatus p Q :=
  .readDecoded hG hQ

/-- The driver tells whether an oscillator feeds the system clock. -/
theorem drivesSysclk_ensures (p : Part) (source : SysclkSource)
    (input : PllSource) :
    Ensures (simulated t) patience
      (fun e => Confined .none p e.before ∧ Confined .none p e.after)
      (drivesSysclk source input) p
      (fun drives q => Confined .none p q ∧
        drives = decide (Cfgr.Drives source input (p.peek .cfgr))) := by
  unfold drivesSysclk Cfgr.Drives
  refine .bind (R := fun status q => status = Cfgr.running (p.peek .cfgr) ∧
      Confined .none p q) ?_ ?_
  · exact sysclkStatus_ensures (fun q hq => ⟨.refl _ p, hq⟩) (fun q hq => ⟨rfl, hq⟩)
  · rintro _ q ⟨rfl, hq⟩
    by_cases hsource : Cfgr.running (p.peek .cfgr) = source
    · rw [if_pos hsource]
      exact .pure ⟨hq, by simp [hsource]⟩
    · rw [if_neg hsource]
      by_cases hpll : Cfgr.running (p.peek .cfgr) = .pll
      · rw [if_pos hpll]
        have htick := hq.trans (Confined.tick .none q .cfgr)
        have hsame : (q.peek .cfgr).has Cfgr.pllSource = (p.peek .cfgr).has Cfgr.pllSource :=
          (hq.agreeOn_open Register.cfgr_open (by decide)).has (BitVec.and_self)
        refine .bind (R := fun input' q' => Confined .none p q' ∧
          input' = Cfgr.pllInput (p.peek .cfgr)) ?_ ?_
        · refine .bind (.isSet ⟨hq, htick⟩ (Q := fun b q' => Confined .none p q' ∧
            b = (p.peek .cfgr).has Cfgr.pllSource) ⟨htick, hsame⟩) ?_
          rintro _ q' ⟨hq', rfl⟩
          exact .pure ⟨hq', rfl⟩
        · rintro _ q' ⟨hq', rfl⟩
          refine .pure ⟨hq', ?_⟩
          rw [hpll] at hsource
          simp [hpll, hsource]
      · rw [if_neg hpll]
        exact .pure ⟨hq, by simp [hsource, hpll]⟩

/-! ## Setting the PLL -/

/-- The PLL is set as it was in `p`, or as the plan wants it. -/
def Programmed (wanted : Option PllSetting) (divider : HseDivider) (p q : Part) : Prop :=
  q.pllSetting = p.pllSetting ∨
    ∃ s, wanted = some s ∧ s.inRange = true ∧ q.pllSetting = s.code divider

/-- One access on the way from `p`: it keeps to the PLL's bits, and it sets
the PLL only to what is wanted and only while it is off. -/
structure PllStep (wanted : Option PllSetting) (divider : HseDivider) (p : Part)
    (e : Event Part) : Prop where
  before : Confined Footprint.pll p e.before
  after : Confined Footprint.pll p e.after
  programmed : Programmed wanted divider p e.after
  stopped : e.after.pllSetting ≠ e.before.pllSetting →
    (∃ v, e.access = .write .cfgr v) ∧ e.before.PllStopped

/-- What the driver leaves behind: after a success the PLL is set as the plan
wants it. -/
structure PllDone (wanted : Option PllSetting) (divider : HseDivider) (p : Part)
    (result : SetupResult) (q : Part) : Prop where
  confined : Confined Footprint.pll p q
  programmed : Programmed wanted divider p q
  reached : result = .ok () → ∀ s, wanted = some s →
    s.inRange = true ∧ q.pllSetting = s.code divider

variable {wanted : Option PllSetting} {divider : HseDivider}

/-- The switch of the PLL is part of what its driver may change. -/
theorem pllSwitch_within : (Footprint.only .cr Cr.pllOn).Within Footprint.pll :=
  Footprint.only_within (by decide)

/-- Accesses that leave the setting alone, from a state on the way. -/
theorem PllStep.of_switch {p q : Part} {e : Event Part} (hq : Confined Footprint.pll p q)
    (hset : Programmed wanted divider p q)
    (hb : Confined (.only .cr Cr.pllOn) q e.before)
    (ha : Confined (.only .cr Cr.pllOn) q e.after) : PllStep wanted divider p e := by
  have hcfgr : Footprint.only .cr Cr.pllOn .cfgr &&& Cfgr.pll = 0 := by decide
  have hbefore := hb.pllSetting_eq hcfgr
  have hafter := ha.pllSetting_eq hcfgr
  refine ⟨hq.trans (hb.mono pllSwitch_within), hq.trans (ha.mono pllSwitch_within), ?_, ?_⟩
  · unfold Programmed
    rw [hafter]
    exact hset
  · intro hne
    rw [hbefore, hafter] at hne
    exact absurd rfl hne

theorem Programmed.of_switch {p q q' : Part} (hset : Programmed wanted divider p q)
    (h : Confined (.only .cr Cr.pllOn) q q') : Programmed wanted divider p q' := by
  unfold Programmed
  rw [h.pllSetting_eq (by decide)]
  exact hset

/-- The first half of the driver: the PLL is switched off. -/
def stopPll : Setup Unit := do
  Driver.clearBits .cr Cr.pllOn
  Setup.waitClear .cr Cr.pllReady .pll Budget.pll

/-- The second half: the PLL is set and switched on, if it is wanted. -/
def startPll (wanted : Option PllSetting) (divider : HseDivider) : Setup Unit := do
  match wanted with
  | none => return ()
  | some pll =>
      Driver.modify .cfgr fun cfgr => (cfgr &&& ~~~Cfgr.pll) ||| pll.code divider
      Driver.setBits .cr Cr.pllOn
      Setup.waitSet .cr Cr.pllReady .pll Budget.pll

theorem restartPll_eq (wanted : Option PllSetting) (divider : HseDivider) :
    restartPll wanted divider = stopPll >>= fun _ => startPll wanted divider := by
  unfold stopPll
  rw [bind_assoc]
  rfl

include ht in
/-- After a success the PLL is off and not ready. -/
theorem stopPll_ensures (p : Part) :
    Ensures (simulated t) patience
      (fun e => Confined (.only .cr Cr.pllOn) p e.before ∧
        Confined (.only .cr Cr.pllOn) p e.after) stopPll.run p
      (fun result q => Confined (.only .cr Cr.pllOn) p q ∧
        (result = .ok () → q.PllStopped)) := by
  have hclear : ∀ w : Word, Word.AgreeOn (~~~Cr.pllOn) (w &&& ~~~Cr.pllOn) w :=
    fun w => Word.agreeOn_andNot w (by decide)
  refine .setupBind (R := fun _ q => Confined (.only .cr Cr.pllOn) p q ∧
    q.peek .cr &&& Cr.pllOn = 0) ?_ ?_ ?_
  · refine .lift (.modifyOpen ht Register.cr_open hclear ?_ ?_)
    · intro q hq
      exact ⟨.refl _ p, hq.of_none⟩
    · intro q q' hq hq' hagree
      refine ⟨⟨hq.of_none, hq'⟩, hq', ?_⟩
      rw [hagree.and_eq (by decide), BitVec.and_assoc]
      simp
  · intro _ q hq
    obtain ⟨hq, hoff⟩ := hq
    refine .waitUntil (I := fun u => Confined (.only .cr Cr.pllOn) p u ∧
      u.peek .cr &&& Cr.pllOn = 0) ⟨hq, hoff⟩ ?_ ?_ ?_
    · intro u hu
      obtain ⟨hu, hoff⟩ := hu
      have htick := hu.trans (Confined.tick _ u .cr)
      refine ⟨⟨hu, htick⟩, htick, ?_⟩
      have hkept : Word.AgreeOn Cr.pllOn ((u.tick .cr).peek .cr) (u.peek .cr) :=
        (Confined.tick .none u .cr).agreeOn_open Register.cr_open (by decide)
      exact Eq.trans hkept hoff
    · intro u hu haccept
      obtain ⟨hu, hoff⟩ := hu
      refine ⟨hu.trans (Confined.tick _ u .cr), fun _ => ?_⟩
      have hready : u.peek .cr &&& Cr.pllReady = 0 := by
        simpa [Word.has, simulated, Part.read] using haccept
      have hstopped : u.PllStopped := by
        rw [Part.PllStopped, Word.and_or_eq_zero_iff]
        exact ⟨hoff, hready⟩
      exact (Confined.tick .none u .cr).pllStopped (by decide) hstopped
    · intro u hu
      obtain ⟨hu, _⟩ := hu
      exact ⟨hu, fun h => by cases h⟩
  · intro e q h
    exact ⟨h.1, fun h => by cases h⟩

/-- To put in a setting leaves the other bits alone. -/
theorem agreeOn_programmed (s : PllSetting) (divider : HseDivider) (w : Word) :
    Word.AgreeOn (~~~Cfgr.pll) ((w &&& ~~~Cfgr.pll) ||| s.code divider) w := by
  have hbits : s.code divider &&& ~~~Cfgr.pll = 0 := by
    rw [← PllSetting.code_and_pll, BitVec.and_assoc]
    simp
  exact (Word.agreeOn_or _ hbits).trans (Word.agreeOn_andNot w (by decide))

include ht in
/-- A PLL that is off is set. -/
theorem programPll_ensures {s : PllSetting} {p q : Part} (hq : Confined (.only .cr Cr.pllOn) p q)
    (hstopped : q.PllStopped) (hrange : s.inRange = true) :
    Ensures (simulated t) patience (PllStep (some s) divider p)
      (Driver.modify .cfgr fun cfgr => (cfgr &&& ~~~Cfgr.pll) ||| s.code divider) q
      (fun _ u => Confined Footprint.pll p u ∧ u.pllSetting = s.code divider) := by
  have hpq : Confined Footprint.pll p q := hq.mono pllSwitch_within
  have hset : Programmed (some s) divider p q := .inl (hq.pllSetting_eq (by decide))
  have hwithin : (Footprint.only .cfgr Cfgr.pll).Within Footprint.pll :=
    Footprint.only_within (by decide)
  refine .modifyOpen ht Register.cfgr_open (agreeOn_programmed s divider) ?_ ?_
  · exact fun u hu => .of_switch hpq hset (.refl _ q) (hu.of_none)
  · intro u u' hu hu' hagree
    have hnew : u'.pllSetting = s.code divider := by
      unfold Part.pllSetting
      rw [hagree.and_eq (by decide)]
      exact Word.replaced_and _ _ _ (s.code_and_pll divider)
    have hpu' : Confined Footprint.pll p u' := hpq.trans (hu'.mono hwithin)
    refine ⟨⟨hpq.trans (hu.of_none), hpu', .inr ⟨s, rfl, hrange, hnew⟩, fun _ => ⟨⟨_, rfl⟩, ?_⟩⟩,
      hpu', hnew⟩
    exact hu.pllStopped (by decide) hstopped

include ht in
/-- A PLL that is off is set once, as it is wanted, and then switched on. -/
theorem startPll_ensures {p q : Part} (hq : Confined (.only .cr Cr.pllOn) p q)
    (hstopped : q.PllStopped) (hrange : ∀ s, wanted = some s → s.inRange = true) :
    Ensures (simulated t) patience (PllStep wanted divider p)
      (startPll wanted divider).run q (PllDone wanted divider p) := by
  unfold startPll
  cases wanted with
  | none =>
      exact .setupPure ⟨hq.mono pllSwitch_within, .inl (hq.pllSetting_eq (by decide)),
        fun _ s hs => by cases hs⟩
  | some s =>
      refine .setupBind (R := fun result u => result = .ok () ∧ Confined Footprint.pll p u ∧
        u.pllSetting = s.code divider)
        (.lift ((programPll_ensures ht hq hstopped (hrange s rfl)).imp fun _ _ hu => ⟨rfl, hu⟩)) ?_
        (fun _ _ hu => by cases hu.1)
      rintro _ u ⟨-, hu, hnew⟩
      have hset : Programmed (some s) divider p u := .inr ⟨s, rfl, hrange s rfl, hnew⟩
      have hswitch : Confines t patience (.only .cr Cr.pllOn)
          (Driver.setBits .cr Cr.pllOn >>= fun _ =>
            Setup.waitSet .cr Cr.pllReady .pll Budget.pll : Setup Unit).run :=
        .setupBind (.lift (.setBits ht (by decide))) fun _ => .waitUntil _ _ _ _
      refine (hswitch u).mono (fun e he => .of_switch hu hset he.1 he.2) ?_
      intro result v hv
      refine ⟨hu.trans (hv.mono pllSwitch_within), hset.of_switch hv, ?_⟩
      rintro _ _ ⟨⟩
      exact ⟨hrange s rfl, (hv.pllSetting_eq (by decide)).trans hnew⟩

include ht in
theorem restartPll_ensures {p q : Part} (hq : Confined .none p q)
    (hrange : ∀ s, wanted = some s → s.inRange = true) :
    Ensures (simulated t) patience (PllStep wanted divider p)
      (restartPll wanted divider).run q (PllDone wanted divider p) := by
  have hset : Programmed wanted divider p q := .inl (hq.pllSetting_eq (by decide))
  rw [restartPll_eq]
  refine .setupBind (R := fun result u => Confined (.only .cr Cr.pllOn) p u ∧
    (result = .ok () → u.PllStopped)) ?_ ?_ ?_
  · refine (stopPll_ensures ht q).mono (fun e he => .of_switch (hq.of_none) hset he.1 he.2) ?_
    intro result u hu
    exact ⟨(hq.of_none).trans hu.1, hu.2⟩
  · intro _ u hu
    exact startPll_ensures ht hu.1 (hu.2 rfl) hrange
  · intro e u hu
    refine ⟨hu.1.mono pllSwitch_within, .inl (hu.1.pllSetting_eq (by decide)), ?_⟩
    intro h
    cases h

/-- A PLL that drives the system clock is only read. -/
theorem keepPll_ensures {p q : Part} (hq : Confined .none p q)
    (hrange : ∀ s, wanted = some s → s.inRange = true) :
    Ensures (simulated t) patience
      (fun e => Confined .none p e.before ∧ Confined .none p e.after)
      (keepPll wanted divider).run q
      (fun result u => Confined .none p u ∧ PllDone wanted divider p result u) := by
  have hdone : ∀ {u : Part} {result : SetupResult}, Confined .none p u →
      (result = .ok () → ∀ s, wanted = some s → u.pllSetting = s.code divider) →
      Confined .none p u ∧ PllDone wanted divider p result u := by
    intro u result hu hreached
    refine ⟨hu, hu.of_none, .inl (hu.pllSetting_eq (by decide)), ?_⟩
    intro hok s hs
    exact ⟨hrange s hs, hreached hok s hs⟩
  unfold keepPll
  cases wanted with
  | none => exact .throw (hdone hq (fun h => by cases h))
  | some s =>
      have htick := hq.trans (Confined.tick .none q .cfgr)
      have hsame : (q.tick .cfgr).pllSetting = q.pllSetting :=
        (Confined.tick .none q .cfgr).pllSetting_eq (by decide)
      refine .setupBind (R := fun word u => Confined .none p u ∧
        ∀ w, word = .ok w → w &&& Cfgr.pll = u.pllSetting) ?_ ?_ ?_
      · refine .lift (.read ⟨hq, htick⟩ ⟨htick, ?_⟩)
        rintro _ ⟨⟩
        exact hsame.symm
      · intro w u hu
        obtain ⟨hu, hw⟩ := hu
        split
        · next hcode =>
          refine .setupPure (hdone hu ?_)
          rintro _ s' ⟨⟩
          rw [← hw w rfl, hcode]
        · exact .throw (hdone hu (fun h => by cases h))
      · intro e u hu
        exact hdone hu.1 (fun h => by cases h)

/-- Only a multiplier that the PLL has gets past the first check. -/
theorem requireMultiplier_ensures {G : Event Part → Prop} (p : Part) :
    Ensures (simulated t) patience G (requireMultiplier wanted).run p
      (fun result q => q = p ∧
        (result = .ok () → ∀ s, wanted = some s → s.inRange = true)) := by
  unfold requireMultiplier
  cases wanted with
  | none => exact .setupPure ⟨rfl, fun _ s hs => by cases hs⟩
  | some s =>
      by_cases hs : s.inRange = true
      · simp only [hs, if_true]
        refine .setupPure ⟨rfl, ?_⟩
        rintro _ s' ⟨⟩
        exact hs
      · simp only [hs]
        exact .throw ⟨rfl, fun h => by cases h⟩

include ht in
/-- The PLL is set at most once and only while it is off, and nothing at all is
changed while the system clock runs from it. After a success it is set as it
is wanted. -/
theorem configurePll_ensures (wanted : Option PllSetting) (divider : HseDivider)
    (p : Part) :
    Ensures (simulated t) patience
      (fun e => PllStep wanted divider p e ∧ (Cfgr.running (p.peek .cfgr) = .pll →
        Confined .none p e.before ∧ Confined .none p e.after))
      (configurePll wanted divider).run p
      (fun result q => PllDone wanted divider p result q ∧
        (Cfgr.running (p.peek .cfgr) = .pll → Confined .none p q)) := by
  have hself : Confined .none p p := .refl _ p
  have hread : ∀ e : Event Part, Confined .none p e.before → Confined .none p e.after →
      PllStep wanted divider p e := by
    intro e hb ha
    exact .of_switch (.refl _ p) (.inl rfl) (hb.of_none)
      (ha.of_none)
  have herror : ∀ (e : SetupError) (q : Part), Confined .none p q →
      PllDone wanted divider p (.error e) q := by
    intro e q hq
    exact ⟨hq.of_none, .inl (hq.pllSetting_eq (by decide)),
      fun h => by cases h⟩
  unfold configurePll
  refine .setupBind (requireMultiplier_ensures p) ?_ ?_
  · rintro _ q ⟨rfl, hrange⟩
    refine .setupBind (R := fun status u => Confined .none q u ∧
      ∀ s, status = .ok s → s = Cfgr.running (q.peek .cfgr)) ?_ ?_ ?_
    · refine .lift (sysclkStatus_ensures (fun u hu => ?_) (fun u hu => ⟨hu, ?_⟩))
      · exact ⟨hread _ hself hu, fun _ => ⟨hself, hu⟩⟩
      · rintro _ ⟨⟩
        rfl
    · intro status u hu
      obtain ⟨hu, hstatus⟩ := hu
      have hrunning := hstatus status rfl
      by_cases hpll : status = .pll
      · rw [if_pos hpll]
        refine (keepPll_ensures hu (hrange rfl)).mono ?_ ?_
        · exact fun e he => ⟨hread e he.1 he.2, fun _ => he⟩
        · exact fun result v hv => ⟨hv.2, fun _ => hv.1⟩
      · rw [if_neg hpll]
        have hother : Cfgr.running (q.peek .cfgr) ≠ .pll := by
          rw [← hrunning]
          exact hpll
        refine (restartPll_ensures ht hu (hrange rfl)).mono ?_ ?_
        · exact fun e he => ⟨he, fun h => absurd h hother⟩
        · exact fun result v hv => ⟨hv, fun h => absurd h hother⟩
    · exact fun e u hu => ⟨herror e u hu.1, fun _ => hu.1⟩
  · rintro e q ⟨rfl, -⟩
    exact ⟨herror e q hself, fun _ => hself⟩

end Hardware

end BringUp
