import BringUp.Proofs.OscillatorStages
import BringUp.Proofs.RegisterPlans

/-!
The PLL while the system clock runs from it.

* `Cfgr.Sets s divider cfgr`: read as the rates are read from it, the word sets
  the PLL to `s`, and if that is fed by the external oscillator then behind
  `divider`.
* `Cfgr.Canonical cfgr`: the PLL's bits are as they are written for a setting.

Main statements: a word has the bits of a setting exactly if it sets it and is
canonical (`Cfgr.code_iff`). So the driver leaves a PLL in use alone, and it
succeeds exactly if the word sets the wanted setting and is canonical
(`configurePll_inUse`). A word may set it otherwise, and then the driver refuses
the setting that the PLL has (`aliased_setting_refused`).

There are two ways to set the same PLL in other bits: the largest code of the
multiplier is a second name of 16, and the halver in front of the PLL does not
matter to the internal oscillator.
-/

namespace BringUp

open Clock

namespace Clock.Cfgr

/-- The word sets the PLL to `s`. The divider in front of the PLL only matters
for the external oscillator. -/
def Sets (s : PllSetting) (divider : HseDivider) (cfgr : Word) : Prop :=
  pllSetting cfgr = s ∧ (s.source = .hse → hseDivider cfgr = divider)

/-- Neither is the multiplier 16 by its second name, nor is the halver set for
nothing. -/
def Canonical (cfgr : Word) : Prop :=
  pllMultiplier.get cfgr ≠ 15 ∧ (pllInput cfgr = .hsiDiv2 → cfgr.has pllHalved = false)

instance (s : PllSetting) (divider : HseDivider) (cfgr : Word) : Decidable (Sets s divider cfgr) :=
  inferInstanceAs (Decidable (_ ∧ _))

instance (cfgr : Word) : Decidable (Canonical cfgr) :=
  inferInstanceAs (Decidable (_ ∧ _))

/-! ## A setting, read and written -/

section Reading

variable {cfgr : Word} {s : PllSetting} {divider : HseDivider}

theorem pllInput_eq_iff :
    pllInput cfgr = s.source ↔ cfgr.has pllSource = decide (s.source = .hse) := by
  unfold pllInput
  cases cfgr.has pllSource <;> cases s.source <;> decide

theorem hseDivider_eq_iff :
    hseDivider cfgr = divider ↔ cfgr.has pllHalved = decide (divider = .div2) := by
  unfold hseDivider
  cases cfgr.has pllHalved <;> cases divider <;> decide

theorem pllSetting_eq_iff :
    pllSetting cfgr = s ↔ pllInput cfgr = s.source ∧ pllFactor cfgr = s.multiplier.toNat := by
  constructor
  · rintro rfl
    exact ⟨rfl, (pllSetting_multiplier cfgr).symm⟩
  · rintro ⟨hinput, hfactor⟩
    have hmultiplier : (pllSetting cfgr).multiplier = s.multiplier := by
      apply BitVec.eq_of_toNat_eq
      rw [pllSetting_multiplier, hfactor]
    obtain ⟨source, multiplier⟩ := s
    exact (PllSetting.mk.injEq ..).mpr ⟨hinput, hmultiplier⟩

/-- The multiplier reads as its code exactly if it reads as itself and does not
go by its second name. -/
theorem multiplier_iff (hs : s.inRange = true) :
    pllMultiplier.get cfgr = pllMultiplier.get (s.code divider) ↔
      pllFactor cfgr = s.multiplier.toNat ∧ pllMultiplier.get cfgr ≠ 15 := by
  obtain ⟨hlow, hhigh⟩ := s.inRange_iff.mp hs
  have hle : (pllMultiplier.get cfgr).toNat ≤ 15 := pllMultiplier.toNat_get_le cfgr
  have halias : pllMultiplier.get cfgr ≠ 15 ↔ (pllMultiplier.get cfgr).toNat ≠ 15 :=
    not_congr BitVec.toNat_inj.symm
  rw [← BitVec.toNat_inj, code_get_multiplier s divider hs, halias, pllFactor]
  omega

/-- The halver reads as its code exactly if it is right for the external
oscillator and clear for the internal one. -/
theorem halved_iff (hinput : pllInput cfgr = s.source) :
    cfgr.has pllHalved = (s.code divider).has pllHalved ↔
      (s.source = .hse → hseDivider cfgr = divider) ∧
        (pllInput cfgr = .hsiDiv2 → cfgr.has pllHalved = false) := by
  rw [code_has_halved, hseDivider_eq_iff, hinput]
  cases s.source <;> simp

/-- A word has the bits of a setting exactly if it sets the PLL to it and is
canonical. -/
theorem code_iff (hs : s.inRange = true) :
    cfgr &&& pll = s.code divider ↔ Sets s divider cfgr ∧ Canonical cfgr := by
  rw [← agreeOn_code_iff, agreeOn_pll_iff, code_has_source, ← pllInput_eq_iff, multiplier_iff hs,
    Sets, pllSetting_eq_iff, Canonical]
  constructor
  · rintro ⟨hinput, hhalved, hfactor, halias⟩
    obtain ⟨hdivider, hclear⟩ := (halved_iff hinput).mp hhalved
    exact ⟨⟨⟨hinput, hfactor⟩, hdivider⟩, halias, hclear⟩
  · rintro ⟨⟨⟨hinput, hfactor⟩, hdivider⟩, halias, hclear⟩
    exact ⟨hinput, (halved_iff hinput).mpr ⟨hdivider, hclear⟩, hfactor, halias⟩

end Reading

end Clock.Cfgr

namespace Hardware

variable {t : Temper} {patience : Nat} {s : PllSetting} {divider : HseDivider} {p q : Part}

/-- A PLL in use is compared with the setting, bit by bit. -/
theorem keepPll_compares (hq : Confined .none p q) :
    Ensures (simulated t) patience (fun e => e.access = .read .cfgr)
      (keepPll (some s) divider).run q
      (fun result _ => (result = .ok () ∨ result = .error .pllInUse) ∧
        (result = .ok () ↔ p.pllSetting = s.code divider)) := by
  have hsame : q.peek .cfgr &&& Cfgr.pll = p.pllSetting := hq.pllSetting_eq (by decide)
  refine .setupBind (R := fun word _ => word = .ok (q.peek .cfgr)) (.lift (.read rfl rfl)) ?_
    (fun _ _ h => by cases h)
  rintro _ u ⟨⟩
  by_cases hcode : q.peek .cfgr &&& Cfgr.pll = s.code divider
  · rw [if_pos hcode]
    exact .setupPure ⟨.inl rfl, iff_of_true rfl (hsame.symm.trans hcode)⟩
  · rw [if_neg hcode]
    have hother : p.pllSetting ≠ s.code divider := fun h => hcode (hsame.trans h)
    exact .throw ⟨.inr rfl, iff_of_false (fun h => by cases h) hother⟩

/-- While the system clock runs from the PLL, a setting with a multiplier that
the PLL has is accepted or refused, and nothing is written. It is accepted
exactly if the present word sets the PLL to it and is canonical. -/
theorem configurePll_inUse (t : Temper) (patience : Nat) (hlow : 2 ≤ s.multiplier.toNat)
    (hhigh : s.multiplier.toNat ≤ 16) (divider : HseDivider)
    (hp : Cfgr.running (p.peek .cfgr) = .pll) :
    ∃ result q, Setup.EndsIn t patience (configurePll (some s) divider) p result q ∧
      (∀ e ∈ (configurePll (some s) divider).run.history (simulated t) patience p,
        e.access = .read .cfgr) ∧
      (result = .ok () ∨ result = .error .pllInUse) ∧
      (result = .ok () ↔
        Cfgr.Sets s divider (p.peek .cfgr) ∧ Cfgr.Canonical (p.peek .cfgr)) := by
  have hrange : s.inRange = true := s.inRange_iff.mpr ⟨hlow, hhigh⟩
  have hcompares : Ensures (simulated t) patience (fun e => e.access = .read .cfgr)
      (configurePll (some s) divider).run p
      (fun result _ => (result = .ok () ∨ result = .error .pllInUse) ∧
        (result = .ok () ↔ p.pllSetting = s.code divider)) := by
    unfold configurePll
    refine .setupBind (R := fun result q => result = .ok () ∧ q = p) ?_ ?_
      (fun _ _ h => by cases h.1)
    · rw [requireMultiplier, if_pos hrange]
      exact .setupPure ⟨rfl, rfl⟩
    · rintro _ q ⟨-, rfl⟩
      refine .setupBind (R := fun status u => status = .ok .pll ∧ Confined .none q u)
        (.lift (sysclkStatus_ensures (fun _ _ => rfl) fun u hu => ⟨?_, hu⟩)) ?_
        (fun _ _ h => by cases h.1)
      · rw [hp]
      · rintro _ u ⟨⟨⟩, hu⟩
        rw [if_pos rfl]
        exact keepPll_compares hu
  obtain ⟨hreads, result, q, log, hrun, hresult, hcode⟩ := hcompares
  exact ⟨result, q, ⟨log, hrun⟩, hreads, hresult, hcode.trans (Cfgr.code_iff hrange)⟩

/-- The board's PLL is accepted as it is. Behind the other divider it would be
another one. -/
theorem configurePll_inUse_onPll :
    (∃ q, Setup.EndsIn .prompt 0 (configurePll (some ⟨.hse, 9⟩) .div1) .onPll (.ok ()) q) ∧
    ∃ q, Setup.EndsIn .prompt 0 (configurePll (some ⟨.hse, 9⟩) .div2) .onPll
      (.error .pllInUse) q := by
  have hp : Cfgr.running (Part.onPll.peek .cfgr) = .pll := by decide +kernel
  constructor
  · obtain ⟨_, q, hends, -, -, hok⟩ := configurePll_inUse (s := ⟨.hse, 9⟩) .prompt 0
      (by decide) (by decide) .div1 hp
    rw [hok.mpr (by decide +kernel)] at hends
    exact ⟨q, hends⟩
  · obtain ⟨_, q, hends, -, hresult, hok⟩ := configurePll_inUse (s := ⟨.hse, 9⟩) .prompt 0
      (by decide) (by decide) .div2 hp
    have hother : ¬(Cfgr.Sets ⟨.hse, 9⟩ .div2 (Part.onPll.peek .cfgr) ∧
        Cfgr.Canonical (Part.onPll.peek .cfgr)) := by decide +kernel
    rw [hresult.resolve_left fun h => hother (hok.mp h)] at hends
    exact ⟨q, hends⟩

end Hardware

/-- A part that runs from the PLL at sixteen times half of the internal
oscillator, with the multiplier by its second name. -/
def Part.onAliasedPll : Part :=
  Part.onPll.poke .cfgr 0x003C040A

/-- The same with the multiplier by its first name, but with the halver set. -/
def Part.onHalvedPll : Part :=
  Part.onPll.poke .cfgr 0x003A040A

namespace Hardware

/-- On both the driver refuses the setting that the PLL has. -/
theorem aliased_setting_refused :
    Cfgr.running (Part.onAliasedPll.peek .cfgr) = .pll ∧
    Cfgr.Sets ⟨.hsiDiv2, 16⟩ .div1 (Part.onAliasedPll.peek .cfgr) ∧
    (∃ q, Setup.EndsIn .prompt 0 (configurePll (some ⟨.hsiDiv2, 16⟩) .div1) .onAliasedPll
      (.error .pllInUse) q) ∧
    Cfgr.running (Part.onHalvedPll.peek .cfgr) = .pll ∧
    Cfgr.Sets ⟨.hsiDiv2, 16⟩ .div1 (Part.onHalvedPll.peek .cfgr) ∧
    ∃ q, Setup.EndsIn .prompt 0 (configurePll (some ⟨.hsiDiv2, 16⟩) .div1) .onHalvedPll
      (.error .pllInUse) q := by
  refine ⟨by decide +kernel, by decide +kernel, ?_, by decide +kernel, by decide +kernel, ?_⟩
  · exact Setup.endsIn_of_any (by decide +kernel)
  · exact Setup.endsIn_of_any (by decide +kernel)

end Hardware

end BringUp
