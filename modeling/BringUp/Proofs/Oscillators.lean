import BringUp.Proofs.Pll

/-!
The oscillators, and the one that the system clock runs from.

* `operateOscillators`: the stages of `configureOscillators` before the PLL.
* `SourceKept p q`: what feeds the system clock in `p` is in `q` as it was.
* `Footprint.beside`: what the driver may change beside the clocks in use.

Main statement: `configureOscillators` never pulls the clock away that the
system runs from, at no access and however it ends
(`configureOscillators_spares_source`).

The footprint depends on the source. It does not change on the way, because
the stages keep the source settled, and the only stage that may change the
PLL's input does so while the system clock does not run from the PLL.
-/

namespace BringUp

open Clock

/-- The PLL is set as the plan wants it. -/
def PllSet (plan : OscillatorPlan) (p : Part) : Prop :=
  ∀ s, plan.pll = some s → s.inRange = true ∧ p.pllSetting = s.code plan.hseDivider

namespace Hardware

/-! ## The stages before the PLL -/

/-- The oscillators that the plan names, one after the other. -/
def operateOscillators (plan : OscillatorPlan) : Setup Unit := do
  optionally (plan.named.names .hse) (configureHse plan.hse)
  optionally (plan.named.names .hsi) (configureHsi plan.hsi)
  optionally (plan.named.names .lsi) (configureLsi plan.lsi)
  optionally (plan.named.names .lse) (configureLse plan.lse)

theorem configureOscillators_eq (plan : OscillatorPlan) :
    configureOscillators plan =
      operateOscillators plan >>= fun _ => configurePll plan.pll plan.hseDivider := by
  unfold operateOscillators configureOscillators
  simp only [bind_assoc]
  simp only [optionally_bind]

variable {t : Temper} (ht : t.Unlatched) {patience : Nat}

include ht in
theorem operateOscillators_confines (plan : OscillatorPlan) :
    Confines t patience Footprint.oscillators (operateOscillators plan).run := by
  have hhse : Footprint.hse.Within Footprint.oscillators := by
    intro r
    cases r <;> first | decide | simp [Footprint.hse, Footprint.oscillators]
  have hhsi : Footprint.hsi.Within Footprint.oscillators := by
    intro r
    cases r <;> first | decide | simp [Footprint.hsi, Footprint.oscillators]
  have hlsi : Footprint.lsi.Within Footprint.oscillators := by
    intro r
    cases r <;> simp [Footprint.lsi, Footprint.oscillators]
  have hlse : Footprint.lse.Within Footprint.oscillators := by
    intro r
    cases r <;> simp [Footprint.lse, Footprint.access, Footprint.oscillators]
  unfold operateOscillators
  refine .setupBind (.optionally ((configureHse_confines ht _ _).mono hhse)) fun _ => ?_
  refine .setupBind (.optionally ((configureHsi_confines ht _ _).mono hhsi)) fun _ => ?_
  refine .setupBind (.optionally ((configureLsi_confines ht _ _).mono hlsi)) fun _ => ?_
  exact .optionally ((configureLse_confines ht _ _).mono hlse)

include ht in
/-- After a success the PLL is set as the plan wants it. -/
theorem configureOscillators_ensures (plan : OscillatorPlan) (p : Part) :
    Ensures (simulated t) patience (fun _ => True) (configureOscillators plan).run p
      (fun result q => Confined .clockSources p q ∧ (result = .ok () → PllSet plan q)) := by
  have hosc : Footprint.oscillators.Within .clockSources := by
    intro r
    cases r with
    | cr => decide
    | cfgr => exact BitVec.zero_and
    | _ => exact BitVec.and_self
  have hpll : Footprint.pll.Within .clockSources := by
    intro r
    cases r with
    | cr => decide
    | cfgr => exact BitVec.and_self
    | _ => exact BitVec.zero_and
  rw [configureOscillators_eq]
  refine .setupBind ((operateOscillators_confines ht plan p).unguarded.imp
    fun _ _ hq => hq.mono hosc) ?_ (fun _ _ hq => ⟨hq, fun h => by cases h⟩)
  intro _ q hq
  refine (configurePll_ensures ht plan.pll plan.hseDivider q).unguarded.imp ?_
  intro result u hu
  obtain ⟨hdone, _⟩ := hu
  exact ⟨hq.trans (hdone.confined.mono hpll), fun hok => hdone.reached hok⟩

/-! ## An oscillator in use -/

/-- While an oscillator feeds the system clock, its driver takes the branch for
one in use. -/
theorem inUse_ensures {source : SysclkSource} {input : PllSource} {p : Part}
    (h : Cfgr.Drives source input (p.peek .cfgr)) {x y : Setup Unit}
    (hx : ∀ q, Confined .none p q → Ensures (simulated t) patience
      (fun e => Confined .none p e.before ∧ Confined .none p e.after) x.run q
      (fun _ u => Confined .none p u)) :
    Ensures (simulated t) patience
      (fun e => Confined .none p e.before ∧ Confined .none p e.after)
      (do if ← drivesSysclk source input then x else y : Setup Unit).run p
      (fun _ q => Confined .none p q) := by
  refine .setupBind (R := fun drives q => Confined .none p q ∧ drives = .ok true)
    (.lift ?_) ?_ (fun e q hq => hq.1)
  · refine (drivesSysclk_ensures p source input).imp ?_
    rintro _ q ⟨hq, rfl⟩
    exact ⟨hq, by rw [decide_eq_true h]⟩
  · rintro _ q ⟨hq, ⟨⟩⟩
    rw [if_pos rfl]
    exact hx q hq

/-- While the external oscillator feeds the system clock, it is left alone. -/
theorem configureHse_keeps {p : Part} (h : Cfgr.Drives .hse .hse (p.peek .cfgr))
    (mode : OscillatorMode) :
    Ensures (simulated t) patience
      (fun e => Confined .none p e.before ∧ Confined .none p e.after)
      (configureHse mode).run p (fun _ q => Confined .none p q) := by
  refine inUse_ensures h fun q hq => ?_
  split
  · exact .setupPure hq
  · exact .throw hq

/-- While the internal oscillator feeds the system clock, it is left alone. -/
theorem configureHsi_keeps {p : Part} (h : Cfgr.Drives .hsi .hsiDiv2 (p.peek .cfgr))
    (mode : OscillatorMode) :
    Ensures (simulated t) patience
      (fun e => Confined .none p e.before ∧ Confined .none p e.after)
      (configureHsi mode).run p (fun _ q => Confined .none p q) := by
  refine inUse_ensures h fun q hq => ?_
  split
  · exact (Confines.waitUntil _ _ _ _).after hq
  · exact .throw hq

end Hardware

/-! ## The clock in use is kept -/

/-- What feeds the system clock in `p` is in `q` as it was. -/
structure SourceKept (p q : Part) : Prop where
  settled : q.Settled
  running : Cfgr.running (q.peek .cfgr) = Cfgr.running (p.peek .cfgr)
  hse : Cfgr.Drives .hse .hse (p.peek .cfgr) →
    Word.AgreeOn (Cr.hseOn ||| Cr.hseBypass) (q.peek .cr) (p.peek .cr)
  hsi : Cfgr.Drives .hsi .hsiDiv2 (p.peek .cfgr) →
    Word.AgreeOn Cr.hsiOn (q.peek .cr) (p.peek .cr)
  pll : Cfgr.running (p.peek .cfgr) = .pll →
    Word.AgreeOn Cr.pllOn (q.peek .cr) (p.peek .cr) ∧ q.pllSetting = p.pllSetting

namespace Footprint

/-- What the driver may change while the configuration is `cfgr`: nothing of
the clocks in use. -/
def beside (cfgr : Word) : Footprint
  | .cr =>
      (if Cfgr.Drives .hse .hse cfgr then 0 else Cr.hseOn ||| Cr.hseBypass) |||
        (if Cfgr.Drives .hsi .hsiDiv2 cfgr then 0 else Cr.hsiOn) |||
        (if Cfgr.running cfgr = .pll then 0 else Cr.pllOn)
  | .cfgr => if Cfgr.running cfgr = .pll then 0 else Cfgr.pll
  | r => oscillators r

end Footprint

/-- Drivers see the same clock in use in both configurations. -/
theorem Clock.Cfgr.drives_congr {a b : Word} (hr : running a = running b)
    (hpll : running b = .pll → Word.AgreeOn pll a b) (source : SysclkSource)
    (input : PllSource) : Drives source input a ↔ Drives source input b := by
  unfold Drives
  rw [hr]
  by_cases h : running b = .pll
  · have hinput : pllInput a = pllInput b := by
      unfold pllInput
      rw [(hpll h).has (by decide)]
    rw [hinput]
  · simp [h]

namespace Confined

variable {p q : Part}

theorem beside_source (cfgr : Word) :
    Footprint.beside cfgr .cfgr &&& (Cfgr.sw.mask ||| Cfgr.sws.mask) = 0 := by
  change (if Cfgr.running cfgr = .pll then (0 : Word) else Cfgr.pll) &&& _ = 0
  split <;> decide

theorem running_of_beside (h : Confined (.beside (p.peek .cfgr)) p q) (hp : p.Settled) :
    Cfgr.running (q.peek .cfgr) = Cfgr.running (p.peek .cfgr) :=
  congrArg SysclkSource.ofCode (h.sws_of_settled (beside_source _) hp)

theorem pll_of_beside (h : Confined (.beside (p.peek .cfgr)) p q)
    (hpll : Cfgr.running (p.peek .cfgr) = .pll) : q.pllSetting = p.pllSetting := by
  refine h.pllSetting_eq ?_
  change (if Cfgr.running (p.peek .cfgr) = .pll then (0 : Word) else Cfgr.pll) &&& _ = 0
  rw [if_pos hpll]
  rfl

/-- The clock in use, and with it the footprint, is the same later on. -/
theorem beside_eq (h : Confined (.beside (p.peek .cfgr)) p q) (hp : p.Settled) :
    Footprint.beside (q.peek .cfgr) = Footprint.beside (p.peek .cfgr) := by
  have hr := h.running_of_beside hp
  have hdrives := Cfgr.drives_congr hr (fun hpll => h.pll_of_beside hpll)
  funext r
  cases r <;> simp only [Footprint.beside, hdrives, hr]

/-- The footprint spares the clock in use. -/
theorem sourceKept (h : Confined (.beside (p.peek .cfgr)) p q) (hp : p.Settled) :
    SourceKept p q := by
  refine ⟨h.settled (beside_source _) hp, h.running_of_beside hp, ?_, ?_, ?_⟩
  · intro hdrives
    refine h.agreeOn_open Register.cr_open ?_
    simp only [Footprint.beside, if_pos hdrives]
    split <;> split <;> decide
  · intro hdrives
    refine h.agreeOn_open Register.cr_open ?_
    simp only [Footprint.beside, if_pos hdrives]
    split <;> split <;> decide
  · intro hpll
    refine ⟨h.agreeOn_open Register.cr_open ?_, h.pll_of_beside hpll⟩
    simp only [Footprint.beside, if_pos hpll]
    split <;> split <;> decide

end Confined

/-- One access on the way from `p`: it spares the clock in use, and it sets the
PLL only while the PLL is off. -/
structure SourceStep (p : Part) (e : Event Part) : Prop where
  before : Confined (.beside (p.peek .cfgr)) p e.before
  after : Confined (.beside (p.peek .cfgr)) p e.after
  stopped : e.after.pllSetting ≠ e.before.pllSetting →
    (∃ v, e.access = .write .cfgr v) ∧ e.before.PllStopped

namespace SourceStep

variable {p q : Part} {e : Event Part}

/-- An access that leaves the PLL's setting alone. -/
theorem of_confined {m : Footprint} (hm : m.Within (.beside (p.peek .cfgr)))
    (hcfgr : m .cfgr = 0) (h : Confined m p e.before ∧ Confined m p e.after) :
    SourceStep p e := by
  refine ⟨h.1.mono hm, h.2.mono hm, fun hne => ?_⟩
  have hzero : m .cfgr &&& Cfgr.pll = 0 := by
    rw [hcfgr]
    rfl
  rw [h.1.pllSetting_eq hzero, h.2.pllSetting_eq hzero] at hne
  exact absurd rfl hne

/-- An access on the way from a later state. -/
theorem trans (hpq : Confined (.beside (p.peek .cfgr)) p q) (hp : p.Settled)
    (h : SourceStep q e) : SourceStep p e := by
  obtain ⟨hb, ha, hstopped⟩ := h
  rw [hpq.beside_eq hp] at hb ha
  exact ⟨hpq.trans hb, hpq.trans ha, hstopped⟩

end SourceStep

/-- From every settled state, the driver spares the clock in use. -/
def KeepsSource {α : Type} (t : Temper) (patience : Nat) (x : Driver α) : Prop :=
  ∀ p : Part, p.Settled → Ensures (simulated t) patience (SourceStep p) x p
    (fun _ q => Confined (.beside (p.peek .cfgr)) p q)

namespace KeepsSource

variable {α β : Type} {t : Temper} {patience : Nat}

theorem of_confines {m : Footprint} {x : Driver α} (hx : Confines t patience m x)
    (hm : ∀ cfgr, m.Within (.beside cfgr)) (hcfgr : m .cfgr = 0) :
    KeepsSource t patience x :=
  fun p _ => (hx p).mono (fun _ he => .of_confined (hm _) hcfgr he)
    (fun _ _ hq => hq.mono (hm _))

/-- A driver that leaves its oscillator alone while the system clock is fed by
it, and otherwise keeps to a footprint beside the clock in use. -/
theorem of_inUse {source : SysclkSource} {input : PllSource} {m : Footprint} {x : Driver α}
    (hkeep : ∀ p : Part, Cfgr.Drives source input (p.peek .cfgr) →
      Ensures (simulated t) patience
        (fun e => Confined .none p e.before ∧ Confined .none p e.after) x p
        (fun _ q => Confined .none p q))
    (hx : Confines t patience m x)
    (hm : ∀ cfgr, ¬Cfgr.Drives source input cfgr → m.Within (.beside cfgr))
    (hcfgr : m .cfgr = 0) : KeepsSource t patience x := by
  intro p _
  by_cases h : Cfgr.Drives source input (p.peek .cfgr)
  · refine (hkeep p h).mono ?_ (fun _ _ hq => hq.of_none)
    exact fun _ he => .of_confined (Footprint.none_within _) rfl he
  · refine (hx p).mono ?_ (fun _ _ hq => hq.mono (hm _ h))
    exact fun _ he => .of_confined (hm _ h) hcfgr he

theorem setupBind {x : Setup α} {f : α → Setup β} (hx : KeepsSource t patience x.run)
    (hf : ∀ a, KeepsSource t patience (f a).run) :
    KeepsSource t patience (x >>= f).run := by
  intro p hp
  refine .setupBind (hx p hp) ?_ (fun _ _ hq => hq)
  intro a q hq
  have hqs : q.Settled := (hq.sourceKept hp).settled
  refine (hf a q hqs).mono (fun _ he => he.trans hq hp) ?_
  intro _ u hu
  rw [hq.beside_eq hp] at hu
  exact hq.trans hu

theorem optionally {c : Bool} {x : Setup Unit} (hx : KeepsSource t patience x.run) :
    KeepsSource t patience (BringUp.optionally c x).run :=
  fun p hp => .optionally (fun _ => hx p hp) (fun _ => .refl _ p)

end KeepsSource

namespace Hardware

variable {t : Temper} (ht : t.Unlatched) {patience : Nat}

include ht in
theorem configureHse_keepsSource (mode : OscillatorMode) :
    KeepsSource t patience (configureHse mode).run := by
  refine .of_inUse (fun p h => configureHse_keeps h mode) (configureHse_confines ht _ mode) ?_ rfl
  intro cfgr h r
  cases r with
  | cr =>
      simp only [Footprint.hse, Footprint.beside, if_neg h]
      split <;> split <;> decide
  | _ => exact BitVec.zero_and

include ht in
theorem configureHsi_keepsSource (mode : OscillatorMode) :
    KeepsSource t patience (configureHsi mode).run := by
  refine .of_inUse (fun p h => configureHsi_keeps h mode) (configureHsi_confines ht _ mode) ?_ rfl
  intro cfgr h r
  cases r with
  | cr =>
      simp only [Footprint.hsi, Footprint.beside, if_neg h]
      split <;> split <;> decide
  | _ => exact BitVec.zero_and

include ht in
theorem configureLsi_keepsSource (mode : OscillatorMode) :
    KeepsSource t patience (configureLsi mode).run := by
  refine .of_confines (configureLsi_confines ht _ mode) ?_ rfl
  intro cfgr r
  cases r with
  | csr => exact BitVec.and_self
  | _ => exact BitVec.zero_and

include ht in
theorem configureLse_keepsSource (mode : OscillatorMode) :
    KeepsSource t patience (configureLse mode).run := by
  refine .of_confines (configureLse_confines ht _ mode) ?_ rfl
  intro cfgr r
  cases r with
  | apb1enr | pwr | bdcr => exact BitVec.and_self
  | _ => exact BitVec.zero_and

include ht in
theorem configurePll_keepsSource (wanted : Option PllSetting) (divider : HseDivider) :
    KeepsSource t patience (configurePll wanted divider).run := by
  intro p hp
  have hdriver : Ensures (simulated t) patience _ (configurePll wanted divider).run p _ :=
    configurePll_ensures ht wanted divider p
  by_cases h : Cfgr.running (p.peek .cfgr) = .pll
  · refine hdriver.mono ?_ (fun _ q hq => (hq.2 h).of_none)
    exact fun e he => .of_confined (Footprint.none_within _) rfl (he.2 h)
  · have hm : Footprint.pll.Within (.beside (p.peek .cfgr)) := by
      intro r
      cases r with
      | cr =>
          simp only [Footprint.pll, Footprint.beside, if_neg h]
          split <;> split <;> decide
      | cfgr =>
          simp only [Footprint.pll, Footprint.beside, if_neg h]
          exact BitVec.and_self
      | _ => exact BitVec.zero_and
    refine hdriver.mono ?_ (fun _ q hq => hq.1.confined.mono hm)
    exact fun e he => ⟨he.1.before.mono hm, he.1.after.mono hm, he.1.stopped⟩

include ht in
theorem configureOscillators_keepsSource (plan : OscillatorPlan) :
    KeepsSource t patience (configureOscillators plan).run := by
  rw [configureOscillators_eq]
  unfold operateOscillators
  refine .setupBind ?_ fun _ => configurePll_keepsSource ht _ _
  refine .setupBind (.optionally (configureHse_keepsSource ht _)) fun _ => ?_
  refine .setupBind (.optionally (configureHsi_keepsSource ht _)) fun _ => ?_
  refine .setupBind (.optionally (configureLsi_keepsSource ht _)) fun _ => ?_
  exact .optionally (configureLse_keepsSource ht _)

/-- The clock that drives the system clock is never pulled away. From every
state in which the system clock runs from the requested source, whatever the
plan and however the driver ends: in every state on the way and in the last
one, what feeds the system clock is as it was. And whenever the PLL's setting
changes, then by a write that finds the PLL neither on nor ready. -/
theorem configureOscillators_spares_source (ht : t.Unlatched) (patience : Nat)
    (plan : OscillatorPlan) (p : Part) (hp : p.Settled) :
    ∃ result q log,
      (configureOscillators plan).run.run ((simulated t).handler patience) p =
        ⟨.ok result, q, log⟩ ∧ SourceKept p q ∧
      ∀ e ∈ (configureOscillators plan).run.history (simulated t) patience p,
        SourceKept p e.before ∧ SourceKept p e.after ∧
        (e.after.pllSetting ≠ e.before.pllSetting →
          (∃ v, e.access = .write .cfgr v) ∧ e.before.PllStopped) := by
  have hkeeps : KeepsSource t patience (configureOscillators plan).run :=
    configureOscillators_keepsSource ht plan
  obtain ⟨hevents, result, q, log, hrun, hq⟩ := hkeeps p hp
  refine ⟨result, q, log, hrun, hq.sourceKept hp, ?_⟩
  intro e he
  have hstep := hevents e he
  exact ⟨hstep.before.sourceKept hp, hstep.after.sourceKept hp, hstep.stopped⟩

/-- The board's plan on a part that runs from the PLL. -/
theorem configureOscillators_spares_pll :
    Part.onPll.Settled ∧ Cfgr.running (Part.onPll.peek .cfgr) = .pll ∧
    ∀ e ∈ (configureOscillators Plan.board.oscillators).run.history (simulated .prompt) 0
        Part.onPll,
      SourceKept Part.onPll e.after := by
  have hp : Part.onPll.Settled := by rfl
  refine ⟨hp, by rfl, ?_⟩
  obtain ⟨_, _, _, _, _, hevents⟩ := configureOscillators_spares_source
    Temper.prompt_unlatched 0 Plan.board.oscillators Part.onPll hp
  exact fun e he => (hevents e he).2.1

end Hardware

end BringUp
