import BringUp.Proofs.OscillatorDemands
import BringUp.Proofs.Requests

/-!
The stages of `configureOscillators`: what each of them brings about, and what
it leaves to the others.

* `Stage`: an oscillator or the PLL. `Stage.order`: as they are gone through.
* `Stage.Achieved`: what a stage is there for. `Stage.Untouched`: nothing that
  the stage may change has changed.
* `Progress plan p past future q`: on the way from `p` to `q` some stages are
  over, and the others are still to come.
* `OthersKept plan p q`: what no plan, or not this one, is about is as it was.

Main statement: a success leaves every stage that the plan names with what it
is there for, and an error is that of one stage, with the earlier ones as they
should be and the later ones untouched (`configureOscillators_contract`).

The argument is by induction over the stages to come. All that one stage has to
know of another is its footprint. The footprints are apart (`Stage.apart`), so
what a stage has achieved stays, and what is still to come is untouched.
-/

namespace BringUp

open Clock Hardware

/-! ## Stages -/

/-- The stages of `configureOscillators`. -/
inductive Stage where
  | hse
  | hsi
  | lsi
  | lse
  | pll
  deriving DecidableEq

namespace Stage

/-- The order in which they are gone through. -/
def order : List Stage := [.hse, .hsi, .lsi, .lse, .pll]

/-- The plan has something for the stage to do. The PLL is always set, or
switched off. -/
def named (plan : OscillatorPlan) : Stage → Bool
  | .hse => plan.named.names .hse
  | .hsi => plan.named.names .hsi
  | .lsi => plan.named.names .lsi
  | .lse => plan.named.names .lse
  | .pll => true

/-- The driver of the stage. -/
def driver (plan : OscillatorPlan) : Stage → Setup Unit
  | .hse => configureHse plan.hse
  | .hsi => configureHsi plan.hsi
  | .lsi => configureLsi plan.lsi
  | .lse => configureLse plan.lse
  | .pll => configurePll plan.pll plan.hseDivider

def operate (plan : OscillatorPlan) (s : Stage) : Setup Unit :=
  optionally (s.named plan) (s.driver plan)

/-- The bits that the stage may change. -/
def footprint : Stage → Footprint
  | .hse => .hse
  | .hsi => .hsi
  | .lsi => .lsi
  | .lse => .lse
  | .pll => .pll

def controls : Stage → Controls
  | .hse => .hse
  | .hsi => .hsi
  | .lsi => .lsi
  | .lse => .lse
  | .pll => .pll

/-- What the plan demands of the oscillator, or of the PLL. -/
def demand (plan : OscillatorPlan) : Stage → Demand
  | .hse => .hse plan.hse
  | .hsi => .hsi plan.hsi
  | .lsi => .lsi plan.lsi
  | .lse => .lse plan.lse
  | .pll => .pll plan.pll.isSome

/-- The system clock runs from what the stage operates, directly or through
the PLL. -/
def InUse (cfgr : Word) : Stage → Prop
  | .hse => Cfgr.Drives .hse .hse cfgr
  | .hsi => Cfgr.Drives .hsi .hsiDiv2 cfgr
  | .lsi | .lse => False
  | .pll => Cfgr.running cfgr = .pll

instance (cfgr : Word) : (s : Stage) → Decidable (s.InUse cfgr)
  | .hse | .hsi => inferInstanceAs (Decidable (Cfgr.Drives _ _ cfgr))
  | .lsi | .lse => inferInstanceAs (Decidable False)
  | .pll => inferInstanceAs (Decidable (Cfgr.running cfgr = .pll))

/-- What the stage is there for: the demand is met, and a PLL that is wanted
has the wanted setting. -/
structure Achieved (plan : OscillatorPlan) (s : Stage) (q : Part) : Prop where
  met : (s.demand plan).Met q
  setting : s = .pll → ∀ setting, plan.pll = some setting →
    q.pllSetting = setting.code plan.hseDivider

/-- A stage that the plan names has achieved what it is there for, unless the
system clock ran from it in `p`. -/
def Established (plan : OscillatorPlan) (p : Part) (s : Stage) (q : Part) : Prop :=
  s.named plan = true → ¬s.InUse (p.peek .cfgr) → s.Achieved plan q

/-- Whatever the stage may change is in `q` as it was in `p`. -/
def Untouched (p : Part) (s : Stage) (q : Part) : Prop :=
  ∀ r, Word.AgreeOn (s.footprint r) (q.peek r) (p.peek r)

end Stage

/-- The driver goes through the stages one after the other. -/
theorem Hardware.configureOscillators_eq_forM (plan : OscillatorPlan) :
    configureOscillators plan = forM Stage.order (Stage.operate plan) := by
  rw [configureOscillators_eq]
  simp only [operateOscillators, Stage.order, Stage.operate, Stage.named, Stage.driver,
    List.forM_cons, List.forM_nil, bind_assoc]
  simp only [optionally_bind, bind_pure_unit, if_true]

/-! ## Stages apart -/

namespace Stage

variable {s s' : Stage} {plan : OscillatorPlan} {p q u : Part}

theorem footprint_bdcr (s : Stage) : (s.footprint .bdcr).getLsbD 16 = false := by
  cases s <;> decide

theorem footprint_cfgr (s : Stage) :
    s.footprint .cfgr &&& (Cfgr.sw.mask ||| Cfgr.sws.mask) = 0 := by
  cases s <;> decide

/-- Only the PLL has a part of the configuration register. -/
theorem footprint_cfgr_and_pll (h : s ≠ .pll) : s.footprint .cfgr &&& Cfgr.pll = 0 := by
  cases s <;> first | exact absurd rfl h | decide

/-- No stage changes what another one may change, nor a flag. -/
theorem apart (h : s ≠ s') (r : Register) :
    (s'.footprint r ||| StatusFlag.statusOf r) &&& s.footprint r = 0 := by
  cases r with
  | cr | cfgr | csr | bdcr | apb1enr | pwr =>
      cases s <;> cases s' <;> first | exact absurd rfl h | decide
  | _ => cases s <;> exact BitVec.and_zero

/-- No stage changes the control bits or the flag of another one. -/
theorem controls_apart (h : s ≠ s') :
    s'.footprint s.controls.register &&& (s.controls.mask ||| s.controls.status) = 0 := by
  cases s <;> cases s' <;> first | exact absurd rfl h | decide

theorem demand_controls (plan : OscillatorPlan) (s : Stage) :
    (s.demand plan).toControls = s.controls := by
  cases s <;> rfl

/-- A stage does not touch what another one may change. -/
theorem untouched_of_confined (hconfined : Confined s'.footprint q u) (hq : q.NoDomainReset)
    (h : s ≠ s') : Untouched q s u := by
  intro r
  by_cases hstatus : r.IsUsartStatus
  · obtain ⟨usart, rfl⟩ := hstatus
    cases s <;> exact BitVec.and_zero.trans BitVec.and_zero.symm
  · exact hconfined.agreeOn (Footprint.covers_of_noDomainReset s'.footprint_bdcr hq hstatus)
      (apart h r)

theorem Untouched.trans (h : Untouched q s u) (h' : Untouched p s q) : Untouched p s u :=
  fun r => (h r).trans (h' r)

/-- A stage leaves alone what another one has achieved. -/
theorem Achieved.of_confined (hconfined : Confined s'.footprint q u) (hq : q.NoDomainReset)
    (h : s ≠ s') (hs : s.Achieved plan q) : s.Achieved plan u where
  met := by
    refine hs.met.of_confined hconfined ((s.demand plan).covers s'.footprint_bdcr hq) ?_
    rw [demand_controls]
    exact controls_apart h
  setting hpll setting hsetting := by
    subst hpll
    exact (hconfined.pllSetting_eq (footprint_cfgr_and_pll h.symm)).trans
      (hs.setting rfl setting hsetting)

/-- Before the PLL, the clocks in use do not change. -/
theorem inUse_iff (hconfined : Confined s'.footprint q u) (hq : q.Settled) (h : s' ≠ .pll)
    (s : Stage) : s.InUse (u.peek .cfgr) ↔ s.InUse (q.peek .cfgr) := by
  have hrunning : Cfgr.running (u.peek .cfgr) = Cfgr.running (q.peek .cfgr) :=
    congrArg SysclkSource.ofCode (hconfined.sws_of_settled s'.footprint_cfgr hq)
  have hsetting : Cfgr.running (q.peek .cfgr) = .pll →
      Word.AgreeOn Cfgr.pll (u.peek .cfgr) (q.peek .cfgr) :=
    fun _ => hconfined.pllSetting_eq (footprint_cfgr_and_pll h)
  cases s with
  | hse | hsi => exact Cfgr.drives_congr hrunning hsetting _ _
  | lsi | lse => exact Iff.rfl
  | pll => simp only [InUse, hrunning]

end Stage

/-! ## One stage -/

section Steps

variable {t : Temper} (ht : t.Unlatched) {patience : Nat} {plan : OscillatorPlan} {p q u : Part}
  {s : Stage}

include ht in
theorem Stage.driver_confines (s : Stage) :
    Confines t patience s.footprint (s.driver plan).run := by
  cases s with
  | hse => exact configureHse_confines ht patience _
  | hsi => exact configureHsi_confines ht patience _
  | lsi => exact configureLsi_confines ht patience _
  | lse => exact configureLse_confines ht patience _
  | pll =>
      exact fun p => (configurePll_ensures ht _ _ p).mono
        (fun _ he => ⟨he.1.before, he.1.after⟩) (fun _ _ hq => hq.1.confined)

include ht in
/-- A driver that succeeds has achieved what its stage is there for, if nothing
runs from what it operates. -/
theorem Stage.driver_achieves (s : Stage) (hp : p.NoDomainReset)
    (hidle : ¬s.InUse (p.peek .cfgr)) :
    Ensures (simulated t) patience (fun _ => True) (s.driver plan).run p
      (fun result q => result = .ok () → s.Achieved plan q) := by
  have hmet : ∀ {s : Stage} {q : Part}, s ≠ .pll → (s.demand plan).Met q → s.Achieved plan q :=
    fun hs hmet => ⟨hmet, fun h => absurd h hs⟩
  cases s with
  | hse =>
      exact (configureHse_meets ht _ hp hidle).imp fun _ _ h hok => hmet (by decide) (h hok)
  | hsi =>
      exact (configureHsi_meets ht _ hp hidle).imp fun _ _ h hok => hmet (by decide) (h hok)
  | lsi => exact (configureLsi_meets ht _ hp).imp fun _ _ h hok => hmet (by decide) (h hok)
  | lse => exact (configureLse_meets ht _ hp).imp fun _ _ h hok => hmet (by decide) (h hok)
  | pll =>
      refine ((configurePll_meets ht _ _ hp hidle).and
        (configurePll_ensures ht _ _ p)).unguarded.imp ?_
      rintro _ q ⟨hmet, hdone, -⟩ hok
      exact ⟨hmet hok, fun _ setting hsetting => (hdone.reached hok setting hsetting).2⟩

include ht in
/-- What one stage does, named or not. -/
theorem Stage.operate_ensures (s : Stage) (hp : p.NoDomainReset) :
    Ensures (simulated t) patience (fun _ => True) (s.operate plan).run p
      (fun result q => Confined s.footprint p q ∧ (s.named plan = false → q = p) ∧
        (result = .ok () → s.Established plan p q)) := by
  refine .optionally (fun hnamed => ?_) fun hskipped => ?_
  · have hunskipped : s.named plan ≠ false := by
      rw [hnamed]
      decide
    by_cases hidle : s.InUse (p.peek .cfgr)
    · refine (s.driver_confines ht p).unguarded.imp fun _ q hq => ?_
      exact ⟨hq, fun h => absurd h hunskipped, fun _ _ h => absurd hidle h⟩
    · refine ((s.driver_confines ht p).and (s.driver_achieves ht hp hidle)).unguarded.imp ?_
      rintro _ q ⟨hq, hachieved⟩
      exact ⟨hq, fun h => absurd h hunskipped, fun hok _ _ => hachieved hok⟩
  · refine ⟨.refl _ p, fun _ => rfl, fun _ h => ?_⟩
    rw [hskipped] at h
    cases h

end Steps

/-! ## Stage after stage -/

/-- On the way from `p` to `q` the stages of `past` are over, and those of
`future` are still to come. -/
structure Progress (plan : OscillatorPlan) (p : Part) (past future : List Stage) (q : Part) :
    Prop where
  settled : q.Settled
  backup : q.NoDomainReset
  source : ∀ s ∈ future, (s.InUse (q.peek .cfgr) ↔ s.InUse (p.peek .cfgr))
  established : ∀ s ∈ past, s.Established plan p q
  untouched : ∀ s, s ∈ future ∨ s.named plan = false → s.Untouched p q

/-- A stage may come before another one. The PLL comes last. -/
def Stage.Before (s s' : Stage) : Prop :=
  s ≠ s' ∧ s ≠ .pll

theorem Stage.order_pairwise : Stage.order.Pairwise Stage.Before := by
  unfold Stage.Before
  decide

namespace Progress

variable {plan : OscillatorPlan} {p q u : Part} {past future : List Stage} {s : Stage}

/-- At first all stages are to come. -/
theorem start (hp : p.Settled) (hreset : p.NoDomainReset) :
    Progress plan p [] Stage.order p where
  settled := hp
  backup := hreset
  source _ _ := Iff.rfl
  established _ h := by cases h
  untouched _ _ _ := .refl _ _

/-- A stage is gone through, well or not. -/
theorem advance (h : Progress plan p past (s :: future) q)
    (horder : (past ++ s :: future).Pairwise Stage.Before) (hconfined : Confined s.footprint q u)
    (hskipped : s.named plan = false → u = q) : Progress plan p past future u := by
  obtain ⟨-, hfuture, hpast⟩ := List.pairwise_append.mp horder
  have hlater : ∀ s' ∈ future, s.Before s' := (List.pairwise_cons.mp hfuture).1
  refine ⟨?_, ?_, ?_, ?_, ?_⟩
  · exact hconfined.settled s.footprint_cfgr h.settled
  · exact hconfined.noDomainReset s.footprint_bdcr h.backup
  · intro s' hs'
    exact (Stage.inUse_iff hconfined h.settled (hlater s' hs').2 s').trans
      (h.source s' (List.mem_cons_of_mem s hs'))
  · intro s' hs' hnamed hidle
    have hne : s' ≠ s := (hpast s' hs' s List.mem_cons_self).1
    exact (h.established s' hs' hnamed hidle).of_confined hconfined h.backup hne
  · intro s' hs'
    have hbefore : s'.Untouched p q := h.untouched s' (hs'.imp_left (List.mem_cons_of_mem s))
    by_cases hne : s' = s
    · subst hne
      rcases hs' with hmem | hunnamed
      · exact absurd rfl (hlater s' hmem).1
      · rwa [hskipped hunnamed]
    · exact (Stage.untouched_of_confined hconfined h.backup hne).trans hbefore

/-- A stage that has succeeded is over. -/
theorem achieve (h : Progress plan p past future u) (hs : s.Established plan p u) :
    Progress plan p (past ++ [s]) future u where
  settled := h.settled
  backup := h.backup
  source := h.source
  established s' hs' := by
    rcases List.mem_append.mp hs' with hpast | hlast
    · exact h.established s' hpast
    · rwa [List.mem_singleton.mp hlast]
  untouched := h.untouched

end Progress

/-- Run from `p`, the driver ends with the result in `q`. -/
def Setup.EndsIn (t : Temper) (patience : Nat) (x : Setup Unit) (p : Part) (result : SetupResult)
    (q : Part) : Prop :=
  ∃ log, x.run.run ((simulated t).handler patience) p = ⟨.ok result, q, log⟩

section Runs

variable {t : Temper} {patience : Nat} {plan : OscillatorPlan} {p q u : Part}
  {past future : List Stage} {s : Stage}

theorem Ensures.endsIn {x : Setup Unit} {G : Event Part → Prop} {Q : SetupResult → Part → Prop}
    (hx : Ensures (simulated t) patience G x.run p Q) :
    Ensures (simulated t) patience G x.run p
      (fun result q => Setup.EndsIn t patience x p result q ∧ Q result q) := by
  obtain ⟨hevents, result, q, log, hrun, hq⟩ := hx
  exact ⟨hevents, result, q, log, hrun, ⟨log, hrun⟩, hq⟩

/-- The result is decided by evaluation. -/
theorem Setup.endsIn_state {x : Setup Unit} {result : SetupResult}
    (h : (x.run.run ((simulated t).handler patience) p).outcome.toOption.any (· = result) = true) :
    EndsIn t patience x p result (x.run.run ((simulated t).handler patience) p).state := by
  obtain ⟨result', hrun, hresult⟩ := Run.result_of_any h
  rw [of_decide_eq_true hresult] at hrun
  exact ⟨_, hrun⟩

theorem Setup.endsIn_of_any {x : Setup Unit} {result : SetupResult}
    (h : (x.run.run ((simulated t).handler patience) p).outcome.toOption.any (· = result) = true) :
    ∃ q, Setup.EndsIn t patience x p result q :=
  ⟨_, endsIn_state h⟩

/-- A run has one end. -/
theorem Setup.EndsIn.unique {x : Setup Unit} {result result' : SetupResult}
    (h : EndsIn t patience x p result q) (h' : EndsIn t patience x p result' u) :
    result = result' ∧ q = u := by
  obtain ⟨log, hrun⟩ := h
  obtain ⟨log', hrun'⟩ := h'
  rw [hrun] at hrun'
  simp only [Run.mk.injEq, Except.ok.injEq] at hrun'
  exact ⟨hrun'.1, hrun'.2.1⟩

/-- What every run of a driver comes to, this one has come to. -/
theorem Ensures.at_end {x : Setup Unit} {G : Event Part → Prop} {Q : SetupResult → Part → Prop}
    {result : SetupResult} (hx : Ensures (simulated t) patience G x.run p Q)
    (h : Setup.EndsIn t patience x p result q) : Q result q := by
  obtain ⟨-, result', q', log, hrun, hQ⟩ := hx
  obtain ⟨rfl, rfl⟩ := h.unique ⟨log, hrun⟩
  exact hQ

/-- A sequence succeeds exactly if both of its parts do. -/
theorem Setup.endsIn_bind {x : Setup Unit} {f : Unit → Setup Unit} :
    EndsIn t patience (x >>= f) p (.ok ()) q ↔
      ∃ u, EndsIn t patience x p (.ok ()) u ∧ EndsIn t patience (f ()) u (.ok ()) q := by
  constructor
  · rintro ⟨log, hrun⟩
    rw [ExceptT.run_bind] at hrun
    obtain ⟨result, u, first, last, hx, hf⟩ := Proc.run_bind_ok hrun
    cases result with
    | ok _ => exact ⟨u, ⟨first, hx⟩, ⟨last, hf⟩⟩
    | error why => cases hf
  · rintro ⟨u, ⟨first, hx⟩, ⟨last, hf⟩⟩
    exact ⟨first ++ last, by rw [run_bind_of_ok hx, hf]⟩

/-- A success of one stage more. -/
theorem Setup.EndsIn.push
    (hpast : EndsIn t patience (forM past (Stage.operate plan)) p (.ok ()) q)
    (hs : EndsIn t patience (s.operate plan) q (.ok ()) u) :
    EndsIn t patience (forM (past ++ [s]) (Stage.operate plan)) p (.ok ()) u := by
  rw [List.forM_append]
  refine Setup.endsIn_bind.mpr ⟨q, hpast, ?_⟩
  rwa [List.forM_cons, List.forM_nil, bind_pure_unit]

/-- The stages of `before` succeed from `p`, and `s` comes next and fails. -/
def Stage.FailsAfter (t : Temper) (patience : Nat) (plan : OscillatorPlan) (p : Part)
    (before : List Stage) (s : Stage) (why : SetupError) (q : Part) : Prop :=
  ∃ u, Setup.EndsIn t patience (forM before (Stage.operate plan)) p (.ok ()) u ∧
    Setup.EndsIn t patience (s.operate plan) u (.error why) q

/-- The stages to come are gone through up to the last one, or up to one that
fails. -/
theorem Progress.run (ht : t.Unlatched) (h : Progress plan p past future q)
    (horder : (past ++ future).Pairwise Stage.Before)
    (hpast : Setup.EndsIn t patience (forM past (Stage.operate plan)) p (.ok ()) q) :
    Ensures (simulated t) patience (fun _ => True) (forM future (Stage.operate plan)).run q
      (fun result u => (result = .ok () → Progress plan p (past ++ future) [] u) ∧
        ∀ why, result = .error why → ∃ before s after, past ++ future = before ++ s :: after ∧
          s.FailsAfter t patience plan p before why u ∧ Progress plan p before after u) := by
  induction future generalizing past q with
  | nil =>
      rw [List.forM_nil, List.append_nil]
      exact .setupPure ⟨fun _ => h, fun _ hwhy => by cases hwhy⟩
  | cons s future ih =>
      rw [List.forM_cons]
      refine .setupBind (s.operate_ensures ht h.backup).endsIn ?_ ?_
      · rintro _ u ⟨hs, hconfined, hskipped, hok⟩
        have hnext : Progress plan p past future u := h.advance horder hconfined hskipped
        have hestablished : s.Established plan p u := fun hnamed hidle =>
          hok rfl hnamed fun hinUse => hidle ((h.source s List.mem_cons_self).mp hinUse)
        rw [List.append_cons] at horder ⊢
        exact ih (hnext.achieve hestablished) horder (hpast.push hs)
      · rintro why u ⟨hs, hconfined, hskipped, -⟩
        refine ⟨fun hok => (by cases hok), fun _ hwhy => ?_⟩
        cases hwhy
        exact ⟨past, s, future, rfl, ⟨q, hpast, hs⟩, h.advance horder hconfined hskipped⟩

end Runs

/-! ## The whole driver -/

/-- What no plan is about, or not this one, is in `q` as it was in `p`. Of the
ready flags nothing is said. -/
structure OthersKept (plan : OscillatorPlan) (p q : Part) : Prop where
  unnamed : ∀ s : Stage, s.named plan = false → s.Untouched p q
  cfgr : Word.AgreeOn (~~~Cfgr.pll) (q.peek .cfgr) (p.peek .cfgr)
  others : ∀ r ∈ [Register.cr, .csr, .bdcr],
    Word.AgreeOn (~~~(Footprint.clockSources r ||| StatusFlag.statusOf r)) (q.peek r) (p.peek r)

namespace Hardware

/-- The contract of the driver. From every state in which the system clock runs
from the requested source and the backup domain is not held in reset, whatever
the plan and the part: the driver comes to a result, and all that the plan is
not about is as it was. After a success, each stage that is named and that the
system clock does not run from has achieved what it is there for. An error is
that of one stage; it leaves the stages before it as after a success, and the
stages behind it untouched. -/
theorem configureOscillators_contract {t : Temper} (ht : t.Unlatched) (patience : Nat)
    (plan : OscillatorPlan) {p : Part} (hp : p.Settled) (hreset : p.NoDomainReset) :
    ∃ result q, Setup.EndsIn t patience (configureOscillators plan) p result q ∧
      OthersKept plan p q ∧
      (result = .ok () → ∀ s : Stage, s.Established plan p q) ∧
      ∀ why, result = .error why → ∃ before s after, Stage.order = before ++ s :: after ∧
        s.FailsAfter t patience plan p before why q ∧
        (∀ b ∈ before, b.Established plan p q) ∧ ∀ a ∈ after, a.Untouched p q := by
  have hstart : Progress plan p [] Stage.order p := .start hp hreset
  have hrun : Ensures (simulated t) patience _ (forM Stage.order (Stage.operate plan)).run p _ :=
    hstart.run ht Stage.order_pairwise ⟨[], rfl⟩
  rw [← configureOscillators_eq_forM] at hrun
  obtain ⟨-, result, q, log, hends, ⟨hconfined, -⟩, hok, herror⟩ :=
    (configureOscillators_ensures ht plan p).and hrun
  have hunnamed : ∀ s : Stage, s.named plan = false → s.Untouched p q := by
    intro s hs
    cases result with
    | ok _ => exact (hok rfl).untouched s (.inr hs)
    | error why =>
        obtain ⟨_, _, _, -, -, hprogress⟩ := herror why rfl
        exact hprogress.untouched s (.inr hs)
  have hothers : OthersKept plan p q := by
    refine ⟨hunnamed, hconfined.cfgr_of_settled (by decide) hp, fun r hr => ?_⟩
    refine hconfined.steady r (Footprint.covers_of_noDomainReset (by decide) hreset ?_)
    rintro ⟨usart, rfl⟩
    simp at hr
  refine ⟨result, q, ⟨log, hends⟩, hothers, fun hresult s => ?_, fun why hwhy => ?_⟩
  · refine (hok hresult).established s ?_
    cases s <;> decide
  · obtain ⟨before, s, after, horder, hfails, hprogress⟩ := herror why hwhy
    exact ⟨before, s, after, horder, hfails, hprogress.established,
      fun a ha => hprogress.untouched a (.inl ha)⟩

end Hardware

/-- A part that runs from the internal oscillator, with all else off. -/
def Part.onHsi : Part :=
  (powerOn bootVector).poke .cr 0x00000083

namespace Hardware

/-- The board's plan succeeds on such a part: both crystals and the PLL run. -/
theorem configureOscillators_contract_board :
    Part.onHsi.Settled ∧ Part.onHsi.NoDomainReset ∧
    ∃ q, Setup.EndsIn .prompt 0 (configureOscillators Plan.board.oscillators) .onHsi (.ok ()) q ∧
      OthersKept Plan.board.oscillators .onHsi q ∧ (Demand.hse .on).Met q ∧
      (Demand.lse .on).Met q ∧ (Demand.pll true).Met q := by
  have hsettled : Part.onHsi.Settled := by decide +kernel
  have hreset : Part.onHsi.NoDomainReset := by decide +kernel
  have hsucceeds : ((configureOscillators Plan.board.oscillators).run.run
      ((simulated .prompt).handler 0) .onHsi).outcome.toOption.any
        (fun result => result.toOption.isSome) = true := by decide +kernel
  obtain ⟨result, hrun, hok⟩ := Run.result_of_any hsucceeds
  obtain ⟨result', q, ⟨log, hends⟩, hothers, hestablished, -⟩ := configureOscillators_contract
    Temper.prompt_unlatched 0 Plan.board.oscillators hsettled hreset
  rw [hends] at hrun
  cases hrun
  cases result with
  | error why => cases hok
  | ok _ =>
      have hachieved := hestablished rfl
      exact ⟨hsettled, hreset, q, ⟨log, hends⟩, hothers,
        (hachieved .hse (by decide) (by decide +kernel)).met,
        (hachieved .lse (by decide) id).met, (hachieved .pll rfl (by decide +kernel)).met⟩

end Hardware

end BringUp
