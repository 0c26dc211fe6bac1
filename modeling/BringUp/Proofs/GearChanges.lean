import BringUp.Proofs.DriverRegisters
import BringUp.Proofs.Gearing

/-!
The gearings that a part passes through while its bus clocks are configured.

* `BusPlan.geared`: another divider of a peripheral bus, if the plan names it.
* `BusPlan.slowed1`, `BusPlan.divided`, `BusPlan.switched`, …: the gearings, one
  after the other.
* `writeDivider_regears`, `switchSysclk_switching`, …: what each step makes of
  the gearing and of the wait states.
* `OnWay b p q`: between its start `p` and its end, the configuration with the
  plan `b` can leave the part as in `q`.

Main statement: every state that `configureBusClocks` passes through is on its
way, and so is the one that it leaves behind, whether it succeeds or not
(`configureBusClocks_onWay`).

The steps are few, and each changes one component. A bound on the rates is
thereby a bound on a handful of gearings.
-/

namespace BringUp

open Clock Hardware

/-! ## The gearings on the way -/

namespace Clock.BusPlan

variable (b : BusPlan) (g : Gearing)

/-- The divider of a peripheral bus, if the plan names the bus. -/
def geared (bus : PeripheralBus) (d : ApbDivider) : Gearing :=
  if b.named.names bus.clock then g.withApb bus d.divisor else g

/-- The named peripheral buses at their slowest, one after the other. -/
def slowed1 : Gearing :=
  b.geared g .first .div16

def slowed2 : Gearing :=
  b.geared (b.slowed1 g) .second .div16

/-- The core's divider set, with the buses slowed down. -/
def divided : Gearing :=
  (b.slowed2 g).withAhb b.ahb.divisor

/-- Before the switch: the core's divider is set if it is named. -/
def beforeSwitch : Gearing :=
  if b.named.names .hclk then b.divided g else g

/-- After the switch, if the system clock is named. -/
def switched : Gearing :=
  if b.named.names .sysclk then (b.beforeSwitch g).withSource b.sysclk else b.beforeSwitch g

/-- The named peripheral buses as planned, one after the other. -/
def set1 : Gearing :=
  b.geared (b.switched g) .first b.apb1

def set2 : Gearing :=
  b.geared (b.set1 g) .second b.apb2

variable {b} in
theorem geared_of_names (bus : PeripheralBus) (h : b.named.names bus.clock = true)
    (d : ApbDivider) : b.geared g bus d = g.withApb bus d.divisor :=
  if_pos h

/-- The dividers of the peripheral buses do not matter to the core. -/
theorem sysclk_geared (bus : PeripheralBus) (d : ApbDivider) :
    (b.geared g bus d).sysclk = g.sysclk := by
  rw [geared]
  split
  · exact g.sysclk_withApb bus _
  · rfl

theorem hclk_geared (bus : PeripheralBus) (d : ApbDivider) :
    (b.geared g bus d).hclk = g.hclk := by
  rw [geared]
  split
  · exact g.hclk_withApb bus _
  · rfl

/-- Nor do they matter to the other bus. -/
theorem pclk_geared_of_ne (bus other : PeripheralBus) (h : bus ≠ other) (d : ApbDivider) :
    (b.geared g bus d).pclk other = g.pclk other := by
  rw [geared]
  split
  · exact Gearing.pclk_withApb_of_ne h _ g
  · rfl

theorem hclk_slowed1 : (b.slowed1 g).hclk = g.hclk :=
  b.hclk_geared g _ _

theorem hclk_slowed2 : (b.slowed2 g).hclk = g.hclk :=
  (b.hclk_geared _ _ _).trans (b.hclk_slowed1 g)

theorem hclk_set1 : (b.set1 g).hclk = (b.switched g).hclk :=
  b.hclk_geared _ _ _

theorem hclk_set2 : (b.set2 g).hclk = (b.switched g).hclk :=
  (b.hclk_geared _ _ _).trans (b.hclk_set1 g)

/-- Until the switch the core's divider divides the rate of the old source. -/
theorem hclk_divided : (b.divided g).hclk = g.sysclk / b.ahb.divisor := by
  have hsource : (b.slowed2 g).sysclk = g.sysclk :=
    (b.sysclk_geared _ _ _).trans (b.sysclk_geared _ _ _)
  exact congrArg (· / b.ahb.divisor) hsource

/-- The way ends where the plan aims. -/
theorem set2_eq : b.set2 g = b.gear g := by
  have hfirst : ∀ g d, b.geared g .first d =
      if b.named.names .pclk1 then g.withApb .first d.divisor else g := fun _ _ => rfl
  have hsecond : ∀ g d, b.geared g .second d =
      if b.named.names .pclk2 then g.withApb .second d.divisor else g := fun _ _ => rfl
  simp only [set2, set1, switched, beforeSwitch, divided, slowed2, slowed1, gear, hfirst, hsecond]
  cases b.named.names .sysclk <;> cases b.named.names .hclk <;>
    cases b.named.names .pclk1 <;> cases b.named.names .pclk2 <;> rfl

end Clock.BusPlan

/-- The source is ready to be switched to. -/
def Part.Ready (p : Part) (source : SysclkSource) : Prop :=
  (p.peek .cr).has (readyBit source).1 = true

instance (p : Part) (source : SysclkSource) : Decidable (p.Ready source) :=
  inferInstanceAs (Decidable (_ = _))

/-- The driver takes the part to the gearing `g`, with no other gearing on the
way, and leaves the wait states alone. -/
def Regears (t : Temper) (patience : Nat) (x : Driver Unit) (p : Part) (g : Gearing) : Prop :=
  Ensures (simulated t) patience
    (fun e => (e.after.gearing = p.gearing ∨ e.after.gearing = g) ∧
      e.after.waitStates = p.waitStates)
    x p (fun _ q => q.gearing = g ∧ q.Settled ∧ q.waitStates = p.waitStates)

namespace Hardware

variable {t : Temper} (ht : t.Unlatched) {patience : Nat} {p : Part}

/-! ## Dividers -/

include ht in
/-- A divider is written, if it is named. What the gearing is with each code of
the divider, is given. -/
theorem writeDivider_regears {f : Field} {code : Word} (gearing : Word → Gearing)
    (hcode : f.Fits code) (hstatus : f.mask &&& ~~~StatusFlag.statusOf .cfgr = f.mask)
    (hsource : f.mask &&& (Cfgr.sw.mask ||| Cfgr.sws.mask) = 0)
    (hgearing : ∀ q, Confined (.only .cfgr f.mask) p q →
      q.gearing = gearing (f.get (q.peek .cfgr))) (hp : p.Settled) (named : Bool) :
    Regears t patience (optionally named (Driver.writeField .cfgr f code)) p
      (if named then gearing code else p.gearing) := by
  have hsame : p.gearing = gearing (f.get (p.peek .cfgr)) := hgearing p (.refl _ p)
  have hws : ∀ q, Confined (.only .cfgr f.mask) p q → q.waitStates = p.waitStates :=
    fun q hq => hq.waitStates_eq (by rw [Footprint.only_of_ne (by decide)]; decide)
  cases named with
  | false => exact .optionallyDriver nofun fun _ => ⟨rfl, hp, rfl⟩
  | true =>
      refine (writeDivider_ensures ht hcode hstatus true p).mono ?_ ?_
      · rintro e ⟨-, he, hold | hnew⟩
        · exact ⟨.inl (by rw [hgearing _ he, hold, hsame]), hws _ he⟩
        · exact ⟨.inr (by rw [hgearing _ he, hnew, if_pos rfl]), hws _ he⟩
      · rintro _ q ⟨hq, hnew⟩
        refine ⟨by rw [hgearing _ hq, hnew]; rfl, hq.settled ?_ hp, hws _ hq⟩
        rw [Footprint.only_self]
        exact hsource

include ht in
theorem writeAhb_regears (d : AhbDivider) (hp : p.Settled) :
    Regears t patience (optionally true (Driver.writeField .cfgr Cfgr.hpre d.code)) p
      (p.gearing.withAhb d.divisor) := by
  have hwrite : Regears t patience _ p _ :=
    writeDivider_regears ht (fun code => p.gearing.withAhb (ahbDivisor code)) d.code_fits
      (by decide) (by decide) (fun q hq => hq.gearing_ahb hp) hp true
  rwa [ahbDivisor_code] at hwrite

include ht in
theorem writeApb_regears (b : BusPlan) (bus : PeripheralBus) (d : ApbDivider) (hp : p.Settled) :
    Regears t patience
      (optionally (b.named.names bus.clock) (Driver.writeField .cfgr bus.divider d.code)) p
      (b.geared p.gearing bus d) := by
  have hwrite : Regears t patience _ p _ :=
    writeDivider_regears ht (fun code => p.gearing.withApb bus (apbDivisor code))
      (d.code_fits bus) (by cases bus <;> decide) (by cases bus <;> decide)
      (fun q hq => hq.gearing_apb bus hp) hp (b.named.names bus.clock)
  rwa [apbDivisor_code] at hwrite

/-- The gearings on the way through the core's divider. -/
def DividingCore (b : BusPlan) (g g' : Gearing) : Prop :=
  g' = g ∨ g' = b.slowed1 g ∨ g' = b.slowed2 g ∨ g' = b.divided g

/-- The gearings on the way through the dividers of the peripheral buses. -/
def DividingBuses (b : BusPlan) (g g' : Gearing) : Prop :=
  g' = b.switched g ∨ g' = b.set1 g ∨ g' = b.set2 g

include ht in
theorem divideCore_gearing (b : BusPlan) (hp : p.Settled) :
    Ensures (simulated t) patience
      (fun e => DividingCore b p.gearing e.after.gearing ∧ e.after.waitStates = p.waitStates)
      (divideCore b) p
      (fun _ q => q.gearing = b.divided p.gearing ∧ q.Settled ∧ q.waitStates = p.waitStates) := by
  rw [divideCore_eq]
  refine .bind ((writeApb_regears ht b .first .div16 hp).weaken ?_) ?_
  · rintro e ⟨hold | hnew, hws⟩
    · exact ⟨.inl hold, hws⟩
    · exact ⟨.inr (.inl hnew), hws⟩
  rintro _ q ⟨hslowed1, hq, hws1⟩
  have hq1 : q.gearing = b.slowed1 p.gearing := hslowed1
  refine .bind ((writeApb_regears ht b .second .div16 hq).weaken ?_) ?_
  · rw [hq1, hws1]
    rintro e ⟨hold | hnew, hws⟩
    · exact ⟨.inr (.inl hold), hws⟩
    · exact ⟨.inr (.inr (.inl hnew)), hws⟩
  rintro _ u ⟨hslowed2, hu, hws2⟩
  have hu2 : u.gearing = b.slowed2 p.gearing := by
    rw [hslowed2, hq1]
    rfl
  refine (writeAhb_regears ht b.ahb hu).mono ?_ ?_
  · rw [hu2, hws2, hws1]
    rintro e ⟨hold | hnew, hws⟩
    · exact ⟨.inr (.inr (.inl hold)), hws⟩
    · exact ⟨.inr (.inr (.inr hnew)), hws⟩
  · rintro _ v ⟨hdivided, hv, hws⟩
    exact ⟨by rw [hdivided, hu2]; rfl, hv, by rw [hws, hws2, hws1]⟩

include ht in
/-- The peripheral buses, in a part with the gearing that the switch leaves. -/
theorem dividePeripheralBuses_gearing (b : BusPlan) {g : Gearing} (hp : p.Settled)
    (hg : p.gearing = b.switched g) :
    Ensures (simulated t) patience
      (fun e => DividingBuses b g e.after.gearing ∧ e.after.waitStates = p.waitStates)
      (dividePeripheralBuses b) p
      (fun _ q => q.gearing = b.set2 g ∧ q.waitStates = p.waitStates) := by
  rw [dividePeripheralBuses_eq]
  refine .bind ((writeApb_regears ht b .first b.apb1 hp).weaken ?_) ?_
  · rw [hg]
    rintro e ⟨hold | hnew, hws⟩
    · exact ⟨.inl hold, hws⟩
    · exact ⟨.inr (.inl hnew), hws⟩
  rintro _ q ⟨hset1, hq, hws1⟩
  have hq1 : q.gearing = b.set1 g := by
    rw [hset1, hg]
    rfl
  refine (writeApb_regears ht b .second b.apb2 hq).mono ?_ ?_
  · rw [hq1, hws1]
    rintro e ⟨hold | hnew, hws⟩
    · exact ⟨.inr (.inl hold), hws⟩
    · exact ⟨.inr (.inr hnew), hws⟩
  · rintro _ u ⟨hset2, -, hws⟩
    exact ⟨by rw [hset2, hq1]; rfl, by rw [hws, hws1]⟩

/-! ## The switch -/

/-- The source in use is as before, or it is the wanted one, and that was ready.
Nothing else has changed. -/
structure Switching (source : SysclkSource) (p q : Part) : Prop where
  gearing : q.gearing = p.gearing ∨ p.Ready source ∧ q.gearing = p.gearing.withSource source
  waitStates : q.waitStates = p.waitStates

theorem Switching.of_running {source : SysclkSource} {q : Part} (hready : p.Ready source)
    (h : Confined (.only .cfgr Cfgr.sw.mask) p q)
    (hrunning : Cfgr.running (q.peek .cfgr) = Cfgr.running (p.peek .cfgr) ∨
      Cfgr.running (q.peek .cfgr) = source) : Switching source p q := by
  refine ⟨?_, h.waitStates_eq (by decide)⟩
  rw [h.gearing_source]
  rcases hrunning with hold | hnew
  · rw [hold]
    exact .inl rfl
  · rw [hnew]
    exact .inr ⟨hready, rfl⟩

/-- The source is selected. In use is it, or still the one from before. -/
structure Selected (source : SysclkSource) (p q : Part) : Prop where
  confined : Confined (.only .cfgr Cfgr.sw.mask) p q
  running : Cfgr.running (q.peek .cfgr) = Cfgr.running (p.peek .cfgr) ∨
    Cfgr.running (q.peek .cfgr) = source
  selected : Cfgr.sw.get (q.peek .cfgr) = source.code

theorem Selected.tick {source : SysclkSource} {q : Part} (h : Selected source p q) :
    Selected source p (q.tick .cfgr) := by
  have htick : Confined .none q (q.tick .cfgr) := .tick .none q .cfgr
  refine ⟨h.confined.trans htick.of_none, ?_, (htick.get_cfgr (by decide)).trans h.selected⟩
  rcases htick.running_cases (by decide) with hkept | hfollowed
  · rw [hkept]
    exact h.running
  · right
    rw [hfollowed, Cfgr.requested, h.selected, SysclkSource.ofCode_code]

include ht in
/-- The write of the selection. -/
theorem selectSource_ensures (source : SysclkSource) (hp : p.Settled) :
    Ensures (simulated t) patience
      (fun e => Confined (.only .cfgr Cfgr.sw.mask) p e.after ∧
        (Cfgr.running (e.after.peek .cfgr) = Cfgr.running (p.peek .cfgr) ∨
          Cfgr.running (e.after.peek .cfgr) = source))
      (Driver.writeField .cfgr Cfgr.sw source.code) p
      (fun _ q => Selected source p q) := by
  have htick : Confined .none p (p.tick .cfgr) := .tick .none p .cfgr
  have hread : Cfgr.running ((p.tick .cfgr).peek .cfgr) = Cfgr.running (p.peek .cfgr) :=
    congrArg SysclkSource.ofCode (htick.sws_of_settled (by decide) hp)
  have hwrite : Confined (.only .cfgr Cfgr.sw.mask) p
      ((p.tick .cfgr).write t .cfgr (Cfgr.sw.put source.code (p.peek .cfgr))) :=
    htick.of_none.write ht (Field.put_outside _ _ _)
  have hrunning : Cfgr.running (((p.tick .cfgr).write t .cfgr
      (Cfgr.sw.put source.code (p.peek .cfgr))).peek .cfgr) = Cfgr.running (p.peek .cfgr) ∨
      Cfgr.running (((p.tick .cfgr).write t .cfgr
        (Cfgr.sw.put source.code (p.peek .cfgr))).peek .cfgr) = source := by
    rcases Part.running_write ht (Cfgr.sw.put source.code (p.peek .cfgr)) (p.tick .cfgr) with
      hold | hwritten | hselected
    · exact .inl (hold.trans hread)
    · refine .inl (hwritten.trans (congrArg SysclkSource.ofCode ?_))
      exact Field.get_put_of_disjoint (by decide) _ _
    · exact .inr (hselected.trans (Cfgr.requested_put_sw _ _))
  refine .modify ⟨htick.of_none, .inl hread⟩ ⟨hwrite, hrunning⟩ ⟨hwrite, hrunning, ?_⟩
  exact (Part.steady_write ht Register.cfgr_open _ _).get_put (by decide) source.code_fits

include ht in
/-- The source is only switched if the wanted one was ready before. After a
success the system clock runs from it. -/
theorem switchSysclk_switching (source : SysclkSource) (hp : p.Settled) :
    Ensures (simulated t) patience (fun e => Switching source p e.after)
      (switchSysclk source).run p
      (fun result q => Switching source p q ∧ (result = .ok () →
        p.Ready source ∧ q.gearing = p.gearing.withSource source ∧ q.Settled)) := by
  have hstart : ∀ {q}, Confined .none p q → Switching source p q := fun hq =>
    ⟨.inl (hq.gearing_eq hp (by decide) (by decide)), hq.waitStates_eq (by decide)⟩
  unfold switchSysclk
  refine .setupBind (R := fun cr q => cr = .ok (p.peek .cr) ∧ Confined .none p q) ?_ ?_
    (fun _ _ hq => by cases hq.1)
  · have htick : Confined .none p (p.tick .cr) := .tick .none p .cr
    exact .lift (.read (hstart htick) ⟨rfl, htick⟩)
  rintro _ q ⟨⟨⟩, hq⟩
  split
  · exact .throw ⟨hstart hq, fun h => by cases h⟩
  next hunready =>
  have hready : p.Ready source := by
    unfold Part.Ready
    simpa using hunready
  have hsame : Cfgr.running (q.peek .cfgr) = Cfgr.running (p.peek .cfgr) :=
    congrArg SysclkSource.ofCode (hq.sws_of_settled (by decide) hp)
  have hswitching : ∀ {u}, Confined (.only .cfgr Cfgr.sw.mask) q u →
      (Cfgr.running (u.peek .cfgr) = Cfgr.running (q.peek .cfgr) ∨
        Cfgr.running (u.peek .cfgr) = source) → Switching source p u :=
    fun hu hrunning => .of_running hready (hq.of_none.trans hu) (hsame ▸ hrunning)
  have hselect : Ensures (simulated t) patience _
      (Driver.writeField .cfgr Cfgr.sw source.code) q _ :=
    selectSource_ensures ht source (hq.settled (by decide) hp)
  refine .setupBind (R := fun result u => result = .ok () ∧ Selected source q u)
    (.lift (hselect.mono (fun e he => hswitching he.1 he.2) fun _ _ hu => ⟨rfl, hu⟩)) ?_
    (fun _ _ hu => by cases hu.1)
  rintro _ u ⟨-, hu⟩
  refine .waitUntil (I := Selected source q) hu ?_ ?_ ?_
  · exact fun v hv => ⟨hswitching hv.tick.confined hv.tick.running, hv.tick⟩
  · intro v hv haccept
    have hsws : Cfgr.sws.get (v.peek .cfgr) = source.code := beq_iff_eq.mp haccept
    have hsettled : v.Settled := hv.selected.trans hsws.symm
    have hreached : Cfgr.running ((v.tick .cfgr).peek .cfgr) = source := by
      have htick : Confined .none v (v.tick .cfgr) := .tick .none v .cfgr
      rw [Cfgr.running, htick.sws_of_settled (by decide) hsettled, hsws,
        SysclkSource.ofCode_code]
    have hgearing : (v.tick .cfgr).gearing = p.gearing.withSource source := by
      rw [(hq.of_none.trans hv.tick.confined).gearing_source, hreached]
    refine ⟨hswitching hv.tick.confined hv.tick.running, fun _ => ⟨hready, hgearing, ?_⟩⟩
    exact (Confined.tick .none v .cfgr).settled (by decide) hsettled
  · exact fun v hv => ⟨hswitching hv.confined hv.running, fun h => by cases h⟩

/-! ## The whole way -/

/-- Where the configuration with the plan `b` can leave a part that it found as
in `p`. -/
inductive OnWay (b : BusPlan) (p q : Part) : Prop where
  /-- More wait states, if the plan has more. -/
  | raising (gearing : q.gearing = p.gearing)
      (waitStates : p.waitStates.count ≤ q.waitStates.count)
  /-- The core's divider, if it is named. -/
  | dividing (named : b.named.names .hclk = true) (gearing : DividingCore b p.gearing q.gearing)
      (waitStates : q.waitStates.count = max p.waitStates.count b.waitStates.count)
  /-- Before the switch. -/
  | waiting (gearing : q.gearing = b.beforeSwitch p.gearing)
      (waitStates : q.waitStates.count = max p.waitStates.count b.waitStates.count)
  /-- After the switch: fewer wait states, if the plan has fewer. -/
  | lowering (ready : b.named.names .sysclk = true → p.Ready b.sysclk)
      (gearing : q.gearing = b.switched p.gearing)
      (waitStates : b.waitStates.count ≤ q.waitStates.count)
  /-- The dividers of the peripheral buses. -/
  | setting (ready : b.named.names .sysclk = true → p.Ready b.sysclk)
      (gearing : DividingBuses b p.gearing q.gearing)
      (waitStates : q.waitStates = b.waitStates)

/-- All is prepared for the switch: there are enough wait states on both sides
of it, and the core's divider is set. -/
structure Prepared (b : BusPlan) (p q : Part) : Prop where
  gearing : q.gearing = b.beforeSwitch p.gearing
  waitStates : q.waitStates.count = max p.waitStates.count b.waitStates.count
  settled : q.Settled
  control : q.peek .cr = p.peek .cr

/-- The switch is over, or none was asked for. -/
structure BeyondSwitch (b : BusPlan) (p q : Part) : Prop where
  ready : b.named.names .sysclk = true → p.Ready b.sysclk
  gearing : q.gearing = b.switched p.gearing
  settled : q.Settled
  waitStates : b.waitStates.count ≤ q.waitStates.count

theorem prepareSwitch_among (b : BusPlan) :
    (prepareSwitch b).run.CallsOnly (Access.among [.acr, .cfgr]) := by
  refine .setupBind ((adjustWaitStates_among (b.waitStates.count > ·.count) _).mono
    (Access.among_mono (by simp))) fun _ => ?_
  exact .optionally (.lift ((divideCore_among b).mono (Access.among_mono (by simp))))

include ht in
theorem prepareSwitch_onWay (b : BusPlan) (hp : p.Settled) :
    Ensures (simulated t) patience (fun e => OnWay b p e.after) (prepareSwitch b).run p
      (fun result q => result = .ok () ∧ Prepared b p q) := by
  have hgears : Ensures (simulated t) patience (fun e => OnWay b p e.after)
      (prepareSwitch b).run p (fun result q => result = .ok () ∧
        q.gearing = b.beforeSwitch p.gearing ∧ q.Settled ∧
        q.waitStates.count = max p.waitStates.count b.waitStates.count) := by
    refine .setupBind ((raiseWaitStates_ensures ht b.waitStates p).weaken ?_) ?_
      (fun _ _ hq => by cases hq.1)
    · rintro e ⟨-, he, hws⟩
      exact .raising (he.gearing_eq hp (by decide) (by decide)) hws
    rintro _ q ⟨-, hq, hws⟩
    have hgearing : q.gearing = p.gearing := hq.gearing_eq hp (by decide) (by decide)
    have hqs : q.Settled := hq.settled (by decide) hp
    refine .optionally (fun hnamed => .lift ?_) (fun hskip => ?_)
    · refine (divideCore_gearing ht b hqs).mono ?_ ?_
      · rintro e ⟨hcore, hkept⟩
        exact .dividing hnamed (hgearing ▸ hcore) (by rw [hkept, hws])
      · rintro _ u ⟨hdivided, hus, hkept⟩
        refine ⟨rfl, ?_, hus, by rw [hkept, hws]⟩
        rw [BusPlan.beforeSwitch, if_pos hnamed, hdivided, hgearing]
    · refine ⟨rfl, ?_, hqs, hws⟩
      rw [BusPlan.beforeSwitch, hskip, if_neg Bool.false_ne_true, hgearing]
  -- the steps ask for neither CR nor anything that would pass time for its flags
  have hcontrol : Ensures (simulated t) patience _ (prepareSwitch b).run p _ :=
    hgears.within (Part.peek_keeps t (by simp) (by rintro ⟨u, h⟩; cases h) (p.peek .cr))
      (prepareSwitch_among b) rfl
  refine (hgears.and hcontrol).mono (fun e he => he.1) ?_
  rintro _ q ⟨⟨hok, hgearing, hqs, hws⟩, hcr, -⟩
  exact ⟨hok, hgearing, hws, hqs, hcr⟩

include ht in
/-- From a prepared part on, through the switch if it is named. -/
theorem optionalSwitch_onWay (b : BusPlan) {q : Part} (hq : Prepared b p q) :
    Ensures (simulated t) patience (fun e => OnWay b p e.after)
      (optionally (b.named.names .sysclk) (switchSysclk b.sysclk)).run q
      (fun result u => OnWay b p u ∧ (result = .ok () → BeyondSwitch b p u)) := by
  refine .optionally (fun hnamed => ?_) (fun hskip => ?_)
  · have hready : q.Ready b.sysclk → p.Ready b.sysclk := by
      unfold Part.Ready
      rw [hq.control]
      exact id
    have hgearing : q.gearing.withSource b.sysclk = b.switched p.gearing := by
      rw [BusPlan.switched, if_pos hnamed, hq.gearing]
    have honway : ∀ {u}, Switching b.sysclk q u → OnWay b p u := by
      rintro u ⟨hold | ⟨hqready, hnew⟩, hws⟩
      · exact .waiting (hold.trans hq.gearing) (by rw [hws, hq.waitStates])
      · refine .lowering (fun _ => hready hqready) (hnew.trans hgearing) ?_
        rw [hws, hq.waitStates]
        exact Nat.le_max_right _ _
    refine (switchSysclk_switching ht b.sysclk hq.settled).mono (fun e he => honway he) ?_
    rintro result u ⟨hu, hdone⟩
    refine ⟨honway hu, fun hok => ?_⟩
    obtain ⟨hqready, hnew, hus⟩ := hdone hok
    refine ⟨fun _ => hready hqready, hnew.trans hgearing, hus, ?_⟩
    rw [hu.waitStates, hq.waitStates]
    exact Nat.le_max_right _ _
  · have hnamed : b.named.names .sysclk = true → p.Ready b.sysclk := by
      rw [hskip]
      nofun
    refine ⟨.waiting hq.gearing hq.waitStates, fun _ => ⟨hnamed, ?_, hq.settled, ?_⟩⟩
    · rw [BusPlan.switched, hskip, if_neg Bool.false_ne_true, hq.gearing]
    · rw [hq.waitStates]
      exact Nat.le_max_right _ _

include ht in
/-- After the switch, to the end. -/
theorem finishSwitch_onWay (b : BusPlan) {q : Part} (hq : BeyondSwitch b p q) :
    Ensures (simulated t) patience (fun e => OnWay b p e.after) (finishSwitch b).run q
      (fun _ u => OnWay b p u) := by
  have hsame : ∀ {u}, Confined .waitStates q u → u.gearing = b.switched p.gearing :=
    fun hu => (hu.gearing_eq hq.settled (by decide) (by decide)).trans hq.gearing
  refine .setupBind ((lowerWaitStates_ensures ht hq.waitStates).weaken ?_) ?_
    (fun _ _ hq => by cases hq.1)
  · rintro e ⟨-, he, hmore⟩
    exact .lowering hq.ready (hsame he) hmore
  rintro _ u ⟨-, hu, hlow⟩
  have hus : u.Settled := hu.settled (by decide) hq.settled
  refine .lift ((dividePeripheralBuses_gearing ht b hus (hsame hu)).mono ?_ ?_)
  · rintro e ⟨hbuses, hkept⟩
    exact .setting hq.ready hbuses (hkept.trans hlow)
  · rintro _ v ⟨hset, hkept⟩
    exact .setting hq.ready (.inr (.inr hset)) (hkept.trans hlow)

include ht in
/-- Every state that the configuration of the bus clocks passes through is on
its way, and so is the one that it leaves behind. -/
theorem configureBusClocks_onWay (b : BusPlan) (hp : p.Settled) :
    Ensures (simulated t) patience (fun e => OnWay b p e.after) (configureBusClocks b).run p
      (fun _ q => OnWay b p q) := by
  rw [configureBusClocks_eq_prepare]
  refine .setupBind (prepareSwitch_onWay ht b hp) ?_ (fun _ _ hq => by cases hq.1)
  rintro _ q ⟨-, hq⟩
  refine .setupBind (optionalSwitch_onWay ht b hq) ?_ fun _ _ hu => hu.1
  exact fun _ u hu => finishSwitch_onWay ht b (hu.2 rfl)

end Hardware

end BringUp
