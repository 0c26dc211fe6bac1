import BringUp.Proofs.GearChanges
import BringUp.Proofs.OscillatorStages
import BringUp.Proofs.Traces

/-!
Where `configureBusClocks` can stop, and what it leaves there.

* `WaitStatesSet`: the way and the end of wait states that are set if it is
  due, on a part whose flash control register may have stuck bits.
* `CoreSlowed plan p q`: the core's divider is as planned, and the peripheral
  buses that are named with it run at their slowest.
* `WaitStatesRaised plan p events q`: no access has lowered the wait states, and
  in the end they are the old or the planned ones, whichever are more.
* `BusStop plan p why events q`: the four ways to end with an error, each with
  its history and with the image of the registers that is left.

Main statement: a driver that does not succeed has stopped in one of these ways
(`configureBusClocks_stops`).

Stuck bits in the flash control register can only keep the wait states from
reading back. The steps between raising and lowering them access other
registers, so what is known of them on a part without stuck bits carries over.
-/

namespace BringUp

open Clock Hardware

/-! ## A register that may do anything -/

/-- The flash control register as a whole: its stuck bits may take any value. -/
def Footprint.flash : Footprint :=
  .only .acr (BitVec.allOnes 32)

/-- A write is confined to a footprint that has the whole register in it, even if
the register does not take the word as it is. -/
theorem Confined.write_whole {m : Footprint} {p q : Part} (h : Confined m p q) (t : Temper)
    {r : Register} (hr : m r = BitVec.allOnes 32) (v : Word) : Confined m p (q.write t r v) := by
  refine ⟨fun s hs => ?_, fun f hs hf => ?_⟩
  · by_cases hsr : s = r
    · subst hsr
      rw [hr, BitVec.allOnes_or, BitVec.not_allOnes]
      simp [Word.AgreeOn]
    · rw [Part.peek_write_of_ne t v q hsr hs.1]
      exact h.steady s hs
  · by_cases hfr : f.register = r
    · rw [hfr, hr, BitVec.allOnes_and] at hf
      have hstatus : f.status = 0 := (BitVec.or_eq_zero_iff.mp hf).2
      simp [StatusFlag.shown, hstatus]
    · rw [Part.peek_write_of_ne t v q hfr hs.1]
      exact h.shown f hs hf

namespace Hardware

variable {patience : Nat}

/-! ## Wait states that may not read back -/

/-- The setting of the wait states in full: they are read and written, and read
back, and the result is whether they are the wanted ones. -/
theorem setWaitStates_traced (t : Temper) (wanted : WaitStates) (p : Part) :
    ∃ v written, written = (p.tick .acr).write t .acr v ∧
      Traced (simulated t) patience (Flash.setWaitStates wanted).run p (fun result events q =>
        result = (if written.waitStates = wanted then .ok () else .error .waitStates) ∧
        events = [⟨p, .read .acr, p.tick .acr⟩, ⟨p.tick .acr, .write .acr v, written⟩,
          ⟨written, .read .acr, written.tick .acr⟩] ∧
        q = written.tick .acr) := by
  refine ⟨Flash.latency.put (BitVec.ofNat 32 wanted.count) (p.peek .acr), _, rfl, _, _, [], ?_,
    rfl, ?_, rfl⟩
  · change Proc.run _ (ite ((Part.write t _ _ _).waitStates = wanted) (pure ()) (throw _) :
      Setup Unit).run _ = _
    split <;> rfl
  · change _ :: _ :: _ :: Proc.history _ _ (ite _ (pure ()) (throw _) : Setup Unit).run _ = _
    split <;> rfl

/-- Wait states that are set to `wanted` if it is due. Nothing but the flash
control register is accessed. They only change from the old ones to the wanted
ones, unless they do not read back. -/
structure WaitStatesSet (due : WaitStates → Prop) (wanted : WaitStates) (p : Part)
    (result : SetupResult) (events : List (Event Part)) (q : Part) : Prop where
  calls : ∀ e ∈ events, e.access.among [.acr] = true
  confined : ∀ e ∈ events, Confined .flash p e.before
  ended : Confined .flash p q
  idle : ¬due p.waitStates → result = .ok () ∧ q.waitStates = p.waitStates ∧
    ∀ e ∈ events, e.access.writes .acr = false
  changed : result = .ok () → due p.waitStates → q.waitStates = wanted
  steps : result = .ok () → ∀ e ∈ events, e.after.waitStates = e.before.waitStates ∨
    due p.waitStates ∧ e.before.waitStates = p.waitStates ∧ e.after.waitStates = wanted
  refused : ∀ why, result = .error why → why = .waitStates ∧ due p.waitStates

theorem waitStatesSet_traced (t : Temper) (due : WaitStates → Prop) [DecidablePred due]
    (wanted : WaitStates) (p : Part) :
    Traced (simulated t) patience (adjustWaitStates due wanted).run p
      (WaitStatesSet due wanted p) := by
  have hstill : ∀ u : Part, (u.tick .acr).waitStates = u.waitStates :=
    fun u => (Confined.tick .none u .acr).waitStates_eq (by decide)
  have hp1 : Confined .flash p (p.tick .acr) := .tick _ p .acr
  have hcurrent : Traced (simulated t) patience Flash.waitStates p (fun current events q =>
      current = p.waitStates ∧ events = [⟨p, .read .acr, p.tick .acr⟩] ∧ q = p.tick .acr) :=
    ⟨_, _, [], rfl, rfl, rfl, rfl⟩
  unfold adjustWaitStates
  refine .setupBind (.lift (Q := fun current events q => current = .ok p.waitStates ∧
    events = [⟨p, .read .acr, p.tick .acr⟩] ∧ q = p.tick .acr) (hcurrent.imp ?_)) ?_
    (fun _ _ _ h => by cases h.1)
  · exact fun _ _ _ h => ⟨congrArg _ h.1, h.2⟩
  rintro _ _ _ ⟨⟨⟩, rfl, rfl⟩
  split
  · next hdue =>
    obtain ⟨v, written, hwritten, hset⟩ := setWaitStates_traced t wanted (p.tick .acr)
    have hp2 : Confined .flash p ((p.tick .acr).tick .acr) := hp1.trans (.tick _ _ _)
    have hp3 : Confined .flash p written := hwritten ▸ hp2.write_whole t (by decide) v
    refine hset.imp ?_
    rintro _ _ _ ⟨rfl, rfl, rfl⟩
    refine ⟨by simp [Access.among, Access.register], by simp [Confined.refl, hp1, hp2, hp3],
      hp3.trans (.tick _ _ _), fun hidle => absurd hdue hidle, ?_, ?_, ?_⟩
    · intro hok _
      split at hok
      · next hnew => exact (hstill written).trans hnew
      · cases hok
    · intro hok
      split at hok
      · next hnew => simp [hstill, hnew, hdue]
      · cases hok
    · intro why hwhy
      split at hwhy
      · cases hwhy
      · exact ⟨(Except.error.inj hwhy).symm, hdue⟩
  · next hidle =>
    refine .setupPure ⟨by simp [Access.among, Access.register], by simp [Confined.refl], hp1,
      fun _ => ⟨rfl, hstill p, by simp [Access.writes]⟩, fun _ hdue => absurd hdue hidle,
      fun _ => ?_, fun _ h => by cases h⟩
    simp [hstill]

/-! ## What is left behind -/

/-- The dividers before the switch: the core's is as planned if it is named, and
then the named peripheral buses run at their slowest. -/
structure CoreSlowed (plan : BusPlan) (p q : Part) : Prop where
  hpre : Cfgr.hpre.get (q.peek .cfgr) =
    divided Cfgr.hpre (plan.named.names .hclk) plan.ahb.code p
  ppre1 : Cfgr.ppre1.get (q.peek .cfgr) = divided Cfgr.ppre1
    (plan.named.names .hclk && plan.named.names .pclk1) ApbDivider.div16.code p
  ppre2 : Cfgr.ppre2.get (q.peek .cfgr) = divided Cfgr.ppre2
    (plan.named.names .hclk && plan.named.names .pclk2) ApbDivider.div16.code p

/-- The wait states were never lowered, and they are the old ones or the planned
ones, whichever are more. -/
structure WaitStatesRaised (plan : BusPlan) (p : Part) (events : List (Event Part))
    (q : Part) : Prop where
  never_lowered : ∀ e ∈ events, e.before.waitStates.count ≤ e.after.waitStates.count
  largest : q.waitStates.count = max p.waitStates.count plan.waitStates.count

/-- The source is selected, and the system clock runs from it. -/
def RunsFrom (source : SysclkSource) (p : Part) : Prop :=
  Cfgr.sw.get (p.peek .cfgr) = source.code ∧ p.Settled

/-- A switch that fails, from `p` on. -/
inductive SwitchStop (source : SysclkSource) (p : Part) :
    SetupError → List (Event Part) → Part → Prop
  /-- The last access was to see that the source is not ready. It has not been
  selected. -/
  | unready {events : List (Event Part)} {e : Event Part} {q : Part}
      (last : events.getLast? = some e) (read : e.access = .read .cr)
      (clear : (e.before.peek .cr).has (readyBit source).1 = false)
      (unchanged : Cfgr.sw.get (q.peek .cfgr) = Cfgr.sw.get (p.peek .cfgr)) :
      SwitchStop source p (.notReady (readyBit source).2) events q
  /-- The source is selected, but the system clock has not arrived there. -/
  | late {events : List (Event Part)} {q : Part}
      (selected : Cfgr.sw.get (q.peek .cfgr) = source.code) :
      SwitchStop source p (.timeout .sysclkSwitch) events q

/-- The ways in which the driver stops with an error, with the events up to
there and the part that it leaves behind. -/
inductive BusStop (plan : BusPlan) (p : Part) : SetupError → List (Event Part) → Part → Prop
  /-- The wait states could not be raised, and nothing else has been tried. -/
  | raising {events : List (Event Part)} {q : Part}
      (more : p.waitStates.count < plan.waitStates.count)
      (unwritten : ∀ e ∈ events, e.access.writes .cfgr = false)
      (unchanged : q.peek .cfgr = p.peek .cfgr) : BusStop plan p .waitStates events q
  /-- The switch has failed, with the part slowed down for it. -/
  | switching {why : SetupError} {events : List (Event Part)} {q : Part}
      (named : plan.named.names .sysclk = true) (switch : SwitchStop plan.sysclk p why events q)
      (core : CoreSlowed plan p q) (waitStates : WaitStatesRaised plan p events q) :
      BusStop plan p why events q
  /-- The wait states could not be lowered in the end. No attempt to set them
  was made before the system clock ran from the planned source. -/
  | lowering {events : List (Event Part)} {q : Part}
      (fewer : plan.waitStates.count < p.waitStates.count) (core : CoreSlowed plan p q)
      (arrived : plan.named.names .sysclk = true → RunsFrom plan.sysclk q)
      (written : ∀ e ∈ events, e.access.writes .acr = true → plan.named.names .sysclk = true →
        RunsFrom plan.sysclk e.before) : BusStop plan p .waitStates events q

theorem RunsFrom.of_confined {source : SysclkSource} {p q : Part} (h : Confined .flash p q)
    (hp : RunsFrom source p) : RunsFrom source q :=
  ⟨(h.get_cfgr (by decide)).trans hp.1, h.settled (by decide) hp.2⟩

theorem CoreSlowed.of_cfgr_eq {plan : BusPlan} {p q u : Part} (h : CoreSlowed plan q u)
    (hq : q.peek .cfgr = p.peek .cfgr) : CoreSlowed plan p u := by
  have hdivided : ∀ f named code, divided f named code q = divided f named code p := by
    intro f named code
    rw [divided, hq]
    rfl
  exact ⟨h.hpre.trans (hdivided _ _ _), h.ppre1.trans (hdivided _ _ _),
    h.ppre2.trans (hdivided _ _ _)⟩

/-- What touches none of the dividers leaves the core slowed down. -/
theorem CoreSlowed.of_confined {plan : BusPlan} {m : Footprint} {p q u : Part}
    (h : CoreSlowed plan p q) (hm : m .cfgr &&& Footprint.dividers .cfgr = 0)
    (hu : Confined m q u) : CoreSlowed plan p u := by
  have hfield : ∀ {f : Field}, f.mask &&& Footprint.dividers .cfgr = f.mask →
      StatusFlag.statusOf .cfgr &&& f.mask = 0 →
      f.get (u.peek .cfgr) = f.get (q.peek .cfgr) := by
    intro f hf hstatus
    refine hu.get_cfgr (Word.or_and_eq_zero ?_ hstatus)
    rw [← hf, BitVec.and_comm f.mask, ← BitVec.and_assoc, hm]
    exact BitVec.zero_and
  refine ⟨(hfield (by decide) (by decide)).trans h.hpre,
    (hfield (by decide) (by decide)).trans h.ppre1, (hfield (by decide) (by decide)).trans h.ppre2⟩

/-! ## The steps -/

variable {t : Temper} (ht : t.LatchesOnly .acr)

include ht in
/-- The clock registers have no stuck bits. -/
theorem clocks_alike : (simulated t).Alike (simulated t.freed) (Access.among [.cfgr, .cr]) :=
  simulated_alike fun r hr => ht r (by rintro rfl; simp at hr)

/-- What is known before the switch: the events so far, and the part. -/
structure SlowedDown (plan : BusPlan) (p : Part) (events : List (Event Part)) (q : Part) :
    Prop where
  core : CoreSlowed plan p q
  waitStates : WaitStatesRaised plan p events q
  sw : Cfgr.sw.get (q.peek .cfgr) = Cfgr.sw.get (p.peek .cfgr)
  idle : plan.waitStates.count ≤ p.waitStates.count → ∀ e ∈ events, e.access.writes .acr = false

include ht in
theorem optionalCore_traced (plan : BusPlan) (p : Part) :
    Traced (simulated t) patience
      (optionally (plan.named.names .hclk) (liftM (divideCore plan) : Setup Unit)).run p
      (fun result events q => result = .ok () ∧ CoreSlowed plan p q ∧ Confined .dividers p q ∧
        ∀ e ∈ events, e.access.among [.cfgr] = true ∧ Confined .dividers p e.before ∧
          Confined .dividers p e.after) := by
  refine .optionally (fun hnamed => .lift ?_) (fun hskip => ?_)
  · have hfreed : Traced (simulated t.freed) patience (divideCore plan) p _ :=
      (Traced.of_ensures (divideCore_ensures t.freed_unlatched plan p)).calling
        (divideCore_among plan)
    have hdivide : Traced (simulated t) patience (divideCore plan) p _ :=
      hfreed.alike ((divideCore_among plan).mono (Access.among_mono (by simp))) (clocks_alike ht)
    refine hdivide.imp ?_
    rintro _ events q ⟨hcalls, hevents, hq, hhpre, hppre1, hppre2⟩
    refine ⟨rfl, ⟨?_, ?_, ?_⟩, hq, fun e he => ⟨hcalls e he, hevents e he⟩⟩
    · rw [hhpre, hnamed]
      rfl
    · rw [hppre1, hnamed, Bool.true_and]
    · rw [hppre2, hnamed, Bool.true_and]
  · refine ⟨rfl, ⟨?_, ?_, ?_⟩, .refl _ p, List.forall_mem_nil _⟩ <;> rw [hskip] <;> rfl

include ht in
/-- Up to the switch the driver only stops if the wait states do not read
back. -/
theorem prepareSwitch_traced (plan : BusPlan) (p : Part) :
    Traced (simulated t) patience (prepareSwitch plan).run p (fun result events q =>
      (result = .ok () → SlowedDown plan p events q) ∧
      ∀ why, result = .error why → BusStop plan p why events q) := by
  have hraise : Traced (simulated t) patience (raiseWaitStates plan.waitStates).run p _ :=
    (waitStatesSet_traced t (plan.waitStates.count > ·.count) plan.waitStates p).keeping
      (adjustWaitStates_among (plan.waitStates.count > ·.count) _)
      (Part.peek_keeps t (by simp) (by rintro ⟨u, h⟩; cases h) (p.peek .cfgr)) rfl
  refine .setupBind hraise ?_ ?_
  · rintro _ events q ⟨hcfgr, hset⟩
    have hsteps : ∀ e ∈ events, e.before.waitStates.count ≤ e.after.waitStates.count := by
      intro e he
      rcases hset.steps rfl e he with hkept | ⟨hdue, hold, hnew⟩
      · exact Nat.le_of_eq (congrArg _ hkept.symm)
      · rw [hold, hnew]
        exact Nat.le_of_lt hdue
    have hlargest : q.waitStates.count = max p.waitStates.count plan.waitStates.count := by
      by_cases hdue : plan.waitStates.count > p.waitStates.count
      · rw [hset.changed rfl hdue]
        omega
      · rw [(hset.idle hdue).2.1]
        omega
    refine (optionalCore_traced ht plan q).imp ?_
    rintro _ later u ⟨rfl, hcore, hdividers, hlater⟩
    refine ⟨fun _ => ⟨hcore.of_cfgr_eq hcfgr, ⟨?_, ?_⟩, ?_, ?_⟩, nofun⟩
    · refine List.forall_mem_append.mpr ⟨hsteps, fun e he => ?_⟩
      obtain ⟨-, hbefore, hafter⟩ := hlater e he
      exact Nat.le_of_eq (congrArg _ ((hbefore.waitStates_eq (by decide)).trans
        (hafter.waitStates_eq (by decide)).symm))
    · rw [hdividers.waitStates_eq (by decide), hlargest]
    · rw [hdividers.get_cfgr (by decide), hcfgr]
    · intro hfewer
      refine List.forall_mem_append.mpr ⟨(hset.idle (Nat.not_lt.mpr hfewer)).2.2, fun e he => ?_⟩
      exact Access.writes_of_among (by simp) (hlater e he).1
  · rintro why events q ⟨hcfgr, hset⟩
    obtain ⟨rfl, hdue⟩ := hset.refused why rfl
    refine ⟨nofun, fun _ hwhy => ?_⟩
    cases hwhy
    exact .raising hdue (fun e he => Access.writes_of_among (by simp) (hset.calls e he)) hcfgr

theorem switchSysclk_traced {t : Temper} (ht : t.Unlatched) (source : SysclkSource) (p : Part) :
    Traced (simulated t) patience (switchSysclk source).run p (fun result events q =>
      Confined (.only .cfgr Cfgr.sw.mask) p q ∧
      (∀ e ∈ events, Confined (.only .cfgr Cfgr.sw.mask) p e.before ∧
        Confined (.only .cfgr Cfgr.sw.mask) p e.after) ∧
      (result = .ok () → RunsFrom source q) ∧
      ∀ why, result = .error why → SwitchStop source p why events q) := by
  unfold switchSysclk
  have htick : Confined .none p (p.tick .cr) := .tick .none p .cr
  refine .setupBind (.lift (Q := fun cr events q => cr = .ok (p.peek .cr) ∧
    events = [⟨p, .read .cr, p.tick .cr⟩] ∧ q = p.tick .cr) (.read ⟨rfl, rfl, rfl⟩)) ?_
    (fun _ _ _ h => by cases h.1)
  rintro _ _ _ ⟨⟨⟩, rfl, rfl⟩
  have hstart : ∀ e ∈ [(⟨p, .read .cr, p.tick .cr⟩ : Event Part)],
      Confined (.only .cfgr Cfgr.sw.mask) p e.before ∧
        Confined (.only .cfgr Cfgr.sw.mask) p e.after :=
    List.forall_mem_singleton.mpr ⟨.refl _ p, htick.of_none⟩
  split
  · next hunready =>
    refine .throw ⟨htick.of_none, by rwa [List.append_nil], nofun, ?_⟩
    rintro _ ⟨⟩
    exact .unready rfl rfl (by simpa using hunready) (htick.get_cfgr (by decide))
  · refine (Traced.of_ensures (selectSysclk_ensures ht source (p.tick .cr))).imp ?_
    rintro result events q ⟨hevents, hq, hselected, hend⟩
    refine ⟨htick.of_none.trans hq, List.forall_mem_append.mpr ⟨hstart, fun e he => ?_⟩, ?_, ?_⟩
    · exact ⟨htick.of_none.trans (hevents e he).1, htick.of_none.trans (hevents e he).2⟩
    · intro hok
      rcases hend with ⟨-, hsettled⟩ | htimeout
      · exact ⟨hselected, hsettled⟩
      · cases htimeout.symm.trans hok
    · intro why hwhy
      rcases hend with ⟨hok, -⟩ | htimeout
      · cases hok.symm.trans hwhy
      · obtain rfl := Except.error.inj (hwhy.symm.trans htimeout)
        exact .late hselected

include ht in
/-- After the switch the driver only stops if the wait states do not read
back. -/
theorem finishSwitch_traced (plan : BusPlan) (p : Part) :
    Traced (simulated t) patience (finishSwitch plan).run p (fun result events q =>
      ∀ why, result = .error why → why = .waitStates ∧
        plan.waitStates.count < p.waitStates.count ∧ Confined .flash p q ∧
        ∀ e ∈ events, Confined .flash p e.before) := by
  refine .setupBind (waitStatesSet_traced t (plan.waitStates.count < ·.count) _ p) ?_ ?_
  · intro _ events q _
    have hdivide : Traced (simulated t) patience (dividePeripheralBuses plan) q _ :=
      (Traced.of_ensures (dividePeripheralBuses_ensures t.freed_unlatched plan q)).alike
        ((dividePeripheralBuses_among plan).mono (Access.among_mono (by simp))) (clocks_alike ht)
    exact .lift (hdivide.imp fun _ _ _ _ => nofun)
  · rintro why events q hset _ ⟨⟩
    obtain ⟨rfl, hdue⟩ := hset.refused why rfl
    exact ⟨rfl, hdue, hset.ended, hset.confined⟩

/-- A switch that fails does so whatever was done before, if the source was not
selected by it. -/
theorem SwitchStop.after {source : SysclkSource} {p q u : Part} {why : SetupError}
    {events : List (Event Part)} (h : SwitchStop source q why events u)
    (hsw : Cfgr.sw.get (q.peek .cfgr) = Cfgr.sw.get (p.peek .cfgr))
    (before : List (Event Part)) : SwitchStop source p why (before ++ events) u := by
  cases h with
  | unready last read clear unchanged =>
      exact .unready (by rw [List.getLast?_append, last]; rfl) read clear (unchanged.trans hsw)
  | late selected => exact .late selected

/-! ## The main statement -/

include ht in
/-- From a part that is slowed down, through the switch if it is named. -/
theorem optionalSwitch_traced (plan : BusPlan) {p q : Part} {before : List (Event Part)}
    (hq : SlowedDown plan p before q) :
    Traced (simulated t) patience
      (optionally (plan.named.names .sysclk) (switchSysclk plan.sysclk)).run q
      (fun result events u =>
        CoreSlowed plan p u ∧ WaitStatesRaised plan p (before ++ events) u ∧
        (∀ e ∈ events, e.access.among [.cfgr, .cr] = true) ∧
        (result = .ok () → plan.named.names .sysclk = true → RunsFrom plan.sysclk u) ∧
        ∀ why, result = .error why → BusStop plan p why (before ++ events) u) := by
  refine .optionally (fun hnamed => ?_) (fun hskip => ?_)
  · have hswitch : Traced (simulated t) patience (switchSysclk plan.sysclk).run q _ :=
      ((switchSysclk_traced t.freed_unlatched plan.sysclk q).calling (switchSysclk_among _)).alike
        (switchSysclk_among _) (clocks_alike ht)
    refine hswitch.imp ?_
    rintro result events u ⟨hcalls, hu, hevents, hruns, hstops⟩
    have hcore : CoreSlowed plan p u := hq.core.of_confined (by decide) hu
    have hraised : WaitStatesRaised plan p (before ++ events) u := by
      refine ⟨List.forall_mem_append.mpr ⟨hq.waitStates.never_lowered, fun e he => ?_⟩, ?_⟩
      · obtain ⟨hbefore, hafter⟩ := hevents e he
        exact Nat.le_of_eq (congrArg _ ((hbefore.waitStates_eq (by decide)).trans
          (hafter.waitStates_eq (by decide)).symm))
      · rw [hu.waitStates_eq (by decide)]
        exact hq.waitStates.largest
    refine ⟨hcore, hraised, hcalls, fun hok _ => hruns hok, fun why hwhy => ?_⟩
    exact .switching hnamed ((hstops why hwhy).after hq.sw before) hcore hraised
  · refine ⟨hq.core, ?_, List.forall_mem_nil _, fun _ hnamed => ?_, nofun⟩
    · rw [List.append_nil]
      exact hq.waitStates
    · rw [hskip] at hnamed
      cases hnamed

include ht in
/-- On a part whose flash control register may have stuck bits, but no other,
the driver comes to a result. An error is that of one of its steps, with the
history up to there and with the part left as that step found it. -/
theorem configureBusClocks_stops (patience : Nat) (plan : BusPlan) (p : Part) :
    ∃ result q, Setup.EndsIn t patience (configureBusClocks plan) p result q ∧
      ∀ why, result = .error why → BusStop plan p why
        ((configureBusClocks plan).run.history (simulated t) patience p) q := by
  have htraced : Traced (simulated t) patience (configureBusClocks plan).run p
      (fun result events q => ∀ why, result = .error why → BusStop plan p why events q) := by
    rw [configureBusClocks_eq_prepare]
    refine .setupBind (prepareSwitch_traced ht plan p) ?_ (fun why _ _ h => h.2)
    rintro _ before q1 ⟨hslowed, -⟩
    have hq1 := hslowed rfl
    refine .setupBind (optionalSwitch_traced ht plan hq1) ?_ (fun why _ _ h => h.2.2.2.2)
    rintro _ during q2 ⟨hcore, hraised, hcalls, hruns, -⟩
    refine (finishSwitch_traced ht plan q2).imp ?_
    intro result after q hfinish why hwhy
    obtain ⟨rfl, hdue, hq, hafter⟩ := hfinish why hwhy
    have hfewer : plan.waitStates.count < p.waitStates.count := by
      rw [hraised.largest] at hdue
      omega
    refine .lowering hfewer (hcore.of_confined (by decide) hq)
      (fun hnamed => (hruns rfl hnamed).of_confined hq) ?_
    -- the wait states were enough at first, so they are only written at the end
    intro e he hwrites hnamed
    rcases List.mem_append.mp he with he | he
    · rw [hq1.idle (Nat.le_of_lt hfewer) e he] at hwrites
      cases hwrites
    · rcases List.mem_append.mp he with he | he
      · rw [Access.writes_of_among (by simp) (hcalls e he)] at hwrites
        cases hwrites
      · exact (hruns rfl hnamed).of_confined (hafter e he)
  obtain ⟨result, q, log, hrun, hstops⟩ := htraced
  exact ⟨result, q, ⟨log, hrun⟩, hstops⟩

end Hardware

/-- A part whose wait states are stuck at none. -/
def Temper.stuckLatency : Temper :=
  { Temper.prompt with latch := fun r => if r = .acr then some (0xFFFFFFF8, 0) else none }

namespace Hardware

/-- There the board's plan stops at the wait states, with the configuration as
it was. Without any wait states it goes on to the switch, and stops there
because the PLL is not running. -/
theorem configureBusClocks_stops_stuckLatency :
    Temper.stuckLatency.LatchesOnly .acr ∧
    (∃ q, Setup.EndsIn .stuckLatency 0 (configureBusClocks Plan.board.buses) .onHsi
      (.error .waitStates) q ∧ q.peek .cfgr = Part.onHsi.peek .cfgr) ∧
    ∃ q, Setup.EndsIn .stuckLatency 0
        (configureBusClocks { Plan.board.buses with waitStates := .ws0 }) .onHsi
        (.error (.notReady .pll)) q ∧
      CoreSlowed { Plan.board.buses with waitStates := .ws0 } .onHsi q ∧
      Cfgr.sw.get (q.peek .cfgr) = SysclkSource.hsi.code := by
  have hstuck : Temper.stuckLatency.LatchesOnly .acr := fun r hr => if_neg hr
  refine ⟨hstuck, ?_, ?_⟩
  · obtain ⟨q, hends⟩ : ∃ q, Setup.EndsIn .stuckLatency 0 (configureBusClocks Plan.board.buses)
        .onHsi (.error .waitStates) q := Setup.endsIn_of_any (by decide +kernel)
    obtain ⟨_, _, hends', hstops⟩ := configureBusClocks_stops hstuck 0 Plan.board.buses .onHsi
    obtain ⟨rfl, rfl⟩ := hends.unique hends'
    refine ⟨q, hends, ?_⟩
    cases hstops _ rfl with
    | raising more unwritten unchanged => exact unchanged
    | switching named switch core waitStates => cases switch
    | lowering fewer core arrived written => exact absurd fewer (by decide +kernel)
  · obtain ⟨q, hends⟩ : ∃ q, Setup.EndsIn .stuckLatency 0
        (configureBusClocks { Plan.board.buses with waitStates := .ws0 }) .onHsi
        (.error (.notReady .pll)) q := Setup.endsIn_of_any (by decide +kernel)
    obtain ⟨_, _, hends', hstops⟩ := configureBusClocks_stops hstuck 0
      { Plan.board.buses with waitStates := .ws0 } .onHsi
    obtain ⟨rfl, rfl⟩ := hends.unique hends'
    refine ⟨q, hends, ?_⟩
    cases hstops _ rfl with
    | switching named switch core waitStates =>
        cases switch with
        | unready last read clear unchanged => exact ⟨core, unchanged⟩

end Hardware

end BringUp
