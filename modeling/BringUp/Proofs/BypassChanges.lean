import BringUp.Proofs.BypassBits
import BringUp.Proofs.NamedBuses
import BringUp.Proofs.RtcSource

/-!
Which services change the bypass of a running oscillator.

* `Bypassable.modify_keeps`, `Bypassable.modify_unchanged`: rules for writes to
  other bits of the register.
* `Bypassable.Stopped t patience plan p`: to carry out the plan from `p`, the
  oscillator is stopped while an external clock is fed into it.
* `provide_keptIn_iff`: each service, from every state.

Main statement: a sequence of services keeps the bypass of an oscillator that
runs if and only if none of them stops the oscillator while an external clock is
fed into it (`bypass_kept_iff`). It may be asked to stop it: the clock reset does
so with two writes, and is allowed to.

The reset of the backup domain is the one place where the bypass is written back
blindly. By then the crystal is off, or it is as it was before the reset.
-/

namespace BringUp

open Board Clock Hardware

namespace Bypassable

variable {b : Bypassable} {t : Temper} {patience : Nat} {p q : Part}

/-! ## Drivers that keep the bypass -/

/-- The external oscillator's bypass is kept by what is confined to other bits. -/
theorem keptIn_of_confines (ht : t.Unlatched) {α : Type} {m : Footprint} {x : Driver α}
    (hx : Confines t patience m x) (hm : (m .cr ||| StatusFlag.statusOf .cr) &&& Cr.hseBypass = 0)
    (p : Part) : Bypassable.hse.KeptIn (x.history (simulated t) patience p) := by
  rintro ⟨before, access, after⟩ he
  unfold Event.Keeps
  split
  · next r v haccess =>
    rintro rfl
    obtain rfl : access = .write .cr v := haccess
    obtain rfl : after = before.write t .cr v := Proc.after_of_mem_history he rfl
    obtain ⟨hbefore, hafter⟩ := (hx p).guarded _ he
    have hstored := Part.steady_write ht Register.cr_open v before
    have hcover : m.Covers p .cr := Footprint.covers_of_ne hse.notUsart (by decide)
    have hsame : Word.AgreeOn Cr.hseBypass ((before.write t .cr v).peek .cr) (before.peek .cr) :=
      (hafter.agreeOn hcover hm).trans (hbefore.agreeOn hcover hm).symm
    exact .inl (((hstored.has (by decide)).symm).trans (hsame.has BitVec.and_self))
  · trivial

/-- The oscillator is off, or its bypass is as it is in `w`. -/
def Unchanged (b : Bypassable) (w : Word) (p : Part) : Prop :=
  (p.peek b.register).has b.on = false ∨ (p.peek b.register).has b.bypass = w.has b.bypass

theorem Unchanged.tick {w : Word} (h : b.Unchanged w p) (r : Register) :
    b.Unchanged w (p.tick r) := by
  unfold Unchanged
  rw [(b.agreeOn_tick p r).has b.on_plain, (b.agreeOn_tick p r).has b.bypass_plain]
  exact h

/-- A write that leaves the bypass alone may be taken, dropped or reset the
domain. -/
theorem Unchanged.write (ht : t.Unlatched) {w v : Word} (h : b.Unchanged w p)
    (hv : v.has b.on = (p.peek b.register).has b.on)
    (hbypass : v.has b.bypass = (p.peek b.register).has b.bypass) :
    b.Unchanged w (p.write t b.register v) := by
  by_cases hignored : p.ignores t b.register = true
  · rw [Part.write_of_ignores hignored]
    exact h
  · rcases stored_or_off ht (Bool.eq_false_iff.mpr hignored) v with hstored | hoff
    · unfold Unchanged
      rw [hstored.has b.on_plain, hstored.has b.bypass_plain, hv, hbypass]
      exact h
    · exact .inl hoff

/-- A read-modify-write that leaves the bypass alone keeps it. -/
theorem modify_keeps {f : Word → Word} {Q : Unit → Part → Prop}
    (hf : ∀ w, Word.AgreeOn b.bypass (f w) w)
    (hQ : Q () ((p.tick b.register).write t b.register (f (p.peek b.register)))) :
    Ensures (simulated t) patience (·.Keeps b) (Driver.modify b.register f) p Q := by
  have htick := (b.agreeOn_tick p b.register).has b.bypass_plain
  exact .modify trivial
    (keeps_write_iff.mpr (.inl (((hf _).has BitVec.and_self).trans htick.symm))) hQ

theorem modify_unchanged (ht : t.Unlatched) {f : Word → Word}
    (hf : ∀ w, Word.AgreeOn (b.on ||| b.bypass) (f w) w) {w : Word} (hp : b.Unchanged w p) :
    Ensures (simulated t) patience (·.Keeps b) (Driver.modify b.register f) p
      (fun _ q => b.Unchanged w q) := by
  have htick := b.agreeOn_tick p b.register
  have hon : (f (p.peek b.register)).has b.on = ((p.tick b.register).peek b.register).has b.on :=
    ((hf _).has (by cases b <;> decide)).trans (htick.has b.on_plain).symm
  have hbypass : (f (p.peek b.register)).has b.bypass =
      ((p.tick b.register).peek b.register).has b.bypass :=
    ((hf _).has (by cases b <;> decide)).trans (htick.has b.bypass_plain).symm
  exact modify_keeps (fun v => (hf v).mono (by cases b <;> decide))
    ((hp.tick b.register).write ht hon hbypass)

/-- A wait writes nothing. -/
theorem wait_keeps (b : Bypassable) (r : Register) (accept : Word → Bool) (flag : ReadyFlag)
    (budget : Nat) (p : Part) :
    Ensures (simulated t) patience (·.Keeps b) (Setup.waitUntil r accept flag budget).run p
      (fun _ _ => True) :=
  .waitUntil (I := fun _ => True) trivial (fun _ _ => ⟨trivial, trivial⟩) (fun _ _ _ => trivial)
    (fun _ _ => trivial)

/-! ## The reset of the clocks -/

/-- The reset switches the external oscillator off before it clears the bypass. -/
theorem resetPart_keeps (ht : t.Unlatched) (p : Part) :
    Ensures (simulated t) patience (·.Keeps .hse) resetPart p (fun _ _ => True) := by
  have hoff : ∀ w : Word, (w &&& keepBesideOscillators).has Cr.hseOn = false := fun w => by
    rw [← BitVec.not_not (b := keepBesideOscillators)]
    exact Word.has_andNot_of_subset w (by decide)
  have hconfig : ∀ {f : Word → Word} (u : Part),
      Ensures (simulated t) patience (·.Keeps .hse) (Driver.modify .cfgr f) u (fun _ _ => True) :=
    fun u => .modify trivial (fun h => by cases h) trivial
  have hstop : ∀ u : Part, Ensures (simulated t) patience (·.Keeps .hse)
      (Driver.modify .cr (· &&& keepBesideOscillators)) u
      (fun _ v => (v.peek .cr).has Cr.hseOn = false) := fun u =>
    modify_keeps (b := .hse) (fun v => Word.agreeOn_and v (by decide))
      (off_write (b := .hse) ht rfl (hoff _))
  have hclear : ∀ u : Part, (u.peek .cr).has Cr.hseOn = false →
      Ensures (simulated t) patience (·.Keeps .hse) (Driver.modify .cr (· &&& keepBesideBypass)) u
        (fun _ _ => True) := fun u hu =>
    .modify trivial ((keeps_write_iff (b := .hse)).mpr
      (.inr (.inl (((hse.agreeOn_tick u .cr).has hse.on_plain).trans hu)))) trivial
  unfold resetPart resetClocks
  refine .bind (R := fun _ _ => True) ?_ fun _ _ _ => .write (fun h => by cases h) trivial
  refine .bind (R := fun _ _ => True)
    (modify_keeps (b := .hse) (fun v => Word.agreeOn_or v (by decide)) trivial) fun _ u _ => ?_
  refine .bind (hconfig u) fun _ u _ => .bind (hstop u) fun _ u hu => .bind (hclear u hu) ?_
  exact fun _ u _ => .bind (hconfig u) fun _ u _ => .write (fun h => by cases h) trivial

/-! ## The real-time clock -/

/-- The bypass comes back with the rest of the domain, while the reset has left
the crystal off. -/
theorem restoreBackupDomain_keeps (ht : t.Unlatched) (p : Part) :
    Ensures (simulated t) patience (·.Keeps .lse) restoreBackupDomain p (fun _ _ => True) := by
  have hother : ∀ {f : Word → Word} {w : Word} {u : Part},
      (∀ v, Word.AgreeOn (Bdcr.lseOn ||| Bdcr.lseBypass) (f v) v) → lse.Unchanged w u →
      Ensures (simulated t) patience (·.Keeps .lse) (Driver.modify .bdcr f) u
        (fun _ v => lse.Unchanged w v) := fun hf hu => modify_unchanged (b := .lse) ht hf hu
  unfold restoreBackupDomain
  refine .bind (R := fun _ q => p = q) (.log rfl) ?_
  rintro _ _ rfl
  refine .bind (R := fun w q => w = p.peek .bdcr ∧ lse.Unchanged w q)
    (.read trivial ⟨rfl, Unchanged.tick (.inr rfl) .bdcr⟩) ?_
  rintro w q ⟨rfl, hq⟩
  refine .bind (hother (fun v => Word.agreeOn_or v (by decide)) hq) fun _ q hq => ?_
  refine .bind (hother (fun v => Word.agreeOn_andNot v (by decide)) hq) fun _ q hq => ?_
  refine .bind (R := fun _ _ => True) (.write ?_ trivial) fun _ _ _ => .pure trivial
  have hsaved : (p.peek .bdcr &&& ~~~Bdcr.rtcSource.mask).has Bdcr.lseBypass =
      (p.peek .bdcr).has Bdcr.lseBypass := (Word.agreeOn_and _ (by decide)).has BitVec.and_self
  refine (keeps_write_iff (b := .lse)).mpr ?_
  rcases hq with hoff | hsame
  · exact .inr (.inl hoff)
  · exact .inl (hsaved.trans hsame.symm)

theorem access_keeps (t : Temper) (p : Part) :
    Ensures (simulated t) patience (·.Keeps .lse) BackupDomain.access.run p (fun _ _ => True) :=
  ⟨keptIn_of_spares (b := .lse) access_spares p, _, _, _, access_run p, trivial⟩

/-- The selection of the source keeps the crystal's bypass, also if it resets the
domain. -/
theorem selectRtcSource_keeps (ht : t.Unlatched) (source : RtcSource) (p : Part) :
    Ensures (simulated t) patience (·.Keeps .lse) (selectRtcSource source).run p
      (fun _ _ => True) := by
  have hwrite : ∀ u : Part, Ensures (simulated t) patience (·.Keeps .lse)
      (liftM (Driver.writeField .bdcr Bdcr.rtcSource source.code) : Setup Unit).run u
      (fun _ _ => True) := fun u =>
    .lift (modify_keeps (b := .lse) (fun v => Word.agreeOn_put _ _ v (by decide)) trivial)
  unfold selectRtcSource
  refine .setupBind (access_keeps t p) (fun _ q _ => ?_) (fun _ _ _ => trivial)
  refine .setupBind (R := fun _ _ => True) (.lift (.readField trivial trivial))
    (fun current q _ => ?_) (fun _ _ _ => trivial)
  dsimp only
  split
  · refine .setupBind (R := fun _ _ => True) ?_ (fun _ u _ => hwrite u) (fun _ _ _ => trivial)
    rw [resetBackupDomain_eq]
    refine .setupBind (R := fun _ _ => True) (.lift (restoreBackupDomain_keeps ht q)) ?_
      (fun _ _ _ => trivial)
    intro saved u _
    split
    · exact wait_keeps _ _ _ _ _ u
    · exact .setupPure trivial
  · exact hwrite q

/-! ## The drivers of the two oscillators -/

/-- The bypass depends on the oscillator's register only. -/
theorem bypassed_congr (h : q.peek b.register = p.peek b.register) :
    b.Bypassed q ↔ b.Bypassed p := by
  unfold Bypassed
  rw [h]

theorem bypassed_tick (r : Register) : b.Bypassed (p.tick r) ↔ b.Bypassed p := by
  have htick := b.agreeOn_tick p r
  unfold Bypassed
  rw [htick.has b.on_plain, htick.has b.bypass_plain, htick.has (by cases b <;> decide)]

/-- To find out what the system clock runs from changes nothing. -/
theorem drivesSysclk_keptIn (t : Temper) (p : Part) :
    Traced (simulated t) patience (drivesSysclk .hse .hse) p (fun drives es q =>
      drives = decide (Cfgr.Drives .hse .hse (p.peek .cfgr)) ∧ hse.KeptIn es ∧
        q.peek .cr = p.peek .cr) := by
  have hamong := drivesSysclk_among .hse .hse
  refine (((Traced.of_ensures (drivesSysclk_ensures p .hse .hse)).calling hamong).keeping hamong
    (Part.peek_keeps t (by decide) hse.notUsart (p.peek .cr)) rfl).imp ?_
  rintro drives es q ⟨hcr, hcalls, -, -, hdrives⟩
  exact ⟨hdrives, fun e he => keeps_of_spares (Access.writes_of_among (by decide) (hcalls e he)),
    hcr⟩

/-- The driver restarts the external oscillator in any mode, unless the system
clock runs from it. -/
theorem configureHse_keptIn_iff (ht : t.Unlatched) (mode : OscillatorMode) (p : Part) :
    Bypassable.hse.KeptIn ((configureHse mode).run.history (simulated t) patience p) ↔
      ¬(¬Cfgr.Drives .hse .hse (p.peek .cfgr) ∧ Bypassable.hse.Bypassed p) := by
  have hrun : Traced (simulated t) patience (configureHse mode).run p (fun _ es _ =>
      hse.KeptIn es ↔ ¬(¬Cfgr.Drives .hse .hse (p.peek .cfgr) ∧ hse.Bypassed p)) := by
    unfold configureHse
    refine .setupBind (R := fun drives es q =>
      drives = .ok (decide (Cfgr.Drives .hse .hse (p.peek .cfgr))) ∧ hse.KeptIn es ∧
        q.peek .cr = p.peek .cr)
      (.lift ((drivesSysclk_keptIn t p).imp fun _ _ _ h => ⟨congrArg _ h.1, h.2⟩)) ?_
      (fun _ _ _ h => by cases h.1)
    rintro drives es q ⟨⟨⟩, hkept, hcr⟩
    by_cases hinUse : Cfgr.Drives .hse .hse (p.peek .cfgr)
    · rw [decide_eq_true hinUse, if_pos rfl]
      have hleft : hse.KeptIn (es ++ []) ↔
          ¬(¬Cfgr.Drives .hse .hse (p.peek .cfgr) ∧ hse.Bypassed p) := by
        rw [List.append_nil]
        exact iff_of_true hkept fun h => h.1 hinUse
      split
      · exact .setupPure hleft
      · exact .throw hleft
    · rw [decide_eq_false hinUse, if_neg Bool.false_ne_true]
      refine (restart_traced (b := .hse) ht rfl).imp ?_
      intro _ es' _ hrestart
      rw [keptIn_append, hrestart, bypassed_congr hcr]
      exact ⟨fun h hstops => h.2 hstops.2, fun h => ⟨hkept, fun hbypassed => h ⟨hinUse, hbypassed⟩⟩⟩
  obtain ⟨_, _, _, -, h⟩ := hrun
  exact h

/-- A crystal that an external clock is fed into is in that mode, and in no
other. -/
theorem mode_iff_of_bypassed (h : Bypassable.lse.Bypassed p) {mode : OscillatorMode} :
    p.peek .bdcr &&& Bdcr.lseMode = lseBits mode ↔ mode = .bypass := by
  obtain ⟨hon, hbypass, -⟩ := h
  have hswitch : Word.AgreeOn Bdcr.lseOn (p.peek .bdcr) (lseBits .bypass) :=
    Word.AgreeOn.of_has (i := 0) hon
  have hclock : Word.AgreeOn Bdcr.lseBypass (p.peek .bdcr) (lseBits .bypass) :=
    Word.AgreeOn.of_has (i := 2) hbypass
  have hmode : p.peek .bdcr &&& Bdcr.lseMode = lseBits .bypass := hswitch.union hclock
  rw [hmode]
  cases mode <;> decide

/-- To wait for the crystal changes nothing. -/
theorem awaitLse_keeps (mode : OscillatorMode) (p : Part) :
    Ensures (simulated t) patience (·.Keeps .lse) (awaitLse mode).run p (fun _ _ => True) := by
  unfold awaitLse
  split <;> exact wait_keeps _ _ _ _ _ _

/-- Without stuck bits the domain opens, and stays as it is. -/
theorem access_opens (ht : t.Unlatched) (p : Part) :
    Traced (simulated t) patience BackupDomain.access.run p (fun result es q =>
      result = .ok () ∧ q.Unlocked ∧ lse.KeptIn es ∧ q.peek .bdcr = p.peek .bdcr) := by
  have hunlocked := Part.unlocked_unlocking ht p
  have htraced : Traced (simulated t) patience BackupDomain.access.run p _ :=
    (access_traced t p).calling access_spares
  obtain ⟨result, q, log, hrun, hcalls, hword, -⟩ := htraced
  have hends := hrun
  rw [access_run, (unlockResult_eq_ok _).mpr hunlocked, Run.mk.injEq, Except.ok.injEq] at hends
  obtain ⟨rfl, rfl, -⟩ := hends
  exact ⟨_, _, log, hrun, rfl, hunlocked, keptIn_of_spares (b := .lse) access_spares p, hword⟩

/-- The driver restarts the crystal if that is to run in another mode. -/
theorem configureLse_keptIn_iff (ht : t.Unlatched) (mode : OscillatorMode) (p : Part) :
    Bypassable.lse.KeptIn ((configureLse mode).run.history (simulated t) patience p) ↔
      ¬(mode ≠ .bypass ∧ Bypassable.lse.Bypassed p) := by
  have hrun : Traced (simulated t) patience (configureLse mode).run p (fun _ es _ =>
      lse.KeptIn es ↔ ¬(mode ≠ .bypass ∧ lse.Bypassed p)) := by
    unfold configureLse
    refine .setupBind (access_opens ht p) ?_ (fun _ _ _ h => by cases h.1)
    rintro _ es q ⟨-, hunlocked, hkept, hbdcr⟩
    refine .setupBind (R := fun w es' u => w = .ok (p.peek .bdcr) ∧ lse.KeptIn es' ∧
      u = q.tick .bdcr) (.lift (.read ⟨congrArg _ hbdcr, ?_, rfl⟩)) ?_ (fun _ _ _ h => by cases h.1)
    · exact List.forall_mem_singleton.mpr trivial
    rintro _ es' _ ⟨⟨⟩, hkept', rfl⟩
    have hbypassed : lse.Bypassed (q.tick .bdcr) ↔ lse.Bypassed p :=
      (bypassed_tick .bdcr).trans (bypassed_congr (b := .lse) hbdcr)
    split
    · next hmode =>
      refine Traced.imp (.of_ensures (awaitLse_keeps mode _)) ?_
      rintro _ es'' _ ⟨hkept'', -⟩
      refine iff_of_true ?_ fun ⟨hne, hp⟩ => hne ((mode_iff_of_bypassed hp).mp hmode)
      exact keptIn_append.mpr ⟨hkept, keptIn_append.mpr ⟨hkept', hkept''⟩⟩
    · next hmode =>
      have htick : ∀ u : Part, u.Unlocked → (u.tick .bdcr).Unlocked := fun u hu =>
        (Confined.tick .none u .bdcr).unlocked rfl hu
      have htakes := (htick _ (htick q hunlocked)).takes t
      refine (restart_traced (b := .lse) ht htakes).imp ?_
      intro _ es'' _ hrestart
      have hnotBypass : lse.Bypassed p → mode ≠ .bypass := fun hp hbypass =>
        hmode ((mode_iff_of_bypassed hp).mpr hbypass)
      rw [keptIn_append, keptIn_append, hrestart, hbypassed]
      exact ⟨fun h hstops => h.2.2 hstops.2,
        fun h => ⟨hkept, hkept', fun hp => h ⟨hnotBypass hp, hp⟩⟩⟩
  obtain ⟨_, _, _, -, h⟩ := hrun
  exact h

/-! ## Plans -/

/-- The stage that operates the oscillator. -/
def stage : Bypassable → Stage
  | .hse => .hse
  | .lse => .lse

/-- The stages before that one, and those after it. -/
def earlier : Bypassable → List Stage
  | .hse => []
  | .lse => [.hse, .hsi, .lsi]

def later : Bypassable → List Stage
  | .hse => [.hsi, .lsi, .lse, .pll]
  | .lse => [.pll]

theorem order_eq (b : Bypassable) : Stage.order = b.earlier ++ b.stage :: b.later := by
  cases b <;> rfl

theorem stage_not_mem (b : Bypassable) : b.stage ∉ b.earlier ∧ b.stage ∉ b.later := by
  cases b <;> decide

/-- The driver of the oscillator stops it, if an external clock is fed into it:
the external oscillator unless the system clock runs from it, and the crystal
unless it is to stay in that mode. -/
def Restarts (plan : OscillatorPlan) (cfgr : Word) : Bypassable → Prop
  | .hse => ¬Cfgr.Drives .hse .hse cfgr
  | .lse => plan.lse ≠ .bypass

instance (plan : OscillatorPlan) (cfgr : Word) : (b : Bypassable) → Decidable (b.Restarts plan cfgr)
  | .hse => inferInstanceAs (Decidable (¬_))
  | .lse => inferInstanceAs (Decidable (_ ≠ _))

variable {plan : OscillatorPlan}

theorem driver_keptIn_iff (ht : t.Unlatched) (b : Bypassable) (plan : OscillatorPlan) (p : Part) :
    b.KeptIn ((b.stage.driver plan).run.history (simulated t) patience p) ↔
      ¬(b.Restarts plan (p.peek .cfgr) ∧ b.Bypassed p) := by
  cases b with
  | hse => exact configureHse_keptIn_iff ht plan.hse p
  | lse => exact configureLse_keptIn_iff ht plan.lse p

/-- The driver of another oscillator keeps the bypass. -/
theorem driver_keeps (ht : t.Unlatched) {s : Stage} (hs : s ≠ b.stage) (p : Part) :
    b.KeptIn ((s.driver plan).run.history (simulated t) patience p) := by
  cases b with
  | hse =>
      refine keptIn_of_confines ht (s.driver_confines ht) ?_ p
      cases s <;> first | exact absurd rfl hs | decide
  | lse =>
      have hspares : ∀ c : Access, c.elsewhere = true → (!c.writes .bdcr) = true := fun c hc =>
        (Bool.and_eq_true_iff.mp (Access.aside_of_elsewhere c hc)).1
      refine keptIn_of_spares (b := .lse) (Proc.CallsOnly.mono ?_ hspares) p
      cases s with
      | hse => exact configureHse_elsewhere _
      | hsi => exact configureHsi_elsewhere _
      | lsi => exact configureLsi_elsewhere _
      | lse => exact absurd rfl hs
      | pll => exact configurePll_elsewhere _ _

theorem keptIn_setupBind {α β : Type} {x : Setup α} {f : α → Setup β} :
    b.KeptIn ((x >>= f).run.history (simulated t) patience p) ↔
      b.KeptIn (x.run.history (simulated t) patience p) ∧
        ∀ a q log, x.run.run ((simulated t).handler patience) p = ⟨.ok (.ok a), q, log⟩ →
          b.KeptIn ((f a).run.history (simulated t) patience q) :=
  Setup.forall_mem_history_bind

theorem keptIn_operate_iff (s : Stage) :
    b.KeptIn ((s.operate plan).run.history (simulated t) patience p) ↔
      (s.named plan = true → b.KeptIn ((s.driver plan).run.history (simulated t) patience p)) := by
  unfold Stage.operate
  cases s.named plan with
  | true => exact ⟨fun h _ => h, fun h => h rfl⟩
  | false => exact iff_of_true (List.forall_mem_nil _) (fun h => by cases h)

theorem stages_keep (ht : t.Unlatched) {stages : List Stage} (h : b.stage ∉ stages) (p : Part) :
    b.KeptIn ((forM stages (Stage.operate plan)).run.history (simulated t) patience p) := by
  induction stages generalizing p with
  | nil => exact List.forall_mem_nil _
  | cons s stages ih =>
      obtain ⟨hs, hrest⟩ := not_or.mp (mt List.mem_cons.mpr h)
      rw [List.forM_cons]
      refine keptIn_setupBind.mpr ⟨?_, fun _ q _ _ => ih hrest q⟩
      exact (keptIn_operate_iff s).mpr fun _ => driver_keeps ht (Ne.symm hs) p

/-- To carry out the plan from `p`, the oscillator is stopped while an external
clock is fed into it. -/
structure Stopped (t : Temper) (patience : Nat) (plan : OscillatorPlan) (p : Part)
    (b : Bypassable) : Prop where
  named : b.stage.named plan = true
  restarts : b.Restarts plan (p.peek .cfgr)
  bypassed : b.Bypassed p
  reached : ∃ q, Setup.EndsIn t patience (forM b.earlier (Stage.operate plan)) p (.ok ()) q

/-- The stages before that of the oscillator leave it alone. -/
theorem earlier_keeps {q : Part}
    (h : Setup.EndsIn t patience (forM b.earlier (Stage.operate plan)) p (.ok ()) q) :
    (b.Restarts plan (q.peek .cfgr) ∧ b.Bypassed q) ↔
      (b.Restarts plan (p.peek .cfgr) ∧ b.Bypassed p) := by
  obtain ⟨log, hrun⟩ := h
  cases b with
  | hse =>
      cases hrun
      exact Iff.rfl
  | lse =>
      have hcalls : (forM [Stage.hse, .hsi, .lsi] (Stage.operate plan)).run.CallsOnly
          (Access.among [.cfgr, .cr, .csr]) := by
        have hcontrol : ∀ c : Access, c.among [.cfgr, .cr] = true →
            c.among [.cfgr, .cr, .csr] = true := Access.among_mono (by decide)
        simp only [List.forM_cons, List.forM_nil]
        refine .setupBind (.optionally ((configureHse_among _).mono hcontrol)) fun _ => ?_
        refine .setupBind (.optionally ((configureHsi_among _).mono hcontrol)) fun _ => ?_
        exact .setupBind (.optionally ((configureLsi_among _).mono (Access.among_mono (by decide))))
          fun _ => trivial
      have hkeeps : (simulated t).Keeps (Access.among [.cfgr, .cr, .csr])
          (fun u => u.peek .bdcr = p.peek .bdcr) :=
        Part.peek_keeps t (by decide) lse.notUsart (p.peek .bdcr)
      have hbdcr : q.peek .bdcr = p.peek .bdcr :=
        (congrArg (Part.peek ·.state .bdcr) hrun).symm.trans (hcalls.keeps hkeeps rfl).2
      exact and_congr_right fun _ => bypassed_congr (b := .lse) hbdcr

/-- The plan changes the bypass of the running oscillator if and only if it stops
the oscillator while an external clock is fed into it. -/
theorem configureOscillators_keptIn_iff (ht : t.Unlatched) (b : Bypassable) (plan : OscillatorPlan)
    (p : Part) :
    b.KeptIn ((configureOscillators plan).run.history (simulated t) patience p) ↔
      ¬b.Stopped t patience plan p := by
  obtain ⟨hearlier, hlater⟩ := b.stage_not_mem
  have hstage : ∀ q, b.KeptIn ((forM (b.stage :: b.later) (Stage.operate plan)).run.history
      (simulated t) patience q) ↔
        (b.stage.named plan = true → ¬(b.Restarts plan (q.peek .cfgr) ∧ b.Bypassed q)) := by
    intro q
    rw [List.forM_cons, keptIn_setupBind, keptIn_operate_iff, driver_keptIn_iff ht]
    exact and_iff_left fun _ u _ _ => stages_keep ht hlater u
  rw [configureOscillators_eq_forM, b.order_eq, List.forM_append, keptIn_setupBind,
    and_iff_right (stages_keep ht hearlier p)]
  constructor
  · rintro h ⟨hnamed, hrestarts, hbypassed, q, hends⟩
    obtain ⟨log, hrun⟩ := hends
    exact (hstage q).mp (h () q log hrun) hnamed
      ((earlier_keeps ⟨log, hrun⟩).mpr ⟨hrestarts, hbypassed⟩)
  · intro h _ q log hrun
    refine (hstage q).mpr fun hnamed hstops => h ?_
    obtain ⟨hrestarts, hbypassed⟩ := (earlier_keeps ⟨log, hrun⟩).mp hstops
    exact ⟨hnamed, hrestarts, hbypassed, q, log, hrun⟩

/-! ## Services -/

/-- The service stops the oscillator while an external clock is fed into it. -/
def StoppedBy (t : Temper) (patience : Nat) (b : Bypassable) (p : Part) : Service → Prop
  | .configureOscillators plan => b.Stopped t patience plan p
  | _ => False

/-- A service that does not access the register keeps the bypass. -/
theorem provide_keeps (ceiling : Log.Ceiling) {service : Service}
    (h : b.register ∉ service.registers) (p : Part) :
    b.KeptIn ((provide ceiling service).history (simulated t) patience p) := by
  have hspares : ∀ c : Access, c.among service.registers = true →
      (!c.writes b.register) = true := by
    intro c hc
    rw [Access.writes_of_among h hc]
    rfl
  exact keptIn_of_spares ((provide_among ceiling service).mono hspares) p

/-- The bus clocks are switched without a write to the oscillators. -/
theorem configureBusClocks_keeps (b : Bypassable) (plan : BusPlan) (p : Part) :
    b.KeptIn ((configureBusClocks plan).run.history (simulated t) patience p) := by
  have hspares : ∀ c : Access, c.changes [.cfgr, .acr] = true → (!c.writes b.register) = true := by
    intro c hc
    cases c with
    | write r v =>
        have hr : r ∈ [Register.cfgr, .acr] := of_decide_eq_true hc
        refine Bool.not_eq_true' _ ▸ decide_eq_false fun h => ?_
        rw [h] at hr
        revert hr
        cases b <;> decide
    | read | poll | await | loadVector | storeVector => rfl
  exact keptIn_of_spares ((configureBusClocks_changes plan).mono hspares) p

theorem configurePeripheralClocks_keeps (ht : t.Unlatched) (plan : PeripheralPlan) (p : Part) :
    Bypassable.lse.KeptIn
      ((configurePeripheralClocks plan).run.history (simulated t) patience p) := by
  rw [configurePeripheralClocks_eq]
  refine keptIn_setupBind.mpr ⟨?_, fun _ q _ _ => ?_⟩
  · cases plan.named.names .rtc with
    | true => exact (selectRtcSource_keeps ht plan.rtc p).guarded
    | false => exact List.forall_mem_nil _
  · exact keptIn_of_spares (b := .lse) (.optionally (.lift (.modify rfl fun _ => rfl))) q

/-- Only the service for the oscillators changes the bypass of a running one. -/
theorem provide_keptIn_iff (ht : t.Unlatched) (b : Bypassable) (ceiling : Log.Ceiling)
    (service : Service) (p : Part) :
    b.KeptIn ((provide ceiling service).history (simulated t) patience p) ↔
      ¬b.StoppedBy t patience p service := by
  cases service with
  | configureOscillators plan => exact configureOscillators_keptIn_iff ht b plan p
  | resetClocks =>
      refine iff_of_true ?_ not_false
      cases b with
      | hse => exact (resetPart_keeps ht p).guarded
      | lse => exact provide_keeps ceiling (by decide) p
  | configureBusClocks plan => exact iff_of_true (configureBusClocks_keeps b plan p) not_false
  | configurePeripheralClocks plan =>
      refine iff_of_true ?_ not_false
      cases b with
      | hse => exact provide_keeps ceiling (by simp [Service.registers, register]) p
      | lse => exact configurePeripheralClocks_keeps ht plan p
  | enableClock gate =>
      refine iff_of_true (provide_keeps ceiling ?_ p) not_false
      cases b <;> cases hbus : gate.bus <;>
        simp [Service.registers, register, hbus, Register.enable]
  | pulseReset line =>
      refine iff_of_true (provide_keeps ceiling ?_ p) not_false
      cases b <;> cases hbus : line.bus <;>
        simp [Service.registers, register, hbus, Register.reset?]
  | configurePin pin setup | releasePin pin =>
      refine iff_of_true (provide_keeps ceiling ?_ p) not_false
      cases b <;> simp [Service.registers, register, portRegisters]
  | initialise | stubVectors | resetSystem =>
      refine iff_of_true (provide_keeps ceiling ?_ p) not_false
      cases b <;> decide

end Bypassable

/-! ## Sequences -/

/-- The bypass of an oscillator may only change while the oscillator is off. Take
any part without stuck bits, in any state, and any sequence of services.

All of its writes keep to that rule if and only if no service of it stops the
oscillator while an external clock is fed into it. There the switch and the
bypass are cleared with one write. -/
theorem bypass_kept_iff {t : Temper} (ht : t.Unlatched) (patience : Nat) (ceiling : Log.Ceiling)
    (b : Bypassable) {α : Type} (s : Sequence α) (p : Part) :
    b.KeptIn ((onRegisters ceiling s).history (simulated t) patience p) ↔
      ∀ call ∈ s.requests (provided (simulated t) patience ceiling) p,
        ¬b.StoppedBy t patience call.1 call.2 :=
  (onRegisters_forall_iff s p).trans
    (forall₂_congr fun call _ => Bypassable.provide_keptIn_iff ht b ceiling call.2 call.1)

/-- The bring-up of the board at power-on stops no oscillator that an external
clock is fed into. -/
theorem bypass_kept_board :
    Temper.prompt.Unlatched ∧
    ∀ b : Bypassable, ∀ call ∈ (bringUp .board).requests (provided (simulated .prompt) 0 .all)
      (.powerOn Part.bootVector), ¬b.StoppedBy .prompt 0 call.1 call.2 := by
  refine ⟨Temper.prompt_unlatched, fun b => ?_⟩
  have hkept : b.KeptIn ((onRegisters .all (bringUp .board)).history (simulated .prompt) 0
      (.powerOn Part.bootVector)) := by
    cases b <;> decide +kernel
  exact (bypass_kept_iff Temper.prompt_unlatched 0 .all b _ _).mp hkept

/-- A part that runs from the internal oscillator, with external clocks fed into
the other two. -/
def Part.fed : Part :=
  ((powerOn bootVector).poke .cr 0x00070083).poke .bdcr 0x00000007

/-- A plan that switches the external oscillator off and the crystal on. -/
def Clock.OscillatorPlan.unfed : OscillatorPlan :=
  { Plan.board.oscillators with
    named := .ofList [.hse, .lse], hse := .off, lse := .on, pll := none }

/-- It clears the bypass of both while they run. -/
theorem running_bypass_cleared :
    Temper.prompt.Unlatched ∧
    ∀ b : Bypassable, b.Bypassed .fed ∧
      ¬b.KeptIn ((onRegisters .all (Sequence.ask (.configureOscillators .unfed))).history
        (simulated .prompt) 0 .fed) := by
  refine ⟨Temper.prompt_unlatched, ?_⟩
  rintro (_ | _) <;> exact ⟨by decide +kernel, by decide +kernel⟩

end BringUp
