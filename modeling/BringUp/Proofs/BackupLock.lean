import BringUp.Proofs.Calls
import BringUp.Proofs.PeripheralClocks

/-!
The lock of the backup domain.

* `Part.Open`: the backup domain is unlocked, and the power controller has its
  clock.
* `Access.aside`, `Access.behindLock`: what a driver may do before and after
  it has opened the domain.
* `Gated x`: the driver `x` comes to the backup domain through
  `BackupDomain.access` only, or not at all.
* `Refused events`: the lock was looked at, and was closed every time.

Main statements: opening the domain ends in one known state, and reports
whether the domain is unlocked there (`access_run`). Hence a gated driver
writes to the domain only while it is open (`Gated.writes_open`), and one that
finds it locked to the end never comes past the lock (`Gated.reportsRefusal`).
-/

namespace BringUp

open Clock Hardware

/-! ## The lock -/

instance (p : Part) : Decidable p.Unlocked :=
  inferInstanceAs (Decidable (_ = _))

/-- The backup domain is unlocked, and the power controller has its clock. -/
structure Part.Open (p : Part) : Prop where
  powered : (p.peek .apb1enr).getLsbD 28 = true
  unlocked : p.Unlocked

/-- No register but `r` has stuck bits. -/
def Temper.LatchesOnly (t : Temper) (r : Register) : Prop :=
  ∀ s, s ≠ r → t.latch s = none

/-- No write to an open domain is dropped. -/
theorem Part.Open.takes {p : Part} (h : p.Open) (t : Temper) : p.ignores t .bdcr = false :=
  h.unlocked.takes t

namespace Access

/-- A write of the register. -/
def writes (r : Register) : Access → Bool
  | .write s _ => s = r
  | _ => false

theorem eq_write_of_writes {r : Register} {c : Access} (h : c.writes r = true) :
    ∃ v, c = .write r v := by
  cases c with
  | write s v =>
      obtain rfl : s = r := of_decide_eq_true h
      exact ⟨v, rfl⟩
  | read s | poll s accept budget | await s accept | loadVector table slot
  | storeVector slot entry => cases h

/-- A read of the register. -/
def reads (r : Register) : Access → Bool
  | .read s => s = r
  | _ => false

/-- Neither a write to the backup domain nor a look at its lock. -/
def aside (c : Access) : Bool :=
  !c.writes .bdcr && !c.reads .pwr

/-- Neither a change of the lock or of its clock nor a look at it. -/
def behindLock (c : Access) : Bool :=
  !c.writes .apb1enr && !c.writes .pwr && !c.reads .pwr

/-- Nothing of the backup domain, its lock and the lock's clock. -/
def elsewhere (c : Access) : Bool :=
  c.aside && c.behindLock

theorem aside_of_elsewhere (c : Access) (h : c.elsewhere = true) : c.aside = true :=
  (Bool.and_eq_true_iff.mp h).1

theorem behindLock_of_elsewhere (c : Access) (h : c.elsewhere = true) : c.behindLock = true :=
  (Bool.and_eq_true_iff.mp h).2

end Access

/-- Only the lock and its clock count. -/
theorem Part.Open.of_same {p q : Part} (hp : p.Open) (hclock : q.peek .apb1enr = p.peek .apb1enr)
    (hlock : q.peek .pwr = p.peek .pwr) : q.Open where
  powered := by
    rw [hclock]
    exact hp.powered
  unlocked := by
    unfold Part.Unlocked
    rw [hlock]
    exact hp.unlocked

/-- An open domain stays open behind the lock. -/
theorem Part.open_keeps (t : Temper) : (simulated t).Keeps Access.behindLock Part.Open where
  read r p _ hp := by
    -- neither of the two registers shows a flag that time could change
    have hplain : ∀ s, s = .apb1enr ∨ s = .pwr → (p.tick r).peek s = p.peek s := by
      intro s hs
      by_cases h : s = r
      · subst h
        rcases hs with rfl | rfl <;> rfl
      · exact p.peek_tick_of_ne h
    exact hp.of_same (hplain _ (.inl rfl)) (hplain _ (.inr rfl))
  write r v p hok hp := by
    have hother : ∀ s, s = .apb1enr ∨ s = .pwr → s ≠ r := by
      rintro _ (rfl | rfl) rfl <;> cases hok
    have hplain : ∀ s, s = .apb1enr ∨ s = .pwr → (p.write t r v).peek s = p.peek s := by
      intro s hs
      refine p.peek_write_of_ne t v (hother s hs) ?_
      rintro ⟨u, rfl⟩
      rcases hs with hs | hs <;> cases hs
    exact hp.of_same (hplain _ (.inl rfl)) (hplain _ (.inr rfl))
  storeVector _ _ _ _ hp := hp.of_same rfl rfl

/-! ## Opening the domain -/

namespace Part

/-- The part once the power controller has been given its clock. -/
def powered (t : Temper) (p : Part) : Part :=
  p.write t .apb1enr (p.peek .apb1enr ||| BitVec.twoPow 32 28)

/-- The part once an unlock has been tried. -/
def unlocking (t : Temper) (p : Part) : Part :=
  if p.Unlocked then p else p.write t .pwr (p.peek .pwr ||| BackupDomain.writable)

theorem powered_apb1enr {t : Temper} (ht : t.LatchesOnly .pwr) (p : Part) :
    ((p.powered t).peek .apb1enr).getLsbD 28 = true := by
  have hprotect := (agreeOn_protectStatus t .apb1enr (p.peek .apb1enr)
    (p.peek .apb1enr ||| BitVec.twoPow 32 28)).getLsbD (i := 28) (by decide)
  show ((p.poke .apb1enr (stored t .apb1enr (p.peek .apb1enr) _)).peek .apb1enr).getLsbD 28 = true
  rw [peek_poke_self, stored, forceBits, ht _ (by decide), resetBackup,
    if_neg (fun h => by cases h.1), hprotect, BitVec.getLsbD_or, BitVec.getLsbD_twoPow]
  simp

/-- Without stuck bits the lock opens once the power controller has its clock. -/
theorem unlocked_unlocking {t : Temper} (ht : t.Unlatched) (p : Part) :
    ((p.powered t).unlocking t).Unlocked := by
  have hpowered := powered_apb1enr (fun r _ => ht r) p
  unfold unlocking
  split
  · next h => exact h
  · have htakes : (p.powered t).ignores t .pwr = false := by
      simp [ignores, hpowered]
    have hwrote := wrote_write ht
      (v := (p.powered t).peek .pwr ||| BackupDomain.writable) htakes
    have hbit := hwrote.steady.getLsbD (i := 8) (by decide)
    unfold Unlocked
    rw [hbit, resetBackup, if_neg (fun h => by cases h.1), BitVec.getLsbD_or]
    simp [BackupDomain.writable]

/-- Trying to unlock the domain takes no clock away. -/
theorem unlocking_apb1enr (t : Temper) (p : Part) :
    (p.unlocking t).peek .apb1enr = p.peek .apb1enr := by
  unfold unlocking
  split
  · rfl
  · exact p.peek_write_of_ne t _ (by decide) (by rintro ⟨u, hu⟩; cases hu)

end Part

/-- In these events the driver looked at the lock of the backup domain, and
found it closed every time. -/
structure Refused (events : List (Event Part)) : Prop where
  looked : ∃ e ∈ events, e.access = .read .pwr
  closed : ∀ e ∈ events, e.access = .read .pwr → ¬e.before.Unlocked

/-- A driver that finds the domain locked to the end reports the timeout, and
has written nothing to the domain. -/
def ReportsRefusal (t : Temper) (patience : Nat) (x : Setup Unit) : Prop :=
  ∀ p, Refused (x.run.history (simulated t) patience p) →
    (∃ q log, x.run.run ((simulated t).handler patience) p =
      ⟨.ok (.error (.timeout .backupDomainAccess)), q, log⟩) ∧
    ∀ e ∈ x.run.history (simulated t) patience p, ∀ v, e.access ≠ .write .bdcr v

namespace Hardware

variable {t : Temper} {patience : Nat}

theorem has_writable_eq (p : Part) :
    (p.peek .pwr).has BackupDomain.writable = decide p.Unlocked := by
  rw [Word.has_writable]
  exact Bool.decide_eq_true.symm

/-- The result of trying to unlock the domain. -/
def unlockResult (p : Part) : SetupResult :=
  if p.Unlocked then .ok () else .error (.timeout .backupDomainAccess)

theorem unlockResult_eq_ok (p : Part) : unlockResult p = .ok () ↔ p.Unlocked := by
  unfold unlockResult
  split <;> simp_all

/-- An attempt to unlock the domain ends with the state after it, and reports
whether the domain is unlocked there. -/
theorem unlock_run (p : Part) :
    BackupDomain.unlock.run.run ((simulated t).handler patience) p =
      ⟨.ok (unlockResult (p.unlocking t)), p.unlocking t, []⟩ := by
  show Proc.run _ (if (p.peek .pwr).has BackupDomain.writable then pure () else _ :
    Setup Unit).run p = _
  rw [has_writable_eq, Part.unlocking]
  by_cases h : p.Unlocked
  · rw [if_pos h, unlockResult, if_pos h, decide_eq_true h]
    rfl
  · rw [if_neg h, decide_eq_false h]
    show (Setup.waitUntil .pwr (·.has BackupDomain.writable) .backupDomainAccess
      Budget.backupDomain).run.run _ (p.write t .pwr (p.peek .pwr ||| BackupDomain.writable)) = _
    rw [Setup.run_waitUntil, Budget.backupDomain, Device.poll_of_still rfl]
    show Run.mk (.ok (if (Part.peek _ .pwr).has BackupDomain.writable then _ else _)) _ _ = _
    rw [has_writable_eq, unlockResult]
    simp only [decide_eq_true_eq]

/-- The attempt looks at the lock, and unless it is open it sets the bit and
polls. -/
theorem unlock_history (p : Part) :
    BackupDomain.unlock.run.history (simulated t) patience p =
      ⟨p, .read .pwr, p⟩ :: if p.Unlocked then [] else
        ⟨p, .read .pwr, p⟩ ::
          ⟨p, .write .pwr (p.peek .pwr ||| BackupDomain.writable), p.unlocking t⟩ ::
            (simulated t).pollHistory .pwr (·.has BackupDomain.writable) Budget.backupDomain
              (p.unlocking t) := by
  have hhead : BackupDomain.unlock.run.history (simulated t) patience p =
      ⟨p, .read .pwr, p⟩ :: Proc.history (simulated t) patience
        (if (p.peek .pwr).has BackupDomain.writable then pure () else _ : Setup Unit).run p := rfl
  rw [hhead, has_writable_eq, Part.unlocking]
  by_cases hp : p.Unlocked
  · rw [decide_eq_true hp, if_pos hp]
    rfl
  · rw [decide_eq_false hp, if_neg hp, if_neg hp]
    let q := p.write t .pwr (p.peek .pwr ||| BackupDomain.writable)
    have hwait := Setup.history_waitUntil (simulated t) patience .pwr
      (·.has BackupDomain.writable) .backupDomainAccess Budget.backupDomain q
    rw [← hwait]
    rfl

/-- An attempt after which the domain is unlocked has seen the open lock. -/
theorem unlock_sees (patience : Nat) {p : Part} (h : (p.unlocking t).Unlocked) :
    ∃ e ∈ BackupDomain.unlock.run.history (simulated t) patience p,
      e.access = .read .pwr ∧ e.before.Unlocked := by
  rw [unlock_history]
  by_cases hp : p.Unlocked
  · exact ⟨_, List.mem_cons_self, rfl, hp⟩
  · rw [if_neg hp, Budget.backupDomain, Device.pollHistory]
    refine ⟨⟨p.unlocking t, .read .pwr, p.unlocking t⟩, ?_, rfl, h⟩
    exact List.mem_cons_of_mem _ (List.mem_cons_of_mem _ (List.mem_cons_of_mem _
      List.mem_cons_self))

/-- An attempt after which the domain is locked has only seen the closed one. -/
theorem unlock_refused {p : Part} (h : ¬(p.unlocking t).Unlocked) :
    Refused (BackupDomain.unlock.run.history (simulated t) patience p) := by
  have hp : ¬p.Unlocked := by
    intro hp
    rw [Part.unlocking, if_pos hp] at h
    exact h hp
  rw [unlock_history, if_neg hp]
  refine ⟨⟨_, List.mem_cons_self, rfl⟩, fun e he hread => ?_⟩
  simp only [List.mem_cons] at he
  rcases he with rfl | rfl | rfl | he
  · exact hp
  · exact hp
  · cases hread
  · rw [Device.before_of_still rfl he]
    exact h

theorem access_eq :
    BackupDomain.access = (liftM (enableClock Gate.pwr) : Setup Unit) >>= fun _ =>
      BackupDomain.unlock :=
  rfl

theorem enablePwr_run (p : Part) :
    (liftM (enableClock Gate.pwr) : Setup Unit).run.run ((simulated t).handler patience) p =
      ⟨.ok (.ok ()), p.powered t, []⟩ :=
  rfl

/-- Opening the domain ends where the unlock after it does. -/
theorem access_run (p : Part) :
    BackupDomain.access.run.run ((simulated t).handler patience) p =
      ⟨.ok (unlockResult ((p.powered t).unlocking t)), (p.powered t).unlocking t, []⟩ := by
  rw [access_eq, Setup.run_bind_of_ok (enablePwr_run p), unlock_run]
  rfl

theorem access_history (p : Part) :
    BackupDomain.access.run.history (simulated t) patience p =
      (liftM (enableClock Gate.pwr) : Setup Unit).run.history (simulated t) patience p ++
        BackupDomain.unlock.run.history (simulated t) patience (p.powered t) := by
  rw [access_eq, Setup.history_bind_of_ok (enablePwr_run p)]

/-- An access that opens the domain has seen the open lock. -/
theorem access_sees (patience : Nat) {p : Part} (h : ((p.powered t).unlocking t).Unlocked) :
    ∃ e ∈ BackupDomain.access.run.history (simulated t) patience p,
      e.access = .read .pwr ∧ e.before.Unlocked := by
  obtain ⟨e, he, hlook, hopen⟩ := unlock_sees patience h
  rw [access_history]
  exact ⟨e, List.mem_append_right _ he, hlook, hopen⟩

/-- An access that leaves the domain locked has only seen the closed lock. -/
theorem access_refused {p : Part} (h : ¬((p.powered t).unlocking t).Unlocked) :
    Refused (BackupDomain.access.run.history (simulated t) patience p) := by
  have hunlock : Refused (BackupDomain.unlock.run.history (simulated t) patience (p.powered t)) :=
    unlock_refused h
  obtain ⟨⟨e, he, hlook⟩, hclosed⟩ := hunlock
  have hclock : (liftM (enableClock Gate.pwr) : Setup Unit).run.CallsOnly
      (fun c => !c.reads .pwr) :=
    .lift (.bind (.ofExcept _) fun _ => .bind (.modify rfl fun _ => rfl) fun _ =>
      .bind (.read rfl) fun _ => trivial)
  rw [access_history]
  refine ⟨⟨e, List.mem_append_right _ he, hlook⟩, fun e' he' hlook' => ?_⟩
  rcases List.mem_append.mp he' with hbefore | hafter
  · have hnone := hclock.access_of_mem hbefore
    rw [hlook'] at hnone
    cases hnone
  · exact hclosed e' hafter hlook'

/-- Opening the domain writes nothing to it. -/
theorem access_spares : BackupDomain.access.run.CallsOnly (fun c => !c.writes .bdcr) := by
  refine .setupBind (.lift ?_) fun _ => .setupBind (.lift (.isSet _ rfl)) fun unlocked => ?_
  · exact .bind (.ofExcept _) fun _ => .bind (.modify rfl fun _ => rfl) fun _ =>
      .bind (.read rfl) fun _ => trivial
  · cases unlocked with
    | true => exact .setupPure ()
    | false => exact .modifyThenWait _ _ _ rfl fun _ => rfl

/-- After an attempt that leaves the domain unlocked, the domain is open. -/
theorem access_open (ht : t.LatchesOnly .pwr) {p : Part}
    (h : ((p.powered t).unlocking t).Unlocked) : ((p.powered t).unlocking t).Open :=
  ⟨by rw [Part.unlocking_apb1enr, Part.powered_apb1enr ht], h⟩

end Hardware

/-! ## Drivers behind the lock -/

/-- The driver comes to the backup domain through the lock, or not at all. -/
inductive Gated (x : Setup Unit) : Prop where
  | never (h : x.run.CallsOnly Access.aside)
  | gate (first last : Setup Unit)
      (hx : x = first >>= fun _ => BackupDomain.access >>= fun _ => last)
      (hfirst : first.run.CallsOnly Access.aside)
      (hlast : last.run.CallsOnly Access.behindLock)

namespace Gated

variable {x y : Setup Unit}

/-- What has nothing to do with the domain may come before. -/
theorem after (hx : x.run.CallsOnly Access.elsewhere) (hy : Gated y) :
    Gated (x >>= fun _ => y) := by
  have haside : x.run.CallsOnly Access.aside := hx.mono Access.aside_of_elsewhere
  cases hy with
  | never h => exact .never (.setupBind haside fun _ => h)
  | gate first last hy hfirst hlast =>
      refine .gate (x >>= fun _ => first) last ?_ (.setupBind haside fun _ => hfirst) hlast
      rw [hy, bind_assoc]

/-- It may also come behind. -/
theorem before (hx : Gated x) (hy : y.run.CallsOnly Access.elsewhere) :
    Gated (x >>= fun _ => y) := by
  cases hx with
  | never h => exact .never (.setupBind h fun _ => hy.mono Access.aside_of_elsewhere)
  | gate first last hx hfirst hlast =>
      refine .gate first (last >>= fun _ => y) ?_ hfirst
        (.setupBind hlast fun _ => hy.mono Access.behindLock_of_elsewhere)
      rw [hx, bind_assoc]
      simp only [bind_assoc]

theorem optionally {c : Bool} (hx : Gated x) : Gated (BringUp.optionally c x) := by
  cases c with
  | true => exact hx
  | false => exact .never trivial

variable {t : Temper} {patience : Nat}

/-- The driver writes to the domain only while it is open. -/
theorem writes_open (ht : t.LatchesOnly .pwr) (hx : Gated x) (p : Part) :
    ∀ e ∈ x.run.history (simulated t) patience p, e.access.writes .bdcr = true →
      e.before.Open := by
  intro e he hwrite
  have hclosed : ∀ {y : Setup Unit} {q : Part}, y.run.CallsOnly (fun c => !c.writes .bdcr) →
      e ∉ y.run.history (simulated t) patience q := by
    intro y q hy hmem
    have hspared := hy.access_of_mem hmem
    rw [hwrite] at hspared
    cases hspared
  have haside : ∀ c : Access, c.aside = true → (!c.writes .bdcr) = true :=
    fun c hc => (Bool.and_eq_true_iff.mp hc).1
  cases hx with
  | never h => exact absurd he (hclosed (h.mono haside))
  | gate first last hx hfirst hlast =>
      subst hx
      rcases Setup.mem_history_bind he with hbefore | ⟨_, q, _, -, he⟩
      · exact absurd hbefore (hclosed (hfirst.mono haside))
      rcases Setup.mem_history_bind he with haccess | ⟨_, u, _, hrun, he⟩
      · exact absurd haccess (hclosed access_spares)
      -- the access succeeded, so the domain is open from here on
      rw [access_run, Run.mk.injEq, Except.ok.injEq] at hrun
      obtain ⟨hok, rfl, -⟩ := hrun
      have hunlocked := (unlockResult_eq_ok _).mp hok
      obtain ⟨hevents, -⟩ := hlast.keeps (Part.open_keeps t) (access_open ht hunlocked)
      exact (hevents e he).1

/-- A driver that finds the domain locked to the end has not come past the
lock. -/
theorem reportsRefusal (hx : Gated x) : ReportsRefusal t patience x := by
  intro p h
  obtain ⟨⟨e, he, hlook⟩, hclosed⟩ := h
  have hlooks : ∀ c : Access, c.aside = true → c ≠ .read .pwr := by
    rintro _ hc rfl
    cases hc
  cases hx with
  | never h => exact absurd hlook (hlooks _ (h.access_of_mem he))
  | gate first last hx hfirst hlast =>
      subst hx
      rcases Setup.mem_history_bind he with hbefore | ⟨_, q, log, hrun, -⟩
      · exact absurd hlook (hlooks _ (hfirst.access_of_mem hbefore))
      have hevents := Setup.history_bind_of_ok (f := fun _ => BackupDomain.access >>= fun _ => last)
        hrun
      have haccess : BackupDomain.access.run.run ((simulated t).handler patience) q = _ :=
        access_run q
      by_cases hunlocked : ((q.powered t).unlocking t).Unlocked
      · -- one of the looks has seen the open lock
        rw [(unlockResult_eq_ok _).mpr hunlocked] at haccess
        obtain ⟨e', he', hlook', hopen⟩ := access_sees patience hunlocked
        refine absurd hopen (hclosed e' ?_ hlook')
        rw [hevents, Setup.history_bind_of_ok haccess]
        exact List.mem_append_right _ (List.mem_append_left _ he')
      · rw [unlockResult, if_neg hunlocked] at haccess
        have hend := Setup.run_bind_of_ok (f := fun _ => BackupDomain.access >>= fun _ => last) hrun
        rw [Setup.run_bind_of_error haccess] at hend
        refine ⟨⟨_, _, hend⟩, fun e' he' v hv => ?_⟩
        rw [hevents, Setup.history_bind_of_error haccess, List.mem_append] at he'
        rcases he' with he' | he'
        · have haside := hfirst.access_of_mem he'
          rw [hv] at haside
          cases haside
        · have hspared := access_spares.access_of_mem he'
          rw [hv] at hspared
          cases hspared

end Gated

end BringUp
