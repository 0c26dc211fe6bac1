import BringUp.Proofs.FlagProgress
import BringUp.Proofs.OpenRegisters

/-!
Drivers that succeed on a cooperative part.

* `Succeeds t patience x p Q`: run from `p`, if all flags follow in time, the
  driver `x` succeeds, the flags still follow, and `Q` holds. With one more
  argument, the same of the flags that are watched.
* `Succeeds.bind`, `Succeeds.lift`, `Succeeds.optionally`: one rule for each
  way to build a driver.
* `Succeeds.waitSet`, `Succeeds.waitClear`: a wait for a flag succeeds if the
  flag's control bits ask for what is waited for.
* `Succeeds.switchOn`, `Succeeds.switchOff`: so does the wait after the control
  bits have been set, or cleared.

That the flags follow is part of the judgement, because every access keeps it
(`Part.tracks_keeps`) and every wait relies on it.
-/

namespace BringUp

open Clock

/-- Run from `p`, if the flags that are watched follow in time, the driver
succeeds, these flags still follow, and the result and the last state are in
`Q`. By default all flags are watched. -/
def Succeeds {α : Type} (t : Temper) (patience : Nat) (x : Setup α) (p : Part)
    (Q : α → Part → Prop) (watched : StatusFlag → Bool := fun _ => true) : Prop :=
  p.Tracks watched → Ensures (simulated t) patience (fun _ => True) x.run p
    (fun result q => q.Tracks watched ∧ ∃ a, result = .ok a ∧ Q a q)

namespace Succeeds

variable {α β : Type} {t : Temper} {patience : Nat} {p : Part} {watched : StatusFlag → Bool}

/-! ## Structure -/

theorem pure {a : α} {Q : α → Part → Prop} (h : Q a p) :
    Succeeds t patience (Pure.pure a) p Q watched :=
  fun hp => .setupPure ⟨hp, a, rfl, h⟩

theorem imp {x : Setup α} {R Q : α → Part → Prop} (hx : Succeeds t patience x p R watched)
    (h : ∀ a q, R a q → Q a q) : Succeeds t patience x p Q watched := by
  intro hp
  refine (hx hp).imp ?_
  rintro _ q ⟨hq, a, rfl, hR⟩
  exact ⟨hq, a, rfl, h a q hR⟩

/-- What comes after a success runs, and may come to any result. -/
theorem followedBy {x : Setup α} {f : α → Setup β} {R : α → Part → Prop}
    {Q : Except SetupError β → Part → Prop} (hx : Succeeds t patience x p R watched)
    (hp : p.Tracks watched) (hf : ∀ a q, q.Tracks watched → R a q →
      Ensures (simulated t) patience (fun _ => True) (f a).run q Q) :
    Ensures (simulated t) patience (fun _ => True) (x >>= f).run p Q := by
  refine .setupBind (hx hp) ?_ ?_
  · rintro a q ⟨hq, _, ⟨⟩, hR⟩
    exact hf a q hq hR
  · rintro e q ⟨-, _, ⟨⟩, -⟩

theorem bind {x : Setup α} {f : α → Setup β} {R : α → Part → Prop} {Q : β → Part → Prop}
    (hx : Succeeds t patience x p R watched)
    (hf : ∀ a q, R a q → Succeeds t patience (f a) q Q watched) :
    Succeeds t patience (x >>= f) p Q watched :=
  fun hp => hx.followedBy hp fun a q hq hR => hf a q hR hq

theorem optionally {c : Bool} {x : Setup Unit} {Q : Unit → Part → Prop}
    (hx : c = true → Succeeds t patience x p Q watched) (hskip : c = false → Q () p) :
    Succeeds t patience (BringUp.optionally c x) p Q watched := by
  cases c with
  | true => exact hx rfl
  | false => exact pure (hskip rfl)

/-- What succeeds on every part does so on this one. -/
theorem of_ensures (ht : t.Cooperative) {x : Setup α} {G : Event Part → Prop}
    {Q : α → Part → Prop}
    (hx : Ensures (simulated t) patience G x.run p (fun result q => ∃ a, result = .ok a ∧ Q a q)) :
    Succeeds t patience x p Q watched :=
  fun hp => (hx.unguarded.keeping (Part.tracks_keeps ht watched) hp)

/-- A driver that cannot fail succeeds. -/
theorem lift (ht : t.Cooperative) {x : Driver α} {Q : α → Part → Prop}
    (hx : Ensures (simulated t) patience (fun _ => True) x p Q) :
    Succeeds t patience (liftM x : Setup α) p Q watched :=
  of_ensures ht (.lift (hx.imp fun a _ hq => ⟨a, rfl, hq⟩))

/-- What is known of every run of the driver is known of the successful one. -/
theorem and {x : Setup α} {G : Event Part → Prop} {Q : α → Part → Prop}
    {R : Except SetupError α → Part → Prop} (hx : Succeeds t patience x p Q watched)
    (h : Ensures (simulated t) patience G x.run p R) :
    Succeeds t patience x p (fun a q => Q a q ∧ R (.ok a) q) watched := by
  intro hp
  refine ((hx hp).and h).unguarded.imp ?_
  rintro _ q ⟨⟨hq, a, rfl, hQ⟩, hR⟩
  exact ⟨hq, a, rfl, hQ, hR⟩

end Succeeds

/-! ## Control bits and the status they ask for -/

namespace StatusFlag

/-- Control bits that are all set ask for all status bits. -/
theorem wanted_of_on {f : StatusFlag} {w : Word} (h : w &&& f.control = f.control) :
    f.wanted w = f.status := by
  rw [wanted, h, status]

theorem wanted_of_off {f : StatusFlag} {w : Word} (h : w &&& f.control = 0) : f.wanted w = 0 := by
  simp [wanted, h]

/-- Some status bit is set in a word that shows a status. -/
theorem has_status_iff (f : StatusFlag) (w : Word) : w.has f.status = true ↔ f.shown w ≠ 0 := by
  simp [Word.has, shown]

end StatusFlag

/-! ## Waits and writes -/

namespace Succeeds

variable {t : Temper} (ht : t.Cooperative) {patience : Nat} {p : Part}
  {watched : StatusFlag → Bool} {f : StatusFlag} {budget : Nat}

include ht in
/-- A wait that accepts the settled status succeeds. -/
theorem waitUntil (hf : f.budgetIn watched = some budget) {accept : Word → Bool} {flag : ReadyFlag}
    (haccept : ∀ w, Word.AgreeOn f.control w (p.peek f.register) → f.shown w = f.wanted w →
      accept w = true) :
    Succeeds t patience (Setup.waitUntil f.register accept flag budget) p
      (fun _ q => Confined .none p q) watched := by
  intro hp
  have hpoll : ((simulated t).poll f.register accept budget p).1 = true :=
    (hp f budget hf).poll haccept
  have hrun := Setup.run_waitUntil (simulated t) patience f.register accept flag budget p
  rw [hpoll, if_pos rfl] at hrun
  have hok : Ensures (simulated t) patience (fun _ => True)
      (Setup.waitUntil f.register accept flag budget).run p (fun result _ => result = .ok ()) :=
    ⟨fun _ _ => trivial, _, _, _, hrun, rfl⟩
  have hconfined : Confines t patience .none (Setup.waitUntil f.register accept flag budget).run :=
    .waitUntil _ _ _ _
  refine ((hok.keeping (Part.tracks_keeps ht watched) hp).and (hconfined p)).unguarded.imp ?_
  rintro _ q ⟨⟨hq, rfl⟩, hpq⟩
  exact ⟨hq, (), rfl, hpq⟩

include ht in
/-- A wait for a flag that is asked for succeeds, and then the flag is set. -/
theorem waitSet (hf : f.budgetIn watched = some budget) {flag : ReadyFlag}
    (hon : p.peek f.register &&& f.control = f.control) :
    Succeeds t patience (Setup.waitSet f.register f.status flag budget) p
      (fun _ q => Confined .none p q ∧ (q.peek f.register).has f.status = true) watched := by
  have hstatus : f.status ≠ 0 := by cases f <;> decide
  have hwanted : ∀ w, Word.AgreeOn f.control w (p.peek f.register) → f.wanted w ≠ 0 := by
    intro w hw
    rw [StatusFlag.wanted_of_on (Eq.trans hw hon)]
    exact hstatus
  have hwait : Succeeds t patience (Setup.waitSet f.register f.status flag budget) p
      (fun _ q => Confined .none p q) watched := by
    refine waitUntil ht hf fun w hw hsettled => ?_
    rw [StatusFlag.has_status_iff, hsettled]
    exact hwanted w hw
  -- what was accepted is still there after the read
  have hset : Ensures (simulated t) patience (fun _ => True)
      (Setup.waitSet f.register f.status flag budget).run p
      (fun result q => result = .ok () → (q.peek f.register).has f.status = true) := by
    refine .waitUntil (I := fun u => Word.AgreeOn f.control (u.peek f.register)
      (p.peek f.register)) (.refl _ _) (fun u hu => ⟨trivial, ?_⟩) ?_ (fun u _ h => by cases h)
    · exact ((u.passed_tick f.register_notUsart).steady.mono f.control_disjoint).trans hu
    · intro u hu haccept _
      rw [StatusFlag.has_status_iff] at haccept ⊢
      rcases (u.passed_tick f.register_notUsart).shown f rfl with hkept | hsettled
      · exact fun h => haccept (hkept.symm.trans h)
      · exact fun h => hwanted _ hu (hsettled.symm.trans h)
  exact (hwait.and hset).imp fun _ q hq => ⟨hq.1, hq.2 rfl⟩

include ht in
/-- A wait for a flag to go succeeds if nothing asks for it. -/
theorem waitClear (hf : f.budgetIn watched = some budget) {flag : ReadyFlag}
    (hoff : p.peek f.register &&& f.control = 0) :
    Succeeds t patience (Setup.waitClear f.register f.status flag budget) p
      (fun _ q => Confined .none p q) watched := by
  refine waitUntil ht hf fun w hw hsettled => ?_
  have hshown : f.shown w = 0 := hsettled.trans (StatusFlag.wanted_of_off (Eq.trans hw hoff))
  have hclear : ¬w.has f.status = true := by
    rw [StatusFlag.has_status_iff, hshown]
    exact not_not_intro rfl
  simpa using hclear

include ht in
/-- A read-modify-write of an open register leaves what was made of the word. -/
theorem modify {r : Register} (hr : r.Open) (g : Word → Word) :
    Succeeds t patience (liftM (Driver.modify r g) : Setup Unit) p
      (fun _ q => Word.AgreeOn (~~~StatusFlag.statusOf r) (q.peek r) (g (p.peek r))) watched :=
  lift ht (.modify trivial trivial (Part.steady_write ht.unlatched hr _ _))

include ht in
/-- To switch a flag's hardware on and to wait for the flag succeeds. Then the
hardware is switched on, and the flag is set. -/
theorem switchOn (hf : f.budgetIn watched = some budget) (hr : f.register.Open) {flag : ReadyFlag}
    {bits : Word} (hbits : f.control &&& bits = f.control) :
    Succeeds t patience (do
        Driver.setBits f.register bits
        Setup.waitSet f.register f.status flag budget) p
      (fun _ q => q.peek f.register &&& f.control = f.control ∧
        (q.peek f.register).has f.status = true) watched := by
  refine .bind (modify ht hr (· ||| bits)) fun _ q hq => ?_
  have hon : q.peek f.register &&& f.control = f.control := by
    rw [hq.and_eq f.control_disjoint, Word.or_and_of_subset _ hbits]
  exact (waitSet ht hf hon).imp fun _ _ hu => ⟨(hu.1.control_eq hr).trans hon, hu.2⟩

include ht in
/-- To switch a flag's hardware off and to wait for the flag to go succeeds. -/
theorem switchOff (hf : f.budgetIn watched = some budget) (hr : f.register.Open) {flag : ReadyFlag}
    {bits : Word} (hbits : f.control &&& bits = f.control) :
    Succeeds t patience (do
        Driver.clearBits f.register bits
        Setup.waitClear f.register f.status flag budget) p
      (fun _ q => q.peek f.register &&& f.control = 0) watched := by
  refine .bind (modify ht hr (· &&& ~~~bits)) fun _ q hq => ?_
  have hoff : q.peek f.register &&& f.control = 0 := by
    rw [hq.and_eq f.control_disjoint, Word.andNot_and_of_subset _ hbits]
  exact (waitClear ht hf hoff).imp fun _ _ hu => (hu.control_eq hr).trans hoff

end Succeeds

end BringUp
