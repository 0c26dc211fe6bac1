import BringUp.Proofs.BackupAccess
import BringUp.Proofs.OscillatorStages
import BringUp.Proofs.Requests
import BringUp.Proofs.Traces

/-!
The bypass bits of the oscillators, which may only change while their
oscillator is off.

* `Bypassable`: the two oscillators that an external clock can be fed into.
* `Bypassable.Allows old v`: to write `v` over `old` does not change the bypass
  of a running oscillator. `Event.Keeps`, `Bypassable.KeptIn`: no write of an
  event does, and none of a history.
* `Bypassable.Bypassed`: the oscillator runs, from an external clock.

Main statement: a driver that clears the switch and the bypass of an oscillator
with one write, and then starts it in any mode, keeps to the rule if and only if
the oscillator did not run from an external clock (`Bypassable.restart_traced`).

The rule is about the word that the register holds when it is written. A status
bit may have changed since the driver read it, but not one that counts here.
-/

namespace BringUp

open Board Clock Hardware

/-! ## The rule -/

/-- Oscillators that an external clock can be fed into. -/
inductive Bypassable where
  | hse
  | lse
  deriving DecidableEq, Repr

namespace Bypassable

def register : Bypassable → Register
  | .hse => .cr
  | .lse => .bdcr

/-- The switch of the oscillator. -/
def on : Bypassable → Word
  | .hse => Cr.hseOn
  | .lse => Bdcr.lseOn

def bypass : Bypassable → Word
  | .hse => Cr.hseBypass
  | .lse => Bdcr.lseBypass

/-- The reset bit of the backup domain, which switches the crystal off. -/
def reset : Bypassable → Word
  | .hse => 0
  | .lse => Bdcr.domainReset

/-- To write `v` over `old` leaves the bypass as it is, or finds the oscillator
off, or resets it. -/
def Allows (b : Bypassable) (old v : Word) : Prop :=
  v.has b.bypass = old.has b.bypass ∨ old.has b.on = false ∨ v.has b.reset = true

instance (b : Bypassable) (old v : Word) : Decidable (b.Allows old v) :=
  inferInstanceAs (Decidable (_ ∨ _ ∨ _))

/-- The oscillator runs from an external clock, and is not in reset. -/
def Bypassed (b : Bypassable) (p : Part) : Prop :=
  (p.peek b.register).has b.on = true ∧ (p.peek b.register).has b.bypass = true ∧
    (p.peek b.register).has b.reset = false

instance (b : Bypassable) (p : Part) : Decidable (b.Bypassed p) :=
  inferInstanceAs (Decidable (_ ∧ _ ∧ _))

end Bypassable

/-- A write of the oscillator's register leaves its bypass alone while it runs. -/
def Event.Keeps (e : Event Part) (b : Bypassable) : Prop :=
  match e.access with
  | .write r v => r = b.register → b.Allows (e.before.peek r) v
  | _ => True

instance (b : Bypassable) : (e : Event Part) → Decidable (e.Keeps b)
  | ⟨before, .write r v, _⟩ =>
      inferInstanceAs (Decidable (r = b.register → b.Allows (before.peek r) v))
  | ⟨_, .read _, _⟩ | ⟨_, .poll _ _ _, _⟩ | ⟨_, .await _ _, _⟩ | ⟨_, .loadVector _ _, _⟩
  | ⟨_, .storeVector _ _, _⟩ => isTrue trivial

/-- No event changes the bypass of the oscillator while it runs. -/
def Bypassable.KeptIn (b : Bypassable) (es : List (Event Part)) : Prop :=
  ∀ e ∈ es, e.Keeps b

instance (b : Bypassable) (es : List (Event Part)) : Decidable (b.KeptIn es) :=
  inferInstanceAs (Decidable (∀ e ∈ es, e.Keeps b))

namespace Bypassable

variable {b : Bypassable} {t : Temper} {patience : Nat} {p q : Part}

theorem keptIn_append {es es' : List (Event Part)} :
    b.KeptIn (es ++ es') ↔ b.KeptIn es ∧ b.KeptIn es' :=
  List.forall_mem_append

/-- What does not write the register keeps the bypass. -/
theorem keeps_of_spares {e : Event Part} (h : e.access.writes b.register = false) :
    e.Keeps b := by
  unfold Event.Keeps
  split
  · next r v haccess =>
    rintro rfl
    rw [haccess] at h
    exact absurd rfl (of_decide_eq_false h)
  · trivial

theorem keptIn_of_spares {α : Type} {x : Driver α}
    (hx : x.CallsOnly fun c => !c.writes b.register) (p : Part) :
    b.KeptIn (x.history (simulated t) patience p) :=
  fun _ he => keeps_of_spares (Bool.not_eq_true' _ ▸ hx.access_of_mem he)

theorem notUsart (b : Bypassable) : ¬b.register.IsUsartStatus := by
  rintro ⟨u, hu⟩
  cases b <;> cases hu

/-- The switch and the bypass are no status bits. -/
theorem on_plain (b : Bypassable) :
    b.on &&& ~~~StatusFlag.statusOf b.register = b.on := by
  cases b <;> decide

theorem bypass_plain (b : Bypassable) :
    b.bypass &&& ~~~StatusFlag.statusOf b.register = b.bypass := by
  cases b <;> decide

/-- Time changes the status bits of the register only. -/
theorem agreeOn_tick (b : Bypassable) (p : Part) (r : Register) :
    Word.AgreeOn (~~~StatusFlag.statusOf b.register) ((p.tick r).peek b.register)
      (p.peek b.register) := by
  by_cases hr : b.register = r
  · subst hr
    exact (p.passed_tick b.notUsart).steady
  · rw [p.peek_tick_of_ne hr]
    exact .refl _ _

/-- What is allowed depends on the switch and the bypass only. -/
theorem allows_congr {old old' v : Word}
    (h : Word.AgreeOn (~~~StatusFlag.statusOf b.register) old old') :
    b.Allows old v ↔ b.Allows old' v := by
  unfold Allows
  rw [h.has b.bypass_plain, h.has b.on_plain]

/-! ## Single accesses -/

/-- A write keeps the bypass if and only if it is allowed. -/
theorem keeps_write_iff {v : Word} :
    (⟨p, .write b.register v, q⟩ : Event Part).Keeps b ↔ b.Allows (p.peek b.register) v :=
  ⟨fun h => h rfl, fun h _ => h⟩

/-- A write that the register takes is stored as it is, or it resets the domain,
and then the oscillator is off. -/
theorem stored_or_off (ht : t.Unlatched) (htakes : p.ignores t b.register = false) (v : Word) :
    Word.AgreeOn (~~~StatusFlag.statusOf b.register) ((p.write t b.register v).peek b.register) v ∨
      ((p.write t b.register v).peek b.register).has b.on = false := by
  have hwrote := Part.wrote_write ht (v := v) htakes
  unfold Part.resetBackup at hwrote
  split at hwrote
  · next h =>
    refine .inr ((hwrote.steady.has b.on_plain).trans ?_)
    cases b with
    | hse => cases h.1
    | lse => decide
  · exact .inl hwrote.steady

theorem off_write (ht : t.Unlatched) (htakes : p.ignores t b.register = false) {v : Word}
    (hv : v.has b.on = false) :
    ((p.write t b.register v).peek b.register).has b.on = false := by
  rcases stored_or_off ht htakes v with hstored | hoff
  · exact (hstored.has b.on_plain).trans hv
  · exact hoff

/-- The events of a read-modify-write keep the bypass if and only if the write
is allowed. -/
theorem keptIn_modify (f : Word → Word) (p q : Part) :
    b.KeptIn [⟨p, .read b.register, p.tick b.register⟩,
        ⟨p.tick b.register, .write b.register (f (p.peek b.register)), q⟩] ↔
      b.Allows (p.peek b.register) (f (p.peek b.register)) := by
  unfold KeptIn
  rw [List.forall_mem_cons, List.forall_mem_singleton, keeps_write_iff,
    allows_congr (b.agreeOn_tick p b.register)]
  exact and_iff_right trivial

/-! ## Stopping and starting again -/

/-- To stop the oscillator is allowed unless it runs from an external clock. -/
theorem allows_stop_iff (b : Bypassable) (p : Part) :
    b.Allows (p.peek b.register) (p.peek b.register &&& ~~~(b.on ||| b.bypass)) ↔
      ¬b.Bypassed p := by
  have hbypass : (p.peek b.register &&& ~~~(b.on ||| b.bypass)).has b.bypass = false :=
    Word.has_andNot_of_subset _ (by cases b <;> decide)
  have hkept : Word.AgreeOn b.reset (p.peek b.register &&& ~~~(b.on ||| b.bypass))
      (p.peek b.register) := Word.agreeOn_andNot _ (by cases b <;> decide)
  have hreset : (p.peek b.register &&& ~~~(b.on ||| b.bypass)).has b.reset =
      (p.peek b.register).has b.reset :=
    hkept.has BitVec.and_self
  unfold Allows Bypassed
  rw [hbypass, hreset]
  cases (p.peek b.register).has b.on <;> cases (p.peek b.register).has b.bypass <;>
    cases (p.peek b.register).has b.reset <;> decide

/-- With the oscillator off, to wait for its flag and to start it in any mode
keeps the bypass. -/
theorem start_keeps (b : Bypassable) {running : Bool} {status bits : Word} {flag : ReadyFlag}
    {budget : Nat} (hoff : (p.peek b.register).has b.on = false) :
    Ensures (simulated t) patience (·.Keeps b)
      (do
        Setup.waitClear b.register status flag budget
        if running then
          Driver.setBits b.register bits
          Setup.waitSet b.register status flag budget : Setup Unit).run p
      (fun _ _ => True) := by
  have htick : ∀ u : Part, (u.peek b.register).has b.on = false →
      ((u.tick b.register).peek b.register).has b.on = false := fun u hu =>
    ((b.agreeOn_tick u b.register).has b.on_plain).trans hu
  refine .setupBind (R := fun _ q => (q.peek b.register).has b.on = false) ?_ ?_
    (fun _ _ _ => trivial)
  · exact .waitUntil (I := fun q => (q.peek b.register).has b.on = false) hoff
      (fun u hu => ⟨trivial, htick u hu⟩) (fun u hu _ => htick u hu) (fun _ hu => hu)
  · rintro _ q hq
    split
    · refine .setupBind (R := fun _ _ => True) ?_ ?_ (fun _ _ _ => trivial)
      · exact .lift (.modify trivial (keeps_write_iff.mpr (.inr (.inl (htick q hq)))) trivial)
      · exact fun _ u _ => .waitUntil (I := fun _ => True) trivial (fun _ _ => ⟨trivial, trivial⟩)
          (fun _ _ _ => trivial) (fun _ _ => trivial)
    · exact .setupPure trivial

/-- To stop the oscillator with one write, and to start it again, keeps the
bypass unless it ran from an external clock. -/
theorem restart_traced (ht : t.Unlatched) (b : Bypassable) {running : Bool}
    {status bits : Word} {flag : ReadyFlag} {budget : Nat}
    (htakes : (p.tick b.register).ignores t b.register = false) :
    Traced (simulated t) patience
      (do
        Driver.clearBits b.register (b.on ||| b.bypass)
        Setup.waitClear b.register status flag budget
        if running then
          Driver.setBits b.register bits
          Setup.waitSet b.register status flag budget : Setup Unit).run p
      (fun _ es _ => b.KeptIn es ↔ ¬b.Bypassed p) := by
  have hoff : (p.peek b.register &&& ~~~(b.on ||| b.bypass)).has b.on = false :=
    Word.has_andNot_of_subset _ (by cases b <;> decide)
  refine .setupBind (R := fun result es q => result = .ok () ∧
    (b.KeptIn es ↔ ¬b.Bypassed p) ∧ (q.peek b.register).has b.on = false) ?_ ?_ ?_
  · have hstop : b.KeptIn _ ↔ ¬b.Bypassed p :=
      (keptIn_modify (· &&& ~~~(b.on ||| b.bypass)) p ((p.tick b.register).write t b.register
        (p.peek b.register &&& ~~~(b.on ||| b.bypass)))).trans (b.allows_stop_iff p)
    exact .lift (.modify ⟨rfl, hstop, off_write ht htakes hoff⟩)
  · rintro _ es q ⟨-, hstop, hq⟩
    refine Traced.imp (.of_ensures (b.start_keeps hq)) ?_
    rintro _ es' _ ⟨hkept, -⟩
    rw [keptIn_append, hstop]
    exact and_iff_left hkept
  · rintro why es q ⟨⟨⟩, -⟩

end Bypassable

end BringUp
