import BringUp.Proofs.Footprints

/-!
Registers that are nothing but their word.

* `Register.Plain`: a register without status flags and without a transmitter
  behind it.
* `Ensures.modifyPlain`: a read-modify-write of such a register.

Main statement: an access to a plain register changes that word and nothing
else of the part (`Register.Plain.tick_eq`, `Register.Plain.write_eq`). For the
other registers a footprint says what may change; here the part afterwards is
known.
-/

namespace BringUp

open Clock

/-- A register that shows no status and sends nothing. -/
structure Register.Plain (r : Register) : Prop where
  flagless : StatusFlag.ofRegister r = []
  notUsart : ∀ u v, r ≠ .usart u v

namespace Register

theorem enable_plain (bus : Bus) : (enable bus).Plain := by
  cases bus <;> exact ⟨rfl, nofun⟩

theorem reset_plain {bus : Bus} {r : Register} (h : reset? bus = some r) : r.Plain := by
  cases bus <;> cases h <;> exact ⟨rfl, nofun⟩

theorem port_plain (port : Port) (half : PortRegister) : (Register.port port half).Plain :=
  ⟨rfl, nofun⟩

namespace Plain

variable {t : Temper} {r : Register} {p : Part}

/-- A read has no effect. -/
theorem tick_eq (hr : r.Plain) (p : Part) : p.tick r = p := by
  unfold Part.tick
  split
  · exact absurd rfl (hr.notUsart _ _)
  · rw [hr.flagless]
    rfl

/-- The word is stored as it is. -/
theorem stored_eq (hr : r.Plain) (ht : t.Unlatched) (old v : Word) :
    Part.stored t r old v = v := by
  have hbdcr : r ≠ .bdcr := by
    rintro rfl
    exact absurd hr.flagless (List.cons_ne_nil _ _)
  have hprotect : Part.protectStatus t r old v = v := by
    have hagree := Part.agreeOn_protectStatus t r old v
    rw [StatusFlag.statusOf, hr.flagless] at hagree
    have hall : ∀ w : Word, w &&& ~~~0 = w := fun w => BitVec.and_allOnes
    rwa [Word.AgreeOn, List.foldl_nil, hall, hall] at hagree
  rw [Part.stored_of_unlatched ht, hprotect, Part.resetBackup, if_neg (hbdcr ·.1)]

/-- A write that gets through is a change of the word. -/
theorem write_eq (hr : r.Plain) (ht : t.Unlatched) (hopen : p.ignores t r = false) (v : Word) :
    p.write t r v = p.poke r v := by
  simp only [Part.write, hopen, Bool.false_eq_true, if_false, hr.stored_eq ht]
  split
  · exact absurd rfl (hr.notUsart _ _)
  · rw [hr.flagless]
    rfl

end Plain

end Register

/-- Of two changes of one register the second one counts. -/
theorem Part.poke_poke (p : Part) (r : Register) (v w : Word) :
    (p.poke r v).poke r w = p.poke r w := by
  unfold poke
  congr 1
  exact Table.set_set _ r v w

namespace Ensures

variable {t : Temper} {patience : Nat} {p : Part} {r : Register}

theorem readPlain (hr : r.Plain) :
    Ensures (simulated t) patience (fun _ => True) (Driver.read r) p
      (fun v q => v = p.peek r ∧ q = p) :=
  .read trivial ⟨rfl, hr.tick_eq p⟩

theorem modifyPlain (hr : r.Plain) (ht : t.Unlatched) (hopen : p.ignores t r = false)
    (f : Word → Word) :
    Ensures (simulated t) patience (fun _ => True) (Driver.modify r f) p
      (fun _ q => q = p.poke r (f (p.peek r))) := by
  refine .modify trivial trivial ?_
  show (p.tick r).write t r (f (p.peek r)) = _
  rw [hr.tick_eq, hr.write_eq ht hopen]

end Ensures

end BringUp
