import BringUp.Proofs.Calls
import BringUp.Proofs.PlainRegisters

/-!
Journals: the writes that a run makes, in their order.

* `journal es`: the writes among events.
* `Performs d patience x s a writes t`: run from `s`, the driver `x` results in
  `a` and leaves `t`; on the way it makes these writes and no others.
* `Performs.bind`, `Performs.modifyPlain`, …: the rules. The writes of a sequence
  are those of its parts, one after the other.

Main statement: the journal of a run's history is what the journaled device puts
down (`Proc.run_journaled`).

`Ensures` says where a run leads, and of its events only what is true of each of
them. How many writes there are, and in which order, is a matter of the journal.
-/

namespace BringUp

/-- The register and the word of a write. Other accesses write nothing. -/
def Access.written : Access → Option (Register × Word)
  | .write r v => some (r, v)
  | _ => none

/-- The writes among the events, in their order. -/
def journal {σ : Type} (es : List (Event σ)) : List (Register × Word) :=
  es.filterMap fun e => e.access.written

section

variable {σ : Type} {d : Device σ} {patience : Nat}

@[simp] theorem journal_nil : journal ([] : List (Event σ)) = [] := rfl

@[simp]
theorem journal_append (es fs : List (Event σ)) : journal (es ++ fs) = journal es ++ journal fs :=
  List.filterMap_append

/-- A poll writes nothing. -/
@[simp]
theorem journal_pollHistory (r : Register) (accept : Word → Bool) (budget : Nat) (s : σ) :
    journal (d.pollHistory r accept budget s) = [] := by
  refine List.filterMap_eq_nil_iff.mpr fun e he => ?_
  rw [Device.access_of_mem_pollHistory he]
  rfl

/-! ## The journaled device -/

namespace Device

variable {puts : Array (Register × Word)}

theorem poll_journaled (r : Register) (accept : Word → Bool) (budget : Nat) (s : σ) :
    d.journaled.poll r accept budget (s, puts) =
      ((d.poll r accept budget s).1, (d.poll r accept budget s).2, puts) := by
  induction budget generalizing s with
  | zero => rfl
  | succ budget ih =>
      have hread : d.journaled.read r (s, puts) = ((d.read r s).1, (d.read r s).2, puts) := rfl
      rw [poll, hread]
      simp only [poll, ih]
      split <;> rfl

/-- It answers as the device does, and puts down the writes. -/
theorem respond_journaled (c : Access) (s : σ) :
    (d.journaled.handler patience).respond c (s, puts) =
      (((d.handler patience).respond c s).1, ((d.handler patience).respond c s).2,
        puts ++ (journal (d.history patience c s)).toArray) := by
  cases c with
  | poll r accept budget => simp [handler, history, poll_journaled]
  | await r accept =>
      simp only [handler, history, poll_journaled, journal_pollHistory, Array.append_empty]
      cases d.poll r accept patience s with
      | mk accepted t => cases accepted <;> rfl
  | read r => simp [handler, history, journaled, journal, Access.written]
  | write r v => simp [handler, history, journaled, journal, Access.written]
  | loadVector table slot => simp [handler, history, journaled, journal, Access.written]
  | storeVector slot entry => simp [handler, history, journaled, journal, Access.written]

end Device

/-- The journal of the history is what the journaled device puts down. -/
theorem Proc.run_journaled {α : Type} (x : Driver α) (s : σ) (puts : Array (Register × Word)) :
    x.run (d.journaled.handler patience) (s, puts) =
      ⟨(x.run (d.handler patience) s).outcome,
        ((x.run (d.handler patience) s).state, puts ++ (journal (x.history d patience s)).toArray),
        (x.run (d.handler patience) s).log⟩ := by
  induction x generalizing s puts with
  | done a => simp [run, history]
  | stop why => simp [run, history]
  | note record rest ih => simp only [run, history, ih]
  | call c rest ih =>
      simp only [run, history, Device.respond_journaled]
      cases (d.handler patience).respond c s with
      | mk answer t =>
          cases answer with
          | ok answer => simp [ih]
          | error why => simp

end

/-! ## What a driver performs -/

/-- Run from `s`, the driver results in `a` and leaves `t`. On the way it makes
these writes, in this order, and no others. -/
structure Performs {σ α : Type} (d : Device σ) (patience : Nat) (x : Driver α) (s : σ) (a : α)
    (writes : List (Register × Word)) (t : σ) : Prop where
  returns : ∃ log, x.run (d.handler patience) s = ⟨.ok a, t, log⟩
  journal_eq : journal (x.history d patience s) = writes

namespace Performs

variable {σ α β : Type} {d : Device σ} {patience : Nat} {s t u : σ} {a : α} {b : β}
  {writes more : List (Register × Word)}

theorem ensures {x : Driver α} (h : Performs d patience x s a writes t) :
    Ensures d patience (fun _ => True) x s (fun b u => b = a ∧ u = t) := by
  obtain ⟨log, hrun⟩ := h.returns
  exact ⟨fun _ _ => trivial, a, t, log, hrun, rfl, rfl⟩

theorem done : Performs d patience (Proc.done a) s a [] s :=
  ⟨⟨[], rfl⟩, rfl⟩

/-- A computation that does not fault results in its value. -/
theorem ofExcept {x : Except Fault α} (hx : x = .ok a) :
    Performs d patience (Proc.ofExcept x) s a [] s := by
  rw [hx]
  exact done

/-- First `x`, then `f` from where `x` ended. -/
theorem bind {x : Driver α} {f : α → Driver β} (hx : Performs d patience x s a writes t)
    (hf : Performs d patience (f a) t b more u) :
    Performs d patience (x >>= f) s b (writes ++ more) u := by
  obtain ⟨⟨log, hrun⟩, hwrites⟩ := hx
  obtain ⟨⟨log', hrun'⟩, hmore⟩ := hf
  refine ⟨⟨log ++ log', Proc.run_bind_of_run hrun hrun'⟩, ?_⟩
  rw [Proc.history_bind_of_run hrun, journal_append, hwrites, hmore]

theorem write (r : Register) (v : Word) :
    Performs d patience (Driver.write r v) s () [(r, v)] (d.write r v s) :=
  ⟨⟨[], rfl⟩, rfl⟩

/-! ### Plain registers of a part -/

variable {t : Temper} {p : Part} {r : Register}

theorem readPlain (hr : r.Plain) :
    Performs (simulated t) patience (Driver.read r) p (p.peek r) [] p := by
  refine ⟨⟨[], ?_⟩, rfl⟩
  show Run.mk (.ok (p.peek r)) (p.tick r) [] = _
  rw [hr.tick_eq p]

theorem writePlain (hr : r.Plain) (ht : t.Unlatched) (hopen : p.ignores t r = false) (v : Word) :
    Performs (simulated t) patience (Driver.write r v) p () [(r, v)] (p.poke r v) := by
  have hwrite : (simulated t).write r v p = p.poke r v := hr.write_eq ht hopen v
  exact hwrite ▸ write r v

/-- One write, of what was made of the word that is there. -/
theorem modifyPlain (hr : r.Plain) (ht : t.Unlatched) (hopen : p.ignores t r = false)
    (f : Word → Word) :
    Performs (simulated t) patience (Driver.modify r f) p () [(r, f (p.peek r))]
      (p.poke r (f (p.peek r))) :=
  bind (readPlain hr) (writePlain hr ht hopen _)

end Performs

end BringUp
