import BringUp.Fault
import BringUp.Log

/-!
Procedures: programs that ask an environment to do things.

* `Interface`: the calls that a procedure can make and what each answers.
* `Proc I α`: a procedure over `I` with result `α`. It is the tree of its
  calls, so one procedure can be run on many environments.
* `Handler`, `Proc.run`: an environment with a state, and the run on it.
* `Proc.interpret`: replaces every call by a procedure over another
  interface.
* `Proc.under`: drops the records that a log ceiling keeps out.

Main statements: `Proc` is a lawful monad, and a run of a sequence is the run
of its parts one after the other (`Proc.run_bind`).
-/

namespace BringUp

/-- A vocabulary of calls, each with the type of its answer. -/
structure Interface where
  Call : Type
  Answer : Call → Type

/-- Why a procedure ends without a result. -/
inductive Stop where
  /-- A fault ended the program. -/
  | fault (cause : Fault)
  /-- The system goes down for a reset. -/
  | reset
  /-- A wait without a bound never sees what it waits for. -/
  | stalled
  deriving DecidableEq, Repr

/-- A procedure over the interface `I` with a result of type `α`. -/
inductive Proc (I : Interface) (α : Type) : Type where
  | done (result : α)
  | stop (why : Stop)
  | note (record : Log.Record) (rest : Proc I α)
  | call (c : I.Call) (rest : I.Answer c → Proc I α)

namespace Proc

variable {I J : Interface} {α β σ : Type}

/-- First `p`, then `next` with its result. -/
def bind : Proc I α → (α → Proc I β) → Proc I β
  | done a, next => next a
  | stop why, _ => stop why
  | note record rest, next => note record (rest.bind next)
  | call c rest, next => call c fun answer => (rest answer).bind next

instance : Monad (Proc I) where
  pure := done
  bind := bind

@[simp] theorem pure_eq (a : α) : (pure a : Proc I α) = done a := rfl

@[simp] theorem done_bind (a : α) (next : α → Proc I β) :
    done a >>= next = next a := rfl

@[simp] theorem stop_bind (why : Stop) (next : α → Proc I β) :
    stop why >>= next = stop why := rfl

@[simp] theorem note_bind (record : Log.Record) (rest : Proc I α)
    (next : α → Proc I β) :
    note record rest >>= next = note record (rest >>= next) := rfl

@[simp] theorem call_bind (c : I.Call) (rest : I.Answer c → Proc I α)
    (next : α → Proc I β) :
    call c rest >>= next = call c fun answer => rest answer >>= next := rfl

/-- Appending nothing changes nothing. -/
theorem bind_done (p : Proc I α) : p.bind done = p := by
  induction p with
  | done | stop => rfl
  | note record rest ih => simp only [bind, ih]
  | call c rest ih => simp only [bind, ih]

/-- Sequencing is associative. -/
theorem bind_bind {γ : Type} (p : Proc I α) (f : α → Proc I β)
    (g : β → Proc I γ) :
    (p.bind f).bind g = p.bind fun a => (f a).bind g := by
  induction p with
  | done | stop => rfl
  | note record rest ih => simp only [bind, ih]
  | call c rest ih => simp only [bind, ih]

instance : LawfulMonad (Proc I) :=
  LawfulMonad.mk' _ (fun p => bind_done p) (fun _ _ => rfl)
    (fun p f g => bind_bind p f g)

/-- Makes one call and results in its answer. -/
def request (c : I.Call) : Proc I (I.Answer c) :=
  call c done

/-- Writes one log record. -/
def log (level : Log.Level) (target message : String) : Proc I Unit :=
  note ⟨level, target, message⟩ (done ())

/-- Ends the program with a fault. -/
def fault (cause : Fault) : Proc I α :=
  stop (.fault cause)

/-- The value, or the fault that kept it from being computed. -/
def ofExcept : Except Fault α → Proc I α
  | .ok a => done a
  | .error cause => fault cause

/-- Replaces every call by the procedure that carries it out. -/
def interpret (f : (c : I.Call) → Proc J (I.Answer c)) : Proc I α → Proc J α
  | done a => done a
  | stop why => stop why
  | note record rest => note record (rest.interpret f)
  | call c rest => f c >>= fun answer => (rest answer).interpret f

/-- The same procedure without the records that the ceiling keeps out. -/
def under (ceiling : Log.Ceiling) : Proc I α → Proc I α
  | done a => done a
  | stop why => stop why
  | note record rest =>
      if ceiling.admits record.level then note record (rest.under ceiling)
      else rest.under ceiling
  | call c rest => call c fun answer => (rest answer).under ceiling

end Proc

/-- An environment with a state: it answers calls, or ends the run. -/
structure Handler (I : Interface) (σ : Type) where
  respond : (c : I.Call) → σ → Except Stop (I.Answer c) × σ

/-- What a run leaves behind. -/
structure Run (σ α : Type) where
  outcome : Except Stop α
  state : σ
  log : List Log.Record

namespace Proc

variable {I J : Interface} {α β σ : Type}

/-- The run of a procedure on an environment, from a given state. -/
def run (h : Handler I σ) : Proc I α → σ → Run σ α
  | done a, s => ⟨.ok a, s, []⟩
  | stop why, s => ⟨.error why, s, []⟩
  | note record rest, s =>
      let r := rest.run h s
      { r with log := record :: r.log }
  | call c rest, s =>
      match h.respond c s with
      | (.ok answer, t) => (rest answer).run h t
      | (.error why, t) => ⟨.error why, t, []⟩

/-- A sequence runs its parts one after the other; an end in the first part
is the end of the whole. -/
theorem run_bind (h : Handler I σ) (p : Proc I α) (next : α → Proc I β) (s : σ) :
    (p >>= next).run h s =
      match p.run h s with
      | ⟨.ok a, t, log⟩ =>
          let r := (next a).run h t
          { r with log := log ++ r.log }
      | ⟨.error why, t, log⟩ => ⟨.error why, t, log⟩ := by
  change (p.bind next).run h s = _
  induction p generalizing s with
  | done a => simp [bind, run]
  | stop why => simp [bind, run]
  | note record rest ih =>
      simp only [bind, run, ih]
      split <;> simp_all
  | call c rest ih =>
      simp only [bind, run]
      cases hr : h.respond c s with
      | mk answer t =>
          cases answer with
          | ok answer => exact ih answer t
          | error why => rfl

theorem run_pure (h : Handler I σ) (s : σ) (a : α) :
    (pure a : Proc I α).run h s = ⟨.ok a, s, []⟩ :=
  rfl

/-- A sequence logs what its parts log, one after the other. -/
theorem run_bind_of_run {h : Handler I σ} {p : Proc I α} {next : α → Proc I β} {s t u : σ} {a : α}
    {outcome : Except Stop β} {first last : List Log.Record} (hp : p.run h s = ⟨.ok a, t, first⟩)
    (hnext : (next a).run h t = ⟨outcome, u, last⟩) :
    (p >>= next).run h s = ⟨outcome, u, first ++ last⟩ := by
  rw [run_bind, hp]
  simp only [hnext]

end Proc

end BringUp
