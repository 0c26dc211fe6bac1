import BringUp.Device

/-!
Histories: every access that a driver makes, with the states around it.

* `Event`: one access, the state before it and the state after it. A poll is
  not one event but as many reads as it takes.
* `Device.history`, `Proc.history`: the events of one call, and of a run.
* `Setup.run_bind_of_ok`, `Setup.history_bind_of_error`, …: runs and histories
  of drivers that can fail.

A property of all states that a run passes through is a property of the
`after` of all events of its history.

Main statements: the history of a sequence is the history of its first part,
followed by that of the second from where the first ended
(`Proc.history_bind_of_run`), and the last event of a history ends in the
state that the run leaves behind (`Proc.state_eq_of_getLast?`).
-/

namespace BringUp

/-- A single access that a device took, with the states around it. -/
structure Event (σ : Type) where
  before : σ
  access : Access
  after : σ

/-! ## The events of one call -/

namespace Device

variable {σ : Type}

/-- The reads of a poll, the last of which either gave a value that is
accepted or used up the budget. -/
def pollHistory (d : Device σ) (r : Register) (accept : Word → Bool) :
    Nat → σ → List (Event σ)
  | 0, _ => []
  | budget + 1, s =>
      match d.read r s with
      | (value, t) =>
          ⟨s, .read r, t⟩ ::
            if accept value then [] else d.pollHistory r accept budget t

/-- A poll of a register that passes no time sees one word in one state. -/
theorem poll_of_still {d : Device σ} {r : Register} {s : σ} (hs : (d.read r s).2 = s)
    (accept : Word → Bool) (budget : Nat) :
    d.poll r accept (budget + 1) s = (accept (d.read r s).1, s) := by
  induction budget with
  | zero =>
      simp only [poll, hs]
      cases accept (d.read r s).1 <;> rfl
  | succ budget ih =>
      rw [poll]
      simp only [hs, ih]
      cases accept (d.read r s).1 <;> rfl

theorem before_of_still {d : Device σ} {r : Register} {s : σ} (hs : (d.read r s).2 = s)
    {accept : Word → Bool} {budget : Nat} {e : Event σ}
    (he : e ∈ d.pollHistory r accept budget s) : e.before = s := by
  induction budget with
  | zero => cases he
  | succ budget ih =>
      simp only [pollHistory, hs, List.mem_cons] at he
      rcases he with rfl | he
      · rfl
      · split at he
        · cases he
        · exact ih he

/-- The events of one call. -/
def history (d : Device σ) (patience : Nat) : Access → σ → List (Event σ)
  | .poll r accept budget, s => d.pollHistory r accept budget s
  | .await r accept, s => d.pollHistory r accept patience s
  | access, s => [⟨s, access, ((d.handler patience).respond access s).2⟩]

/-- The last read of a poll ends in the state that the poll leaves behind. -/
theorem getLast?_pollHistory (d : Device σ) (r : Register) (accept : Word → Bool)
    (budget : Nat) (s : σ) :
    (((d.pollHistory r accept budget s).getLast?).map Event.after).getD s =
      (d.poll r accept budget s).2 := by
  induction budget generalizing s with
  | zero => rfl
  | succ budget ih =>
      simp only [pollHistory, poll]
      split
      · simp
      · rw [← ih (d.read r s).2, List.getLast?_cons]
        cases d.pollHistory r accept budget (d.read r s).2 with
        | nil => rfl
        | cons e rest => simp [List.getLast?_cons]

/-- The last event of a call ends in the state that the call leaves behind. -/
theorem getLast?_history (d : Device σ) (patience : Nat) (c : Access) (s : σ) :
    (((d.history patience c s).getLast?).map Event.after).getD s =
      ((d.handler patience).respond c s).2 := by
  cases c with
  | poll r accept budget => exact getLast?_pollHistory d r accept budget s
  | await r accept =>
      have h := getLast?_pollHistory d r accept patience s
      simp only [history, handler]
      rw [h]
      cases d.poll r accept patience s with
      | mk accepted t => cases accepted <;> rfl
  | read r => rfl
  | write r v => rfl
  | loadVector table slot => rfl
  | storeVector slot entry => rfl

end Device

/-! ## The events of a run -/

namespace Proc

variable {σ α β : Type} {d : Device σ} {patience : Nat}

/-- The events of a run, in their order. -/
def history (d : Device σ) (patience : Nat) : Driver α → σ → List (Event σ)
  | done _, _ => []
  | stop _, _ => []
  | note _ rest, s => rest.history d patience s
  | call c rest, s =>
      d.history patience c s ++
        match (d.handler patience).respond c s with
        | (.ok answer, t) => (rest answer).history d patience t
        | (.error _, _) => []

/-- A sequence goes on from where its first part ended. -/
theorem history_bind_of_run {x : Driver α} {f : α → Driver β} {s t : σ} {a : α}
    {log : List Log.Record} (h : x.run (d.handler patience) s = ⟨.ok a, t, log⟩) :
    (x >>= f).history d patience s =
      x.history d patience s ++ (f a).history d patience t := by
  change (x.bind f).history d patience s = _
  induction x generalizing s log with
  | done b =>
      simp only [run, Run.mk.injEq, Except.ok.injEq] at h
      obtain ⟨rfl, rfl, _⟩ := h
      rfl
  | stop why => simp [run] at h
  | note record rest ih =>
      simp only [run, Run.mk.injEq] at h
      obtain ⟨hout, hstate, _⟩ := h
      have hrest : rest.run (d.handler patience) s =
          ⟨.ok a, t, (rest.run (d.handler patience) s).log⟩ := by
        rw [← hout, ← hstate]
      exact ih hrest
  | call c rest ih =>
      simp only [bind, history, run] at h ⊢
      split at h
      · next answer u hr =>
          rw [hr, List.append_assoc]
          exact congrArg _ (ih answer h)
      · simp at h

/-- The events of the first part come first. -/
theorem history_isPrefix_bind (x : Driver α) (f : α → Driver β) (s : σ) :
    x.history d patience s <+: (x >>= f).history d patience s := by
  change _ <+: (x.bind f).history d patience s
  induction x generalizing s with
  | done a => exact List.nil_prefix
  | stop why => exact List.nil_prefix
  | note record rest ih => exact ih s
  | call c rest ih =>
      simp only [bind, history, List.prefix_append_right_inj]
      split
      · exact ih _ _
      · exact List.nil_prefix

/-- The events of a sequence are those of its first part, and those of its second
part from where the first one ended. -/
theorem mem_history_bind {x : Driver α} {f : α → Driver β} {s : σ} {e : Event σ} :
    e ∈ (x >>= f).history d patience s ↔
      e ∈ x.history d patience s ∨
        ∃ a t log, x.run (d.handler patience) s = ⟨.ok a, t, log⟩ ∧
          e ∈ (f a).history d patience t := by
  refine ⟨fun he => ?_, ?_⟩
  · change e ∈ (x.bind f).history d patience s at he
    induction x generalizing s with
    | done a => exact .inr ⟨a, s, [], rfl, he⟩
    | stop why => cases he
    | note record rest ih =>
        rcases ih he with hx | ⟨a, t, log, hrun, hf⟩
        · exact .inl hx
        · refine .inr ⟨a, t, record :: log, ?_, hf⟩
          simp only [run, hrun]
    | call c rest ih =>
        simp only [bind, history, List.mem_append, run] at he ⊢
        rcases he with hc | hrest
        · exact .inl (.inl hc)
        · split at hrest
          · next answer u hr =>
            rw [hr]
            rcases ih answer hrest with hx | hf
            · exact .inl (.inr hx)
            · exact .inr hf
          · cases hrest
  · rintro (hx | ⟨a, t, log, hrun, hf⟩)
    · obtain ⟨later, hlater⟩ : x.history d patience s <+: (x >>= f).history d patience s :=
        history_isPrefix_bind x f s
      exact hlater ▸ List.mem_append_left later hx
    · rw [history_bind_of_run hrun]
      exact List.mem_append_right _ hf

/-- What holds of the events of a sequence holds of those of its parts. -/
theorem forall_mem_history_bind {x : Driver α} {f : α → Driver β} {s : σ} {G : Event σ → Prop} :
    (∀ e ∈ (x >>= f).history d patience s, G e) ↔
      (∀ e ∈ x.history d patience s, G e) ∧
        ∀ a t log, x.run (d.handler patience) s = ⟨.ok a, t, log⟩ →
          ∀ e ∈ (f a).history d patience t, G e := by
  refine ⟨fun h => ⟨fun e he => ?_, fun a t log hrun e he => ?_⟩, fun h e he => ?_⟩
  · exact h e (mem_history_bind.mpr (.inl he))
  · exact h e (mem_history_bind.mpr (.inr ⟨a, t, log, hrun, he⟩))
  · rcases mem_history_bind.mp he with hx | ⟨a, t, log, hrun, hf⟩
    · exact h.1 e hx
    · exact h.2 a t log hrun e hf

/-- The last event of a run ends in the state that the run leaves behind. -/
theorem state_eq_of_getLast? (x : Driver α) (s : σ) :
    (((x.history d patience s).getLast?).map Event.after).getD s =
      (x.run (d.handler patience) s).state := by
  induction x generalizing s with
  | done a => rfl
  | stop why => rfl
  | note record rest ih => exact ih s
  | call c rest ih =>
      have hc := Device.getLast?_history d patience c s
      simp only [history, run]
      cases hr : (d.handler patience).respond c s with
      | mk answer t =>
          rw [hr] at hc
          cases answer with
          | error why => simpa using hc
          | ok answer =>
              simp only [List.getLast?_append]
              rw [← ih answer t]
              cases ((rest answer).history d patience t).getLast? with
              | none => simpa using hc
              | some e => rfl

/-- What holds before a run and after each of its events, holds at its end. -/
theorem holds_at_end {I : σ → Prop} {x : Driver α} {s : σ} (hs : I s)
    (h : ∀ e ∈ x.history d patience s, I e.after) : I (x.run (d.handler patience) s).state := by
  rw [← state_eq_of_getLast?]
  cases hlast : (x.history d patience s).getLast? with
  | none => exact hs
  | some e => exact h e (List.mem_of_getLast? hlast)

end Proc

/-! ## Drivers that can fail -/

namespace Setup

variable {σ α β : Type} {d : Device σ} {patience : Nat}

/-- After a success the sequence goes on. -/
theorem run_bind_of_ok {x : Setup α} {f : α → Setup β} {s t : σ} {a : α}
    {log : List Log.Record} (h : x.run.run (d.handler patience) s = ⟨.ok (.ok a), t, log⟩) :
    (x >>= f).run.run (d.handler patience) s =
      let r := (f a).run.run (d.handler patience) t
      { r with log := log ++ r.log } := by
  rw [ExceptT.run_bind, Proc.run_bind, h]

/-- After an error it does not. -/
theorem run_bind_of_error {x : Setup α} {f : α → Setup β} {s t : σ} {why : SetupError}
    {log : List Log.Record} (h : x.run.run (d.handler patience) s = ⟨.ok (.error why), t, log⟩) :
    (x >>= f).run.run (d.handler patience) s = ⟨.ok (.error why), t, log⟩ := by
  rw [ExceptT.run_bind, Proc.run_bind, h]
  exact congrArg (Run.mk _ _) (List.append_nil log)

theorem history_bind_of_ok {x : Setup α} {f : α → Setup β} {s t : σ} {a : α}
    {log : List Log.Record} (h : x.run.run (d.handler patience) s = ⟨.ok (.ok a), t, log⟩) :
    (x >>= f).run.history d patience s =
      x.run.history d patience s ++ (f a).run.history d patience t := by
  rw [ExceptT.run_bind, Proc.history_bind_of_run h]

theorem history_bind_of_error {x : Setup α} {f : α → Setup β} {s t : σ} {why : SetupError}
    {log : List Log.Record} (h : x.run.run (d.handler patience) s = ⟨.ok (.error why), t, log⟩) :
    (x >>= f).run.history d patience s = x.run.history d patience s := by
  rw [ExceptT.run_bind, Proc.history_bind_of_run h]
  exact List.append_nil _

/-- What holds before a sequence and after each of its events, holds between
its parts. -/
theorem holds_between {I : σ → Prop} {x : Setup α} {f : α → Setup β} {s t : σ} {a : α}
    {log : List Log.Record} (hs : I s) (h : ∀ e ∈ (x >>= f).run.history d patience s, I e.after)
    (hx : x.run.run (d.handler patience) s = ⟨.ok (.ok a), t, log⟩) : I t := by
  rw [history_bind_of_ok hx] at h
  have hend : I (x.run.run (d.handler patience) s).state :=
    Proc.holds_at_end hs fun e he => h e (List.mem_append_left _ he)
  rwa [hx] at hend

/-- An event of a sequence is one of its first part, or of its second part
after a success of the first one. -/
theorem mem_history_bind {x : Setup α} {f : α → Setup β} {s : σ} {e : Event σ}
    (he : e ∈ (x >>= f).run.history d patience s) :
    e ∈ x.run.history d patience s ∨
      ∃ a t log, x.run.run (d.handler patience) s = ⟨.ok (.ok a), t, log⟩ ∧
        e ∈ (f a).run.history d patience t := by
  rw [ExceptT.run_bind] at he
  rcases Proc.mem_history_bind.mp he with hx | ⟨result, t, log, hrun, hf⟩
  · exact .inl hx
  · cases result with
    | error why => cases hf
    | ok a => exact .inr ⟨a, t, log, hrun, hf⟩

/-- What holds of the events of a sequence holds of those of its parts. -/
theorem forall_mem_history_bind {x : Setup α} {f : α → Setup β} {s : σ} {G : Event σ → Prop} :
    (∀ e ∈ (x >>= f).run.history d patience s, G e) ↔
      (∀ e ∈ x.run.history d patience s, G e) ∧
        ∀ a t log, x.run.run (d.handler patience) s = ⟨.ok (.ok a), t, log⟩ →
          ∀ e ∈ (f a).run.history d patience t, G e := by
  rw [ExceptT.run_bind, Proc.forall_mem_history_bind]
  refine and_congr_right fun _ =>
    ⟨fun h a t log hrun => h _ t log hrun, fun h result t log hrun => ?_⟩
  cases result with
  | ok a => exact h a t log hrun
  | error why => exact List.forall_mem_nil _

variable (d) (patience) (r : Register) (accept : Word → Bool) (flag : ReadyFlag) (budget : Nat)
  (s : σ)

/-- A wait succeeds if its poll accepts a value. -/
theorem run_waitUntil :
    (waitUntil r accept flag budget).run.run (d.handler patience) s =
      ⟨.ok (if (d.poll r accept budget s).1 then .ok () else .error (.timeout flag)),
        (d.poll r accept budget s).2, []⟩ := by
  show Proc.run _ (if (d.poll r accept budget s).1 then pure () else throw _ : Setup Unit).run
    (d.poll r accept budget s).2 = _
  split <;> rfl

/-- The events of a wait are the reads of its poll. -/
theorem history_waitUntil :
    (waitUntil r accept flag budget).run.history d patience s =
      d.pollHistory r accept budget s := by
  show d.pollHistory r accept budget s ++
    Proc.history d patience
      (if (d.poll r accept budget s).1 then pure () else throw _ : Setup Unit).run
      (d.poll r accept budget s).2 = _
  split <;> exact List.append_nil _

end Setup

end BringUp
