import BringUp.Proofs.History

/-!
What a driver ensures, and the rules by which it is shown.

* `Ensures d patience G x s Q`: run from `s`, the driver `x` comes to a
  result, every event on the way keeps to `G`, and the result and the last
  state are in `Q`.
* `Ensures.bind`, `Ensures.read`, `Ensures.write`, `Ensures.poll`, …: one rule
  for each way to build a driver.
* `Ensures.setupBind`, `Ensures.lift`, `Ensures.waitUntil`, …: the same for
  drivers that can fail. There the result is a success or an error.
* `optionally`: a step under a condition. A sequence of such steps is easier
  to reason about than the branches that it stands for.

A poll is a loop, so its rule takes an invariant: it holds before the poll,
one read keeps it, and it decides both ways in which the poll can end.
-/

namespace BringUp

/-- A step that is only taken under a condition. -/
def optionally {m : Type → Type} [Monad m] (c : Bool) (x : m Unit) : m Unit :=
  if c then x else pure ()

/-- An optional step and what follows it, as a program that branches. -/
theorem optionally_bind {m : Type → Type} [Monad m] [LawfulMonad m] {α : Type} (c : Bool)
    (x : m Unit) (f : Unit → m α) :
    optionally c x >>= f = if c then x >>= f else f () := by
  cases c <;> simp [optionally]

/-- Run from `s`, the driver comes to a result: every event on the way keeps
to `G`, and the result and the last state are in `Q`. -/
structure Ensures {σ α : Type} (d : Device σ) (patience : Nat) (G : Event σ → Prop)
    (x : Driver α) (s : σ) (Q : α → σ → Prop) : Prop where
  guarded : ∀ e ∈ x.history d patience s, G e
  returns : ∃ a t log, x.run (d.handler patience) s = ⟨.ok a, t, log⟩ ∧ Q a t

/-- A run whose outcome passes a test came to a result that passes it. -/
theorem Run.result_of_any {σ α : Type} {r : Run σ α} {test : α → Bool}
    (h : r.outcome.toOption.any test = true) :
    ∃ a, r = ⟨.ok a, r.state, r.log⟩ ∧ test a = true := by
  obtain ⟨outcome, t, log⟩ := r
  cases outcome with
  | error why => cases h
  | ok a => exact ⟨a, rfl, h⟩

namespace Ensures

variable {σ α β : Type} {d : Device σ} {patience : Nat} {G : Event σ → Prop}
  {s : σ}

/-! ## Structure -/

theorem done {a : α} {Q : α → σ → Prop} (h : Q a s) :
    Ensures d patience G (Proc.done a) s Q :=
  ⟨by simp [Proc.history], a, s, [], rfl, h⟩

theorem pure {a : α} {Q : α → σ → Prop} (h : Q a s) :
    Ensures d patience G (Pure.pure a) s Q :=
  done h

/-- A computation that does not fault results in its value. -/
theorem ofExcept {x : Except Fault α} {a : α} {Q : α → σ → Prop} (hx : x = .ok a) (h : Q a s) :
    Ensures d patience G (Proc.ofExcept x) s Q := by
  rw [hx]
  exact done h

theorem note {record : Log.Record} {rest : Driver α} {Q : α → σ → Prop}
    (h : Ensures d patience G rest s Q) :
    Ensures d patience G (Proc.note record rest) s Q := by
  obtain ⟨hG, a, t, log, hrun, hQ⟩ := h
  refine ⟨hG, a, t, record :: log, ?_, hQ⟩
  simp only [Proc.run, hrun]

theorem log {level : Log.Level} {target message : String} {Q : Unit → σ → Prop}
    (h : Q () s) : Ensures d patience G (Driver.log level target message) s Q :=
  note (done h)

/-- First `x`, then `f` from wherever `x` may have ended. -/
theorem bind {x : Driver α} {f : α → Driver β} {R : α → σ → Prop}
    {Q : β → σ → Prop} (hx : Ensures d patience G x s R)
    (hf : ∀ a t, R a t → Ensures d patience G (f a) t Q) :
    Ensures d patience G (x >>= f) s Q := by
  obtain ⟨hG, a, t, log, hrun, hR⟩ := hx
  obtain ⟨hG', b, u, log', hrun', hQ⟩ := hf a t hR
  refine ⟨?_, b, u, log ++ log', Proc.run_bind_of_run hrun hrun', hQ⟩
  rw [Proc.history_bind_of_run hrun]
  intro e he
  rcases List.mem_append.mp he with h | h
  · exact hG e h
  · exact hG' e h

/-- A weaker guard and a weaker conclusion. -/
theorem mono {G' : Event σ → Prop} {x : Driver α} {R Q : α → σ → Prop}
    (hx : Ensures d patience G' x s R) (hG : ∀ e, G' e → G e)
    (hQ : ∀ a t, R a t → Q a t) : Ensures d patience G x s Q := by
  obtain ⟨hG', a, t, log, hrun, hR⟩ := hx
  exact ⟨fun e he => hG e (hG' e he), a, t, log, hrun, hQ a t hR⟩

theorem weaken {G' : Event σ → Prop} {x : Driver α} {Q : α → σ → Prop}
    (hx : Ensures d patience G' x s Q) (hG : ∀ e, G' e → G e) : Ensures d patience G x s Q :=
  hx.mono hG fun _ _ h => h

/-- What is ensured when nobody asks about the way. -/
theorem unguarded {x : Driver α} {Q : α → σ → Prop} (hx : Ensures d patience G x s Q) :
    Ensures d patience (fun _ => True) x s Q :=
  hx.weaken fun _ _ => trivial

/-- All that is kept is that the driver comes to a result. -/
theorem ends {x : Driver α} {Q : α → σ → Prop} (hx : Ensures d patience G x s Q) :
    Ensures d patience (fun _ => True) x s (fun _ _ => True) :=
  hx.mono (fun _ _ => trivial) (fun _ _ _ => trivial)

theorem imp {x : Driver α} {R Q : α → σ → Prop} (hx : Ensures d patience G x s R)
    (hQ : ∀ a t, R a t → Q a t) : Ensures d patience G x s Q :=
  hx.mono (fun _ h => h) hQ

/-- Two facts about one run hold together. -/
theorem and {G' : Event σ → Prop} {x : Driver α} {R Q : α → σ → Prop}
    (hx : Ensures d patience G x s R) (hx' : Ensures d patience G' x s Q) :
    Ensures d patience (fun e => G e ∧ G' e) x s (fun a t => R a t ∧ Q a t) := by
  obtain ⟨hG, a, t, log, hrun, hR⟩ := hx
  obtain ⟨hG', a', t', log', hrun', hQ⟩ := hx'
  rw [hrun] at hrun'
  simp only [Run.mk.injEq, Except.ok.injEq] at hrun'
  obtain ⟨rfl, rfl, _⟩ := hrun'
  exact ⟨fun e he => ⟨hG e he, hG' e he⟩, a, t, log, hrun, hR, hQ⟩

/-- A counted loop under an invariant of its rounds. -/
theorem forRange {body : Nat → Driver Unit} {n : Nat} {I : Nat → σ → Prop} (hs : I 0 s)
    (step : ∀ k u, k < n → I k u → Ensures d patience G (body k) u (fun _ => I (k + 1))) :
    Ensures d patience G ((List.range n).forM body) s (fun _ => I n) := by
  induction n with
  | zero => exact done hs
  | succ n ih =>
      rw [List.range_succ]
      show Ensures d patience G (forM (List.range n ++ [n]) body) s _
      rw [List.forM_append]
      refine bind (ih fun k u hk => step k u (Nat.lt_succ_of_lt hk)) fun _ u hu => ?_
      exact bind (step n u (Nat.lt_succ_self n) hu) fun _ _ hv => pure hv

/-! ## Single accesses -/

theorem read {r : Register} {Q : Word → σ → Prop}
    (hG : G ⟨s, .read r, (d.read r s).2⟩) (hQ : Q (d.read r s).1 (d.read r s).2) :
    Ensures d patience G (Driver.read r) s Q := by
  refine ⟨?_, (d.read r s).1, (d.read r s).2, [], rfl, hQ⟩
  simpa [Driver.read, Proc.request, Proc.history, Device.history, Device.handler]
    using hG

theorem write {r : Register} {v : Word} {Q : Unit → σ → Prop}
    (hG : G ⟨s, .write r v, d.write r v s⟩) (hQ : Q () (d.write r v s)) :
    Ensures d patience G (Driver.write r v) s Q := by
  refine ⟨?_, (), d.write r v s, [], rfl, hQ⟩
  simpa [Driver.write, Proc.request, Proc.history, Device.history, Device.handler]
    using hG

theorem loadVector {table : Word} {slot : Nat} {Q : VectorEntry → σ → Prop}
    (hG : G ⟨s, .loadVector table slot, s⟩) (hQ : Q (d.loadVector table slot s) s) :
    Ensures d patience G (Proc.request (I := bus) (.loadVector table slot)) s Q := by
  refine ⟨?_, d.loadVector table slot s, s, [], rfl, hQ⟩
  simpa [Proc.request, Proc.history, Device.history, Device.handler] using hG

theorem storeVector {slot : Nat} {entry : VectorEntry} {Q : Unit → σ → Prop}
    (hG : G ⟨s, .storeVector slot entry, d.storeVector slot entry s⟩)
    (hQ : Q () (d.storeVector slot entry s)) :
    Ensures d patience G (Proc.request (I := bus) (.storeVector slot entry)) s Q := by
  refine ⟨?_, (), d.storeVector slot entry s, [], rfl, hQ⟩
  simpa [Proc.request, Proc.history, Device.history, Device.handler] using hG

/-- A poll under an invariant of its reads. -/
theorem poll {r : Register} {accept : Word → Bool} {budget : Nat} {I : σ → Prop}
    {Q : Bool → σ → Prop} (hs : I s)
    (step : ∀ u, I u → G ⟨u, .read r, (d.read r u).2⟩ ∧ I (d.read r u).2)
    (accepted : ∀ u, I u → accept (d.read r u).1 = true → Q true (d.read r u).2)
    (exhausted : ∀ u, I u → Q false u) :
    Ensures d patience G (Proc.request (I := bus) (.poll r accept budget)) s Q := by
  have hevents : ∀ e ∈ d.pollHistory r accept budget s, G e := by
    clear accepted exhausted
    induction budget generalizing s with
    | zero => simp [Device.pollHistory]
    | succ budget ih =>
        intro e he
        simp only [Device.pollHistory, List.mem_cons] at he
        rcases he with rfl | he
        · exact (step s hs).1
        · split at he
          · simp at he
          · exact ih (step s hs).2 e he
  have hend : Q (d.poll r accept budget s).1 (d.poll r accept budget s).2 := by
    clear hevents
    induction budget generalizing s with
    | zero => exact exhausted s hs
    | succ budget ih =>
        simp only [Device.poll]
        split
        · next h => exact accepted s hs h
        · exact ih (step s hs).2
  refine ⟨?_, (d.poll r accept budget s).1, (d.poll r accept budget s).2, [], rfl, hend⟩
  simpa [Proc.request, Proc.history, Device.history, Device.handler] using hevents

/-! ## Read-modify-writes -/

theorem modify {r : Register} {f : Word → Word} {Q : Unit → σ → Prop}
    (hread : G ⟨s, .read r, (d.read r s).2⟩)
    (hwrite : G ⟨(d.read r s).2, .write r (f (d.read r s).1),
      d.write r (f (d.read r s).1) (d.read r s).2⟩)
    (hQ : Q () (d.write r (f (d.read r s).1) (d.read r s).2)) :
    Ensures d patience G (Driver.modify r f) s Q :=
  bind (R := fun v t => v = (d.read r s).1 ∧ t = (d.read r s).2)
    (read hread ⟨rfl, rfl⟩) (by rintro _ _ ⟨rfl, rfl⟩; exact write hwrite hQ)

theorem isSet {r : Register} {mask : Word} {Q : Bool → σ → Prop}
    (hG : G ⟨s, .read r, (d.read r s).2⟩)
    (hQ : Q ((d.read r s).1.has mask) (d.read r s).2) :
    Ensures d patience G (Driver.isSet r mask) s Q :=
  bind (R := fun v t => Q (v.has mask) t) (read hG hQ) fun _ _ h => pure h

theorem readField {r : Register} {f : Field} {Q : Word → σ → Prop}
    (hG : G ⟨s, .read r, (d.read r s).2⟩)
    (hQ : Q (f.get (d.read r s).1) (d.read r s).2) :
    Ensures d patience G (Driver.readField r f) s Q :=
  bind (R := fun v t => Q (f.get v) t) (read hG hQ) fun _ _ h => pure h

/-! ## Drivers that can fail -/

theorem lift {x : Driver α} {Q : Except SetupError α → σ → Prop}
    (hx : Ensures d patience G x s (fun a t => Q (.ok a) t)) :
    Ensures d patience G (liftM x : Setup α).run s Q :=
  bind hx fun _ _ h => pure h

theorem throw {e : SetupError} {Q : Except SetupError α → σ → Prop}
    (h : Q (.error e) s) :
    Ensures d patience G (MonadExcept.throw e : Setup α).run s Q :=
  done h

theorem setupPure {a : α} {Q : Except SetupError α → σ → Prop} (h : Q (.ok a) s) :
    Ensures d patience G (Pure.pure a : Setup α).run s Q :=
  done h

/-- First `x`, then `f` if `x` succeeded; an error of `x` is the error of the
whole. -/
theorem setupBind {x : Setup α} {f : α → Setup β} {R : Except SetupError α → σ → Prop}
    {Q : Except SetupError β → σ → Prop} (hx : Ensures d patience G x.run s R)
    (hok : ∀ a t, R (.ok a) t → Ensures d patience G (f a).run t Q)
    (herror : ∀ e t, R (.error e) t → Q (.error e) t) :
    Ensures d patience G (x >>= f).run s Q := by
  rw [ExceptT.run_bind]
  refine bind hx fun r t h => ?_
  cases r with
  | ok a => exact hok a t h
  | error e => exact done (herror e t h)

/-- If `x` ends with an error, then so does what comes after it. -/
theorem setupFails {x : Setup α} {f : α → Setup β} {why : SetupError}
    (hx : Ensures d patience G x.run s (fun result _ => result = .error why)) :
    Ensures d patience G (x >>= f).run s (fun result _ => result = .error why) := by
  refine setupBind hx ?_ ?_
  · rintro a t ⟨⟩
  · rintro _ t ⟨⟩
    rfl

/-- An optional step is taken or not. -/
theorem optionally {c : Bool} {x : Setup Unit} {Q : Except SetupError Unit → σ → Prop}
    (hx : c = true → Ensures d patience G x.run s Q) (hskip : c = false → Q (.ok ()) s) :
    Ensures d patience G (BringUp.optionally c x).run s Q := by
  cases c with
  | true => exact hx rfl
  | false => exact done (hskip rfl)

/-- The same for a driver that cannot fail. -/
theorem optionallyDriver {c : Bool} {x : Driver Unit} {Q : Unit → σ → Prop}
    (hx : c = true → Ensures d patience G x s Q) (hskip : c = false → Q () s) :
    Ensures d patience G (BringUp.optionally c x) s Q := by
  cases c with
  | true => exact hx rfl
  | false => exact done (hskip rfl)

/-- A wait under an invariant of its reads. -/
theorem waitUntil {r : Register} {accept : Word → Bool} {flag : ReadyFlag}
    {budget : Nat} {I : σ → Prop} {Q : SetupResult → σ → Prop} (hs : I s)
    (step : ∀ u, I u → G ⟨u, .read r, (d.read r u).2⟩ ∧ I (d.read r u).2)
    (accepted : ∀ u, I u → accept (d.read r u).1 = true → Q (.ok ()) (d.read r u).2)
    (exhausted : ∀ u, I u → Q (.error (.timeout flag)) u) :
    Ensures d patience G (Setup.waitUntil r accept flag budget).run s Q := by
  refine setupBind
    (R := fun b t => match b with
      | .ok true => Q (.ok ()) t
      | .ok false => Q (.error (.timeout flag)) t
      | .error _ => False)
    (lift (poll hs step accepted exhausted)) ?_ ?_
  · rintro (_ | _) t h
    · exact throw h
    · exact setupPure h
  · intro e t h
    exact h.elim

end Ensures

end BringUp
