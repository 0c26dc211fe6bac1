import BringUp.Proofs.DriverRegisters

/-!
What a driver ensures of its history, and of devices that it cannot tell apart.

* `Traced d patience x s Q`: run from `s`, the driver `x` comes to a result, and
  the result, the events on the way and the last state are in `Q`.
* `Traced.bind`, `Traced.setupBind`, …: the rules. The events of a sequence are
  those of its parts, one after the other.
* `Device.Alike d d' ok`: the two devices take the accesses that `ok` allows in
  the same way.
* `Temper.freed t`: the same part without stuck bits.

Main statements: a driver that only makes accesses in which two devices are
alike has the same run and the same history on both (`CallsOnly.run_alike`,
`CallsOnly.history_alike`); a part is alike the freed one in every access to
other registers than the stuck ones (`simulated_alike`).

`Ensures` says the same of every event, however the driver ends. What is only
true of the events of a success, or of an error, needs the events beside the
result.
-/

namespace BringUp

/-! ## Histories in the conclusion -/

/-- Run from `s`, the driver comes to a result. The result, the events on the
way and the last state are in `Q`. -/
def Traced {σ α : Type} (d : Device σ) (patience : Nat) (x : Driver α) (s : σ)
    (Q : α → List (Event σ) → σ → Prop) : Prop :=
  ∃ a t log, x.run (d.handler patience) s = ⟨.ok a, t, log⟩ ∧ Q a (x.history d patience s) t

namespace Traced

variable {σ α β : Type} {d : Device σ} {patience : Nat} {s : σ}

theorem of_ensures {G : Event σ → Prop} {x : Driver α} {Q : α → σ → Prop}
    (h : Ensures d patience G x s Q) :
    Traced d patience x s (fun a es t => (∀ e ∈ es, G e) ∧ Q a t) := by
  obtain ⟨hG, a, t, log, hrun, hQ⟩ := h
  exact ⟨a, t, log, hrun, hG, hQ⟩

theorem ensures {x : Driver α} {Q : α → List (Event σ) → σ → Prop}
    (h : Traced d patience x s Q) :
    Ensures d patience (fun _ => True) x s (fun a t => ∃ es, Q a es t) := by
  obtain ⟨a, t, log, hrun, hQ⟩ := h
  exact ⟨fun _ _ => trivial, a, t, log, hrun, _, hQ⟩

theorem imp {x : Driver α} {R Q : α → List (Event σ) → σ → Prop} (h : Traced d patience x s R)
    (hQ : ∀ a es t, R a es t → Q a es t) : Traced d patience x s Q := by
  obtain ⟨a, t, log, hrun, hR⟩ := h
  exact ⟨a, t, log, hrun, hQ a _ t hR⟩

/-- A driver that only makes allowed accesses has events of them only. -/
theorem calling {ok : Access → Bool} {x : Driver α} {Q : α → List (Event σ) → σ → Prop}
    (h : Traced d patience x s Q) (hx : x.CallsOnly ok) :
    Traced d patience x s (fun a es t => (∀ e ∈ es, ok e.access = true) ∧ Q a es t) := by
  obtain ⟨a, t, log, hrun, hQ⟩ := h
  exact ⟨a, t, log, hrun, fun e he => hx.access_of_mem he, hQ⟩

/-- It keeps what they keep. -/
theorem keeping {ok : Access → Bool} {I : σ → Prop} {x : Driver α}
    {Q : α → List (Event σ) → σ → Prop} (h : Traced d patience x s Q) (hx : x.CallsOnly ok)
    (hd : d.Keeps ok I) (hs : I s) : Traced d patience x s (fun a es t => I t ∧ Q a es t) := by
  obtain ⟨a, t, log, hrun, hQ⟩ := h
  obtain ⟨-, hend⟩ : (∀ e ∈ x.history d patience s, I e.before ∧ I e.after) ∧
      I (x.run (d.handler patience) s).state := hx.keeps hd hs
  rw [hrun] at hend
  exact ⟨a, t, log, hrun, hend, hQ⟩

theorem done {a : α} {Q : α → List (Event σ) → σ → Prop} (h : Q a [] s) :
    Traced d patience (Proc.done a) s Q :=
  ⟨a, s, [], rfl, h⟩

theorem read {r : Register} {Q : Word → List (Event σ) → σ → Prop}
    (h : Q (d.read r s).1 [⟨s, .read r, (d.read r s).2⟩] (d.read r s).2) :
    Traced d patience (Driver.read r) s Q :=
  ⟨(d.read r s).1, (d.read r s).2, [], rfl, h⟩

/-- A read-modify-write has two events. -/
theorem modify {r : Register} {f : Word → Word} {Q : Unit → List (Event σ) → σ → Prop}
    (h : Q () [⟨s, .read r, (d.read r s).2⟩,
        ⟨(d.read r s).2, .write r (f (d.read r s).1),
          d.write r (f (d.read r s).1) (d.read r s).2⟩]
      (d.write r (f (d.read r s).1) (d.read r s).2)) :
    Traced d patience (Driver.modify r f) s Q :=
  ⟨(), _, [], rfl, h⟩

/-- First `x`, then `f` from wherever `x` may have ended. -/
theorem bind {x : Driver α} {f : α → Driver β} {R : α → List (Event σ) → σ → Prop}
    {Q : β → List (Event σ) → σ → Prop} (hx : Traced d patience x s R)
    (hf : ∀ a es t, R a es t → Traced d patience (f a) t (fun b es' => Q b (es ++ es'))) :
    Traced d patience (x >>= f) s Q := by
  obtain ⟨a, t, log, hrun, hR⟩ := hx
  obtain ⟨b, u, log', hrun', hQ⟩ := hf a _ t hR
  refine ⟨b, u, log ++ log', Proc.run_bind_of_run hrun hrun', ?_⟩
  rw [Proc.history_bind_of_run hrun]
  exact hQ

theorem lift {x : Driver α} {Q : Except SetupError α → List (Event σ) → σ → Prop}
    (hx : Traced d patience x s (fun a => Q (.ok a))) :
    Traced d patience (liftM x : Setup α).run s Q := by
  refine bind hx fun a es t h => done ?_
  rwa [List.append_nil]

theorem setupPure {a : α} {Q : Except SetupError α → List (Event σ) → σ → Prop}
    (h : Q (.ok a) [] s) : Traced d patience (Pure.pure a : Setup α).run s Q :=
  done h

theorem throw {why : SetupError} {Q : Except SetupError α → List (Event σ) → σ → Prop}
    (h : Q (.error why) [] s) :
    Traced d patience (MonadExcept.throw why : Setup α).run s Q :=
  done h

/-- First `x`, then `f` if `x` succeeded; an error of `x` is the error of the
whole, and there are no further events. -/
theorem setupBind {x : Setup α} {f : α → Setup β}
    {R : Except SetupError α → List (Event σ) → σ → Prop}
    {Q : Except SetupError β → List (Event σ) → σ → Prop} (hx : Traced d patience x.run s R)
    (hok : ∀ a es t, R (.ok a) es t →
      Traced d patience (f a).run t (fun b es' => Q b (es ++ es')))
    (herror : ∀ why es t, R (.error why) es t → Q (.error why) es t) :
    Traced d patience (x >>= f).run s Q := by
  rw [ExceptT.run_bind]
  refine bind hx fun result es t h => ?_
  cases result with
  | ok a => exact hok a es t h
  | error why =>
      refine done ?_
      rw [List.append_nil]
      exact herror why es t h

/-- An optional step is taken or not. -/
theorem optionally {c : Bool} {x : Setup Unit} {Q : SetupResult → List (Event σ) → σ → Prop}
    (hx : c = true → Traced d patience x.run s Q) (hskip : c = false → Q (.ok ()) [] s) :
    Traced d patience (BringUp.optionally c x).run s Q := by
  cases c with
  | true => exact hx rfl
  | false => exact done (hskip rfl)

end Traced

/-! ## Devices that are alike -/

/-- The two devices take the allowed accesses in the same way. -/
structure Device.Alike {σ : Type} (d d' : Device σ) (ok : Access → Bool) : Prop where
  read : ∀ r s, ok (.read r) = true → d.read r s = d'.read r s
  write : ∀ r v s, ok (.write r v) = true → d.write r v s = d'.write r v s
  loadVector : ∀ table slot s, d.loadVector table slot s = d'.loadVector table slot s
  storeVector : ∀ slot entry s, d.storeVector slot entry s = d'.storeVector slot entry s

namespace Device.Alike

variable {σ : Type} {d d' : Device σ} {ok : Access → Bool}

theorem poll (h : d.Alike d' ok) {r : Register} (hr : ok (.read r) = true)
    (accept : Word → Bool) (budget : Nat) (s : σ) :
    d.poll r accept budget s = d'.poll r accept budget s ∧
      d.pollHistory r accept budget s = d'.pollHistory r accept budget s := by
  induction budget generalizing s with
  | zero => exact ⟨rfl, rfl⟩
  | succ budget ih =>
      obtain ⟨hpoll, hhistory⟩ := ih (d'.read r s).2
      simp only [Device.poll, pollHistory, h.read r s hr, hpoll, hhistory, and_self]

/-- They answer an allowed call in the same way, with the same events. -/
theorem respond (h : d.Alike d' ok) (patience : Nat) {c : Access} (hc : ok c.single = true)
    (s : σ) :
    (d.handler patience).respond c s = (d'.handler patience).respond c s ∧
      d.history patience c s = d'.history patience c s := by
  cases c with
  | read r => simp only [handler, history, h.read r s hc, and_self]
  | write r v => simp only [handler, history, h.write r v s hc, and_self]
  | poll r accept budget =>
      obtain ⟨hpoll, hhistory⟩ := h.poll hc accept budget s
      simp only [handler, history, hpoll, hhistory, and_self]
  | await r accept =>
      obtain ⟨hpoll, hhistory⟩ := h.poll hc accept patience s
      simp only [handler, history, hpoll, hhistory, and_self]
  | loadVector table slot => simp only [handler, history, h.loadVector, and_self]
  | storeVector slot entry => simp only [handler, history, h.storeVector, and_self]

end Device.Alike

namespace Proc.CallsOnly

variable {σ α : Type} {d d' : Device σ} {patience : Nat} {ok : Access → Bool} {x : Driver α}

/-- A driver of allowed accesses runs alike on both. -/
theorem run_alike (hx : x.CallsOnly ok) (h : d.Alike d' ok) (s : σ) :
    x.run (d.handler patience) s = x.run (d'.handler patience) s := by
  induction x generalizing s with
  | done a => rfl
  | stop why => rfl
  | note record rest ih => simp only [run, ih hx]
  | call c rest ih =>
      simp only [run, (h.respond patience hx.1 s).1]
      split
      · next answer t _ => exact ih answer (hx.2 answer) t
      · rfl

theorem history_alike (hx : x.CallsOnly ok) (h : d.Alike d' ok) (s : σ) :
    x.history d patience s = x.history d' patience s := by
  induction x generalizing s with
  | done a => rfl
  | stop why => rfl
  | note record rest ih => exact ih hx s
  | call c rest ih =>
      obtain ⟨hrespond, hevents⟩ := h.respond patience hx.1 s
      simp only [history, hrespond, hevents]
      split
      · next answer t _ => rw [ih answer (hx.2 answer) t]
      · rfl

end Proc.CallsOnly

/-- What is known of a run on one device is known of the run on the other. -/
theorem Traced.alike {σ α : Type} {d d' : Device σ} {patience : Nat} {ok : Access → Bool}
    {x : Driver α} {s : σ} {Q : α → List (Event σ) → σ → Prop} (h : Traced d' patience x s Q)
    (hx : x.CallsOnly ok) (hd : d.Alike d' ok) : Traced d patience x s Q := by
  unfold Traced
  rw [hx.run_alike hd, hx.history_alike hd]
  exact h

/-! ## Stuck bits -/

/-- The same part without stuck bits. -/
def Temper.freed (t : Temper) : Temper :=
  { t with latch := fun _ => none }

theorem Temper.freed_unlatched (t : Temper) : t.freed.Unlatched :=
  fun _ => rfl

/-- Stuck bits elsewhere do not matter to a write. -/
theorem Part.write_freed {t : Temper} {r : Register} (h : t.latch r = none) (v : Word)
    (p : Part) : p.write t r v = p.write t.freed r v := by
  have hstored : stored t r (p.peek r) v = stored t.freed r (p.peek r) v := by
    simp only [stored, forceBits, h]
    rfl
  unfold write
  rw [hstored]
  rfl

/-- A part is alike the freed one in every access to registers that have no
stuck bits. -/
theorem simulated_alike {t : Temper} {rs : List Register} (h : ∀ r ∈ rs, t.latch r = none) :
    (simulated t).Alike (simulated t.freed) (Access.among rs) where
  read _ _ _ := rfl
  write r v s hr := Part.write_freed (h r (of_decide_eq_true hr)) v s
  loadVector _ _ _ := rfl
  storeVector _ _ _ := rfl

end BringUp
